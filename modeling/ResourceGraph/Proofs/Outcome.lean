/-!
Outcomes of computations that may fail: what a success says about the parts it was put together
from. The parts of a sequence all succeeded, and what holds before a fold and is kept by its steps
holds after it.
-/

namespace ResourceGraph.Outcome

variable {ε α β σ : Type}

theorem bind_ok {x : Except ε α} {f : α → Except ε β} {b : β} :
    (x >>= f) = .ok b ↔ ∃ a, x = .ok a ∧ f a = .ok b := by
  cases x <;> simp [bind, Except.bind]

theorem pure_ok {a b : α} : (pure a : Except ε α) = .ok b ↔ a = b := by
  simp [pure, Except.pure]

theorem map_ok {x : Except ε α} {f : α → β} {b : β} :
    x.map f = .ok b ↔ ∃ a, x = .ok a ∧ f a = b := by
  cases x <;> simp [Except.map]

/-- Computations that show the same fail alike, or give results that show the same. -/
theorem cases_of_map_eq {γ : Type} {x : Except ε α} {y : Except ε β} {f : α → γ} {g : β → γ}
    (same : x.map f = y.map g) :
    (∃ e, x = .error e ∧ y = .error e) ∨ ∃ a b, x = .ok a ∧ y = .ok b ∧ f a = g b := by
  cases x with
  | error e =>
    cases y with
    | error e' => exact .inl ⟨e, rfl, by cases same; rfl⟩
    | ok b => cases same
  | ok a =>
    cases y with
    | error e => cases same
    | ok b => exact .inr ⟨a, b, rfl, rfl, Except.ok.inj same⟩

/-- Two computations show the same if their first parts do, and whatever goes on from these. -/
theorem map_bind_eq {γ δ ζ : Type} {x : Except ε α} {y : Except ε β} {f : α → ζ} {g : β → ζ}
    {k : α → Except ε γ} {l : β → Except ε γ} {shown : γ → δ} (first : x.map f = y.map g)
    (goOn : ∀ a b, f a = g b → (k a).map shown = (l b).map shown) :
    (x >>= k).map shown = (y >>= l).map shown := by
  rcases cases_of_map_eq first with ⟨e, rfl, rfl⟩ | ⟨a, b, rfl, rfl, same⟩
  · rfl
  · exact goOn a b same

theorem map_bind_congr {γ δ : Type} {x : Except ε α} {k l : α → Except ε γ} {shown : γ → δ}
    (goOn : ∀ a, (k a).map shown = (l a).map shown) :
    (x >>= k).map shown = (x >>= l).map shown := by
  refine map_bind_eq (f := id) (g := id) rfl fun a b same => ?_
  cases same
  exact goOn a

/-- Everything a mapped sequence gives was given for one of its members, at the same place. -/
theorem getElem_of_mapM {f : α → Except ε β} {xs : List α} {ys : List β}
    (mapped : xs.mapM f = .ok ys) (i : Nat) :
    (∀ y, ys[i]? = some y → ∃ x, xs[i]? = some x ∧ f x = .ok y) ∧
      (∀ x, xs[i]? = some x → ∃ y, ys[i]? = some y ∧ f x = .ok y) := by
  induction xs generalizing ys i with
  | nil =>
    rw [List.mapM_nil, pure_ok] at mapped
    subst mapped
    simp
  | cons x xs ih =>
    rw [List.mapM_cons, bind_ok] at mapped
    obtain ⟨y, first, rest⟩ := mapped
    obtain ⟨zs, others, rest⟩ := bind_ok.mp rest
    rw [pure_ok] at rest
    subst rest
    cases i with
    | zero => simp [first]
    | succ i => simpa using ih others i

theorem mem_of_mapM {f : α → Except ε β} {xs : List α} {ys : List β}
    (mapped : xs.mapM f = .ok ys) {y : β} (member : y ∈ ys) : ∃ x ∈ xs, f x = .ok y := by
  obtain ⟨i, found⟩ := List.mem_iff_getElem?.mp member
  obtain ⟨x, there, made⟩ := (getElem_of_mapM mapped i).1 y found
  exact ⟨x, List.mem_of_getElem? there, made⟩

/-- What each result shares with its member is shared by all of them, in order. -/
theorem map_eq_of_mapM {γ : Type} {f : α → Except ε β} {g : β → γ} {h : α → γ} {xs : List α}
    {ys : List β}
    (mapped : xs.mapM f = .ok ys) (each : ∀ x y, f x = .ok y → g y = h x) : ys.map g = xs.map h := by
  induction xs generalizing ys with
  | nil =>
    rw [List.mapM_nil, pure_ok] at mapped
    subst mapped
    rfl
  | cons x xs ih =>
    rw [List.mapM_cons, bind_ok] at mapped
    obtain ⟨y, first, rest⟩ := mapped
    obtain ⟨zs, others, rest⟩ := bind_ok.mp rest
    rw [pure_ok] at rest
    subst rest
    rw [List.map_cons, List.map_cons, each x y first, ih others]

/-- What can be read off each result about its member can be read off all results. -/
theorem map_of_mapM {f : α → Except ε β} {g : β → α} {xs : List α} {ys : List β}
    (mapped : xs.mapM f = .ok ys) (each : ∀ x y, f x = .ok y → g y = x) : ys.map g = xs :=
  (map_eq_of_mapM mapped each).trans xs.map_id

/-- A sequence fails as one of its members does. -/
theorem error_of_mapM {f : α → Except ε β} {xs : List α} {e : ε}
    (failed : xs.mapM f = .error e) : ∃ x ∈ xs, f x = .error e := by
  induction xs with
  | nil => cases failed
  | cons x xs ih =>
    rw [List.mapM_cons] at failed
    cases first : f x with
    | error e' =>
      rw [first] at failed
      cases failed
      exact ⟨x, List.mem_cons_self, first⟩
    | ok y =>
      cases rest : xs.mapM f with
      | error e' =>
        rw [first, rest] at failed
        cases failed
        obtain ⟨x', member, later⟩ := ih rest
        exact ⟨x', List.mem_cons_of_mem x member, later⟩
      | ok ys =>
        rw [first, rest] at failed
        cases failed

/-- What the steps of a fold keep holds at its end. -/
theorem foldlM_keeps {f : σ → α → Except ε σ} (holds : σ → Prop) {xs : List α}
    (step : ∀ x ∈ xs, ∀ s t, holds s → f s x = .ok t → holds t) {s t : σ} (start : holds s)
    (run : xs.foldlM f s = .ok t) : holds t := by
  induction xs generalizing s with
  | nil =>
    rw [List.foldlM_nil, pure_ok] at run
    exact run ▸ start
  | cons x xs ih =>
    rw [List.foldlM_cons, bind_ok] at run
    obtain ⟨next, first, rest⟩ := run
    exact ih (fun y member => step y (List.mem_cons_of_mem x member))
      (step x List.mem_cons_self s next start first) rest

/-- What a fold shows is a fold of what its steps show. -/
theorem toOption_foldlM {τ : Type} {f : σ → α → Except ε σ} {g : τ → β → Option τ} {shown : σ → τ}
    (label : α → β) (holds : σ → Prop) {xs : List α}
    (kept : ∀ x ∈ xs, ∀ s t, holds s → f s x = .ok t → holds t)
    (step : ∀ x ∈ xs, ∀ s, holds s → (f s x).toOption.map shown = g (shown s) (label x)) {s : σ}
    (start : holds s) : (xs.foldlM f s).toOption.map shown = (xs.map label).foldlM g (shown s) := by
  induction xs generalizing s with
  | nil => rfl
  | cons x xs ih =>
    have first := step x List.mem_cons_self s start
    rw [List.foldlM_cons, List.map_cons, List.foldlM_cons, ← first]
    cases taken : f s x with
    | error e => rfl
    | ok next =>
      exact ih (fun y member => kept y (List.mem_cons_of_mem x member))
        (fun y member => step y (List.mem_cons_of_mem x member))
        (kept x List.mem_cons_self s next start taken)

end ResourceGraph.Outcome
