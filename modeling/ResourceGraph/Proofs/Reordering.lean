import Mathlib.Data.List.Perm.Basic
import Mathlib.Data.Option.Basic

/-!
Sequences of steps in another order. Some pairs of steps depend on one another, and the order of
such a pair counts. Where all other pairs can be exchanged, up to what is held to be the same state,
two sequences that agree on the order of every dependent pair end alike.
-/

namespace ResourceGraph

variable {α σ τ : Type}

/-- The second sequence is the first in another order, in which of two members that depend on one
another the same one comes first. Equal members are told apart by the places they have in the first. -/
def Reorders (dependent : α → α → Prop) (xs ys : List α) : Prop :=
  ∃ placed : List (α × Nat), placed.Perm xs.zipIdx ∧ placed.map Prod.fst = ys ∧
    placed.Pairwise fun p q => q.2 < p.2 → ¬ dependent q.1 p.1

/-- Another order of what a list is mapped to is what another order of the list is mapped to. -/
theorem exists_perm_of_map_perm {β : Type} {f : α → β} {xs : List α} {ys : List β}
    (perm : (xs.map f).Perm ys) : ∃ zs, xs.Perm zs ∧ zs.map f = ys := by
  have each : List.Forall₂ (fun x b => f x = b) xs (xs.map f) := by
    rw [List.forall₂_map_right_iff]
    exact List.forall₂_same.mpr fun _ _ => rfl
  have both : Relation.Comp List.Perm (List.Forall₂ fun x b => f x = b) xs ys := by
    rw [← List.forall₂_comp_perm_eq_perm_comp_forall₂]
    exact ⟨xs.map f, each, perm⟩
  obtain ⟨zs, order, mapped⟩ := both
  refine ⟨zs, order, ?_⟩
  rw [← List.forall₂_eq_eq_eq, List.forall₂_map_left_iff]
  exact mapped

/-- Where no two members depend on one another, every other order will do. -/
theorem Reorders.of_perm {dependent : α → α → Prop} {xs ys : List α} (perm : xs.Perm ys)
    (apart : xs.Pairwise fun a b => ¬ dependent a b ∧ ¬ dependent b a) : Reorders dependent xs ys := by
  have fsts : xs.zipIdx.map Prod.fst = xs := List.zipIdx_map_fst 0 xs
  obtain ⟨placed, order, mapped⟩ := exists_perm_of_map_perm (fsts.symm ▸ perm)
  refine ⟨placed, order.symm, mapped, ?_⟩
  have start : (xs.zipIdx.map Prod.fst).Pairwise fun a b => ¬ dependent a b ∧ ¬ dependent b a := by
    rwa [fsts]
  have everywhere : placed.Pairwise fun p q => ¬ dependent p.1 q.1 ∧ ¬ dependent q.1 p.1 :=
    (order.pairwise_iff And.symm).mp (List.pairwise_map.mp start)
  exact everywhere.imp fun both _ => both.2

/-- Steps, each of which may fail, whose order counts only where they depend on one another. The
relation that compares states need not hold between a state and itself: where it does, the state is
one that runs go through. -/
structure Reorderable (dependent : α → α → Prop) (same : σ → σ → Prop) (step : σ → α → Option σ) :
    Prop where
  symm : ∀ s t, same s t → same t s
  trans : ∀ s t u, same s t → same t u → same s u
  /-- A step does alike in states that are the same. -/
  respects : ∀ a s t, same s t → Option.Rel same (step s a) (step t a)
  /-- Two steps that do not depend on one another can be exchanged. -/
  exchange : ∀ a b s, ¬ dependent a b → same s s →
    Option.Rel same ((step s a).bind fun t => step t b) ((step s b).bind fun t => step t a)

/-- What goes on alike from what is alike stays alike. -/
theorem rel_bind {same : σ → σ → Prop} {target : τ → τ → Prop} {x y : Option σ} {f g : σ → Option τ}
    (alike : Option.Rel same x y) (goOn : ∀ s t, same s t → Option.Rel target (f s) (g t)) :
    Option.Rel target (x.bind f) (y.bind g) := by
  cases alike with
  | some h => exact goOn _ _ h
  | none => exact .none

theorem rel_symm {same : σ → σ → Prop} (symm : ∀ s t, same s t → same t s) {x y : Option σ}
    (alike : Option.Rel same x y) : Option.Rel same y x := by
  cases alike with
  | some h => exact .some (symm _ _ h)
  | none => exact .none

theorem rel_of_eq {same : σ → σ → Prop} (refl : ∀ s, same s s) {x y : Option σ} (equal : x = y) :
    Option.Rel same x y := by
  subst equal
  cases x with
  | none => exact .none
  | some s => exact .some (refl s)

theorem rel_map {same : σ → σ → Prop} {target : τ → τ → Prop} {x y : Option σ} {f g : σ → τ}
    (alike : Option.Rel same x y) (mapped : ∀ s t, same s t → target (f s) (g t)) :
    Option.Rel target (x.map f) (y.map g) := by
  cases alike with
  | some h => exact .some (mapped _ _ h)
  | none => exact .none

theorem map_eq_of_rel {α β : Type} {related : α → β → Prop} {x : Option α} {y : Option β} {f : α → τ}
    {g : β → τ} (rel : Option.Rel related x y) (each : ∀ a b, related a b → f a = g b) :
    x.map f = y.map g := by
  cases rel with
  | some h => exact congrArg some (each _ _ h)
  | none => rfl

theorem rel_of_map_eq {α β : Type} {related : α → β → Prop} {x : Option α} {y : Option β} {f : α → τ}
    {g : β → τ} (same : x.map f = y.map g) (each : ∀ a b, f a = g b → related a b) :
    Option.Rel related x y := by
  cases x with
  | none =>
    cases y with
    | none => exact .none
    | some b => cases same
  | some a =>
    cases y with
    | none => cases same
    | some b => exact .some (each a b (Option.some.inj same))

namespace Reorderable

variable {dependent : α → α → Prop} {same : σ → σ → Prop} {step : σ → α → Option σ}
  (steps : Reorderable dependent same step)
include steps

private theorem rel_trans {x y z : Option σ} (first : Option.Rel same x y)
    (second : Option.Rel same y z) :
    Option.Rel same x z := by
  cases first with
  | none => exact second
  | some h =>
    cases second with
    | some h' => exact .some (steps.trans _ _ _ h h')

/-- A run does alike in states that are the same. -/
theorem run_respects (xs : List α) {s t : σ} (h : same s t) :
    Option.Rel same (xs.foldlM step s) (xs.foldlM step t) := by
  induction xs generalizing s t with
  | nil => exact .some h
  | cons a rest ih =>
    rw [List.foldlM_cons, List.foldlM_cons]
    exact rel_bind (steps.respects a s t h) fun _ _ h' => ih h'

/-- A step can be put off until after steps that do not depend on it. -/
theorem run_past {a : α} {before : List α} (apart : ∀ b ∈ before, ¬ dependent a b) (after : List α)
    {s : σ} (h : same s s) :
    Option.Rel same ((a :: (before ++ after)).foldlM step s) ((before ++ a :: after).foldlM step s) := by
  induction before generalizing s with
  | nil => exact steps.run_respects (a :: after) h
  | cons b before ih =>
    -- The two steps at the front are exchanged, then the step moves past the others.
    have front : Option.Rel same ((a :: b :: (before ++ after)).foldlM step s)
        ((b :: a :: (before ++ after)).foldlM step s) := by
      have exchanged := steps.exchange a b s (apart b List.mem_cons_self) h
      simp only [List.foldlM_cons, Option.bind_eq_bind, ← Option.bind_assoc]
      exact rel_bind exchanged fun _ _ h' => steps.run_respects (before ++ after) h'
    have others : Option.Rel same ((b :: a :: (before ++ after)).foldlM step s)
        ((b :: (before ++ a :: after)).foldlM step s) := by
      rw [List.foldlM_cons, List.foldlM_cons]
      refine rel_bind (steps.respects b s s h) fun t u h' => ?_
      have atT : same t t := steps.trans t u t h' (steps.symm t u h')
      have moved := ih (fun c member => apart c (List.mem_cons_of_mem _ member)) atT
      exact steps.rel_trans moved (steps.run_respects (before ++ a :: after) h')
    exact steps.rel_trans front others

/-- **Runs that agree on the order of dependent steps end alike.** Both fail, or both succeed in
states that are the same. -/
theorem run_reorders {xs ys : List α} (reorders : Reorders dependent xs ys) {s t : σ} (h : same s t) :
    Option.Rel same (xs.foldlM step s) (ys.foldlM step t) := by
  obtain ⟨placed, perm, rfl, ordered⟩ := reorders
  -- The induction takes the first step out of the reordered run; the places of the rest start
  -- later.
  generalize 0 = start at perm
  induction xs generalizing start placed s t with
  | nil =>
    obtain rfl := List.perm_nil.mp perm
    exact .some h
  | cons a rest ih =>
    rw [List.zipIdx_cons] at perm
    obtain ⟨before, after, rfl⟩ := List.append_of_mem (perm.mem_iff.mpr List.mem_cons_self)
    have remaining : (before ++ after).Perm (rest.zipIdx (start + 1)) :=
      (List.perm_middle.symm.trans perm).cons_inv
    -- Whatever was put before the first step has a later place, so it does not depend on that step.
    have apart : ∀ b ∈ before.map Prod.fst, ¬ dependent a b := by
      intro b member
      obtain ⟨entry, there, rfl⟩ := List.mem_map.mp member
      have later : start < entry.2 :=
        List.le_snd_of_mem_zipIdx (remaining.mem_iff.mp (List.mem_append_left _ there))
      exact (List.pairwise_append.mp ordered).2.2 entry there (a, start) List.mem_cons_self later
    have orderedRest : (before ++ after).Pairwise fun p q => q.2 < p.2 → ¬ dependent q.1 p.1 :=
      ordered.sublist (List.Sublist.append_left (List.sublist_cons_self _ _) before)
    have first : Option.Rel same ((a :: rest).foldlM step s)
        ((a :: (before ++ after).map Prod.fst).foldlM step t) := by
      rw [List.foldlM_cons, List.foldlM_cons]
      exact rel_bind (steps.respects a s t h) fun _ _ h' =>
        ih h' (before ++ after) orderedRest (start + 1) remaining
    have atT : same t t := steps.trans t s t (steps.symm s t h) h
    have back := steps.run_past apart (after.map Prod.fst) atT
    rw [List.map_append] at first
    rw [List.map_append, List.map_cons]
    exact steps.rel_trans first back

end Reorderable

/-- Where independent steps can be exchanged without a trace, runs that agree on the order of
dependent steps end in the same state. -/
theorem run_eq_of_reorders {dependent : α → α → Prop} {step : σ → α → Option σ} {xs ys : List α}
    (exchange : ∀ a b s, ¬ dependent a b →
      ((step s a).bind fun t => step t b) = (step s b).bind fun t => step t a)
    (reorders : Reorders dependent xs ys) (s : σ) : xs.foldlM step s = ys.foldlM step s := by
  have reorderable : Reorderable dependent Eq step :=
    ⟨fun _ _ => Eq.symm, fun _ _ _ => Eq.trans, fun a s t same => same ▸ rel_of_eq (fun _ => rfl) rfl,
      fun a b s apart _ => rel_of_eq (fun _ => rfl) (exchange a b s apart)⟩
  have alike : Option.Rel Eq (xs.foldlM step s) (ys.foldlM step s) :=
    reorderable.run_reorders reorders rfl
  simpa using map_eq_of_rel (f := id) (g := id) alike fun _ _ same => same

end ResourceGraph
