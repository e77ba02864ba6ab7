import Mathlib

/-!
Computations that change a state and may fail. What such a computation does is read off its run: the
result and the state that is left. Two kinds of fact are carried through every computation here,
from its parts to the whole: how it may change a state, and how it may fail where the states keep
something.
-/

namespace ResourceGraph

variable {ε σ α β : Type}

/-- What a computation gives in a state, and the state that it leaves. -/
def runIn (x : ExceptT ε (StateM σ) α) (s : σ) : Except ε α × σ := x.run.run s

section Running

variable {x : ExceptT ε (StateM σ) α} {f : α → ExceptT ε (StateM σ) β} {s t : σ}

@[simp]
theorem runIn_pure (a : α) (s : σ) : runIn (pure a : ExceptT ε (StateM σ) α) s = (.ok a, s) := rfl

@[simp]
theorem runIn_get (s : σ) : runIn (get : ExceptT ε (StateM σ) σ) s = (.ok s, s) := rfl

theorem runIn_bind : runIn (x >>= f) s =
    match runIn x s with
    | (.ok a, t) => runIn (f a) t
    | (.error e, t) => (.error e, t) := by
  have unfolded : runIn (x >>= f) s = (ExceptT.bindCont f (runIn x s).1) (runIn x s).2 := rfl
  rw [unfolded]
  rcases runIn x s with ⟨_ | a, mid⟩ <;> rfl

theorem runIn_bind_ok {a : α} (ran : runIn x s = (.ok a, t)) : runIn (x >>= f) s = runIn (f a) t := by
  rw [runIn_bind, ran]

theorem runIn_bind_error {e : ε} (ran : runIn x s = (.error e, t)) :
    runIn (x >>= f) s = (.error e, t) := by
  rw [runIn_bind, ran]

/-- Two computations in a row succeed when both do. -/
theorem bind_gives {b : β} : runIn (x >>= f) s = (.ok b, t) ↔
    ∃ a mid, runIn x s = (.ok a, mid) ∧ runIn (f a) mid = (.ok b, t) := by
  rw [runIn_bind]
  rcases runIn x s with ⟨_ | a, mid⟩
  · simp
  · simp [and_assoc]

/-- Two computations in a row fail when one of them does, the second only where the first succeeded. -/
theorem bind_fails {e : ε} : runIn (x >>= f) s = (.error e, t) ↔
    runIn x s = (.error e, t) ∨
      ∃ a mid, runIn x s = (.ok a, mid) ∧ runIn (f a) mid = (.error e, t) := by
  rw [runIn_bind]
  rcases runIn x s with ⟨_ | a, mid⟩
  · simp
  · simp [and_assoc]

theorem runIn_map {g : α → β} : runIn (g <$> x) s = ((runIn x s).1.map g, (runIn x s).2) := by
  rw [map_eq_pure_bind, runIn_bind]
  rcases runIn x s with ⟨_ | a, mid⟩ <;> rfl

theorem runIn_tryCatch {handle : ε → ExceptT ε (StateM σ) α} : runIn (tryCatch x handle) s =
    match runIn x s with
    | (.ok a, t) => (.ok a, t)
    | (.error e, t) => runIn (handle e) t := by
  have unfolded : runIn (tryCatch x handle) s =
      ((x.run >>= fun r => match r with
        | .ok a => pure (.ok a)
        | .error e => handle e : StateM σ (Except ε α))).run s := rfl
  rw [unfolded, StateT.run_bind]
  change (fun p : Except ε α × σ => StateT.run (match p.1 with
        | .ok a => pure (.ok a)
        | .error e => handle e : StateM σ (Except ε α)) p.2) (runIn x s) = _
  rcases runIn x s with ⟨_ | a, mid⟩ <;> rfl

end Running

/-- What computations give one after another, and the state that they lead to. A failure stops none
of those that follow. -/
def runEach : List (ExceptT ε (StateM σ) α) → σ → List (Except ε α) × σ
  | [], s => ([], s)
  | x :: rest, s =>
    let (result, t) := runIn x s
    let (results, last) := runEach rest t
    (result :: results, last)

theorem length_runEach (xs : List (ExceptT ε (StateM σ) α)) (s : σ) :
    (runEach xs s).1.length = xs.length := by
  induction xs generalizing s with
  | nil => rfl
  | cons x rest ih => exact congrArg (· + 1) (ih _)

/-! ## How a computation changes states -/

/-- The computation changes states only as the relation says, whether it succeeds or fails. -/
def Keeps (R : σ → σ → Prop) (x : ExceptT ε (StateM σ) α) : Prop := ∀ s, R s (runIn x s).2

/-- Work that cannot fail changes states only as the relation says. -/
def Steady (R : σ → σ → Prop) (work : StateM σ α) : Prop := ∀ s, R s (work.run s).2

/-- A relation that holds when nothing is changed, and of changes in a row when it holds of each. -/
structure Lasting (R : σ → σ → Prop) : Prop where
  refl : ∀ s, R s s
  trans : ∀ {s t u}, R s t → R t u → R s u

/-- The members of an array go on over two changes when they do so over each. -/
theorem Lasting.members {R : α → α → Prop} (lasting : Lasting R) {before mid after : Array α}
    (first : ∀ (i : Nat) x, before[i]? = some x → ∃ y, mid[i]? = some y ∧ R x y)
    (second : ∀ (i : Nat) y, mid[i]? = some y → ∃ z, after[i]? = some z ∧ R y z) (i : Nat) (x : α)
    (there : before[i]? = some x) : ∃ z, after[i]? = some z ∧ R x z := by
  obtain ⟨y, still, on⟩ := first i x there
  obtain ⟨z, last, again⟩ := second i y still
  exact ⟨z, last, lasting.trans on again⟩

namespace Steady

variable {R : σ → σ → Prop} {work : StateM σ α} {next : α → StateM σ β}

theorem pure (lasting : Lasting R) (a : α) : Steady R (Pure.pure a : StateM σ α) := lasting.refl

theorem bind (lasting : Lasting R) (first : Steady R work) (rest : ∀ a, Steady R (next a)) :
    Steady R (work >>= next) := by
  intro s
  exact lasting.trans (first s) (rest _ _)

end Steady

namespace Keeps

variable {R : σ → σ → Prop} {x : ExceptT ε (StateM σ) α} {f : α → ExceptT ε (StateM σ) β}

/-- A run of the computation relates the states before and after it. -/
theorem related {result : Except ε α} {s t : σ} (keeps : Keeps R x) (ran : runIn x s = (result, t)) :
    R s t := by
  have related := keeps s
  rw [ran] at related
  exact related

theorem pure (lasting : Lasting R) (a : α) : Keeps R (Pure.pure a : ExceptT ε (StateM σ) α) :=
  lasting.refl

theorem throw (lasting : Lasting R) (e : ε) : Keeps R (throw e : ExceptT ε (StateM σ) α) :=
  lasting.refl

theorem get (lasting : Lasting R) : Keeps R (MonadState.get : ExceptT ε (StateM σ) σ) := lasting.refl

theorem lift {work : StateM σ α} (steady : Steady R work) :
    Keeps R (ExceptT.lift work : ExceptT ε (StateM σ) α) := steady

/-- The second computation need keep only what it meets after the first. -/
theorem bindAfter (lasting : Lasting R) (first : Keeps R x)
    (rest : ∀ s a mid, runIn x s = (.ok a, mid) → R mid (runIn (f a) mid).2) : Keeps R (x >>= f) := by
  intro s
  have kept := first s
  rw [runIn_bind]
  rcases ran : runIn x s with ⟨_ | a, mid⟩
  · rw [ran] at kept
    exact kept
  · rw [ran] at kept
    exact lasting.trans kept (rest s a mid ran)

theorem bind (lasting : Lasting R) (first : Keeps R x) (rest : ∀ a, Keeps R (f a)) :
    Keeps R (x >>= f) :=
  bindAfter lasting first fun _ a mid _ => rest a mid

theorem tryCatch (lasting : Lasting R) {handle : ε → ExceptT ε (StateM σ) α} (first : Keeps R x)
    (rest : ∀ e, Keeps R (handle e)) : Keeps R (tryCatch x handle) := by
  intro s
  have kept := first s
  rw [runIn_tryCatch]
  rcases ran : runIn x s with ⟨e | a, mid⟩
  · rw [ran] at kept
    exact lasting.trans kept (rest e mid)
  · rw [ran] at kept
    exact kept

theorem foldlM (lasting : Lasting R) {step : β → α → ExceptT ε (StateM σ) β} (items : List α)
    (each : ∀ b, ∀ a ∈ items, Keeps R (step b a)) (b : β) : Keeps R (items.foldlM step b) := by
  induction items generalizing b with
  | nil => exact pure lasting b
  | cons first rest ih =>
    rw [List.foldlM_cons]
    refine bind lasting (each b first (List.mem_cons_self ..)) fun b => ih ?_ b
    exact fun b a member => each b a (List.mem_cons_of_mem _ member)

theorem mapM (lasting : Lasting R) {step : α → ExceptT ε (StateM σ) β} {items : List α}
    (each : ∀ a ∈ items, Keeps R (step a)) : Keeps R (items.mapM step) := by
  induction items with
  | nil =>
    rw [List.mapM_nil]
    exact pure lasting []
  | cons first rest ih =>
    rw [List.mapM_cons]
    refine bind lasting (each first (List.mem_cons_self ..)) fun b => ?_
    refine bind lasting (ih fun a member => each a (List.mem_cons_of_mem _ member)) fun bs => ?_
    exact pure lasting (b :: bs)

end Keeps

/-- The computation looks at the state and changes nothing. -/
def Looks (x : ExceptT ε (StateM σ) α) : Prop := Keeps Eq x

theorem eq_lasting : Lasting (Eq : σ → σ → Prop) := ⟨fun _ => rfl, Eq.trans⟩

/-- The state after a computation that only looks at it is the one before. -/
theorem Looks.same {x : ExceptT ε (StateM σ) α} {result : Except ε α} {s t : σ} (looks : Looks x)
    (ran : runIn x s = (result, t)) : s = t := Keeps.related looks ran

theorem Looks.keeps {R : σ → σ → Prop} (lasting : Lasting R) {x : ExceptT ε (StateM σ) α}
    (looks : Looks x) : Keeps R x := by
  intro s
  rw [← looks s]
  exact lasting.refl s

/-- The computation changes the states that have a property only as the relation says. -/
def KeepsWhere (P : σ → Prop) (R : σ → σ → Prop) (x : ExceptT ε (StateM σ) α) : Prop :=
  ∀ s, P s → R s (runIn x s).2

namespace KeepsWhere

variable {P : σ → Prop} {R : σ → σ → Prop} {x : ExceptT ε (StateM σ) α}
  {f : α → ExceptT ε (StateM σ) β}

theorem of (keeps : Keeps R x) : KeepsWhere P R x := fun s _ => keeps s

/-- After the first computation the property is not needed. -/
theorem bindThen (lasting : Lasting R) (first : KeepsWhere P R x) (rest : ∀ a, Keeps R (f a)) :
    KeepsWhere P R (x >>= f) := by
  intro s holds
  have kept := first s holds
  rw [runIn_bind]
  rcases ran : runIn x s with ⟨_ | a, mid⟩
  · rw [ran] at kept
    exact kept
  · rw [ran] at kept
    exact lasting.trans kept (rest a mid)

/-- The first computation leaves the property as it is. -/
theorem bind (lasting : Lasting R) (first : Keeps R x) (still : ∀ s, P s → P (runIn x s).2)
    (rest : ∀ a, KeepsWhere P R (f a)) : KeepsWhere P R (x >>= f) := by
  intro s holds
  have kept := first s
  have after := still s holds
  rw [runIn_bind]
  rcases ran : runIn x s with ⟨_ | a, mid⟩
  · rw [ran] at kept
    exact kept
  · rw [ran] at kept after
    exact lasting.trans kept (rest a mid after)

theorem look (lasting : Lasting R) (looks : Looks x) (rest : ∀ a, KeepsWhere P R (f a)) :
    KeepsWhere P R (x >>= f) :=
  bind lasting (looks.keeps lasting) (fun s holds => looks s ▸ holds) rest

end KeepsWhere

/-! ## How a computation fails -/

/-- In states that have a property the computation fails only in one of the ways. -/
def Fails (I : σ → Prop) (E : ε → Prop) (x : ExceptT ε (StateM σ) α) : Prop :=
  ∀ s e t, I s → runIn x s = (.error e, t) → E e

namespace Fails

variable {I : σ → Prop} {E : ε → Prop} {x : ExceptT ε (StateM σ) α}
  {f : α → ExceptT ε (StateM σ) β}

theorem pure (a : α) : Fails I E (Pure.pure a : ExceptT ε (StateM σ) α) := by
  intro s e t _ ran
  cases ran

theorem throw {e : ε} (allowed : E e) : Fails I E (throw e : ExceptT ε (StateM σ) α) := by
  intro s e t _ ran
  cases ran
  exact allowed

theorem get : Fails I E (MonadState.get : ExceptT ε (StateM σ) σ) := by
  intro s e t _ ran
  cases ran

/-- The second computation may rely on what the first one gave. -/
theorem bindAfter (first : Fails I E x) (kept : ∀ s, I s → I (runIn x s).2)
    (rest : ∀ s a mid, I s → runIn x s = (.ok a, mid) → Fails I E (f a)) : Fails I E (x >>= f) := by
  intro s e t holds ran
  rcases bind_fails.mp ran with failed | ⟨a, mid, gave, failed⟩
  · exact first s e t holds failed
  · have still := kept s holds
    rw [gave] at still
    exact rest s a mid holds gave mid e t still failed

theorem bind (first : Fails I E x) (kept : ∀ s, I s → I (runIn x s).2)
    (rest : ∀ a, Fails I E (f a)) : Fails I E (x >>= f) :=
  bindAfter first kept fun _ a _ _ _ => rest a

private theorem map (first : Fails I E x) (g : α → β) : Fails I E (g <$> x) := by
  intro s e t holds ran
  rw [runIn_map] at ran
  rcases gave : runIn x s with ⟨e' | a, mid⟩
  · rw [gave] at ran
    cases ran
    exact first s _ _ holds gave
  · rw [gave] at ran
    cases ran

theorem foldlM {step : β → α → ExceptT ε (StateM σ) β} {items : List α}
    (kept : ∀ b, ∀ a ∈ items, ∀ s, I s → I (runIn (step b a) s).2)
    (each : ∀ b, ∀ a ∈ items, Fails I E (step b a)) (b : β) : Fails I E (items.foldlM step b) := by
  induction items generalizing b with
  | nil => exact pure b
  | cons first rest ih =>
    rw [List.foldlM_cons]
    refine bind (each b first List.mem_cons_self) (kept b first List.mem_cons_self) fun b => ih ?_ ?_ b
    · exact fun b a member => kept b a (List.mem_cons_of_mem _ member)
    · exact fun b a member => each b a (List.mem_cons_of_mem _ member)

theorem mapM {step : α → ExceptT ε (StateM σ) β} {items : List α}
    (kept : ∀ a ∈ items, ∀ s, I s → I (runIn (step a) s).2)
    (each : ∀ a ∈ items, Fails I E (step a)) : Fails I E (items.mapM step) := by
  induction items with
  | nil =>
    rw [List.mapM_nil]
    exact pure []
  | cons first rest ih =>
    rw [List.mapM_cons]
    refine bind (each first List.mem_cons_self) (kept first List.mem_cons_self) fun b => ?_
    have others : Fails I E (rest.mapM step) := ih
      (fun a member => kept a (List.mem_cons_of_mem _ member))
      fun a member => each a (List.mem_cons_of_mem _ member)
    have mapped := map others (b :: ·)
    rw [map_eq_pure_bind] at mapped
    exact mapped

/-- What is asked of more states fails no more. -/
theorem weaken {J : σ → Prop} (weaker : ∀ s, J s → I s) (fails : Fails I E x) : Fails J E x :=
  fun s e t holds ran => fails s e t (weaker s holds) ran

end Fails

end ResourceGraph
