import Mathlib.Logic.Function.Basic
import ResourceGraph.Proofs.PlanOrder

/-!
Carrying out a plan, as it can be seen. Attaching something to a type and exposing a type at the
root are steps between views. Two attachments can be exchanged whatever they are: where both have
one name, or both are loads of one type, the second fails in either order. Two types can be exposed
in either order unless their references would have one name.
-/

namespace ResourceGraph

open Naming Outcome

/-- A type with something attached. A type has one load, and its operations have names of their own. -/
def TypeView.attach (t : TypeView) : AttachmentView → Option TypeView
  | .load o => if o.kind = .load ∧ t.load = none then some { t with load := some o } else none
  | .operation name o =>
    if t.operations name = none ∧ name ∉ t.identifiers ∧ name ∉ reservedNames then
      some { t with operations := Function.update t.operations name (some o) }
    else none

namespace ModelView

/-- The view with the type of a name changed, or the root. -/
def change (v : ModelView) (site : Option String) (f : TypeView → Option TypeView) : Option ModelView :=
  match site with
  | none => (f v.root).map fun root => { v with root := root }
  | some name => (v.types name).bind fun t => (f t).map fun u =>
    { v with types := Function.update v.types name (some u) }

/-- One step of a plan. -/
def take (v : ModelView) (step : StepView) : Option ModelView :=
  match step.attachment with
  | .error _ => none
  | .ok a => v.change step.site fun t => t.attach a

end ModelView

/-! ## Exchanging steps -/

namespace TypeView

variable (t : TypeView)

private theorem attach_load_twice (o o' : OperationView) :
    ((t.attach (.load o)).bind fun u => u.attach (.load o')) = none := by
  refine Option.bind_eq_none_iff.mpr fun u attached => ?_
  simp only [attach, Option.ite_none_right_eq_some, Option.some.injEq] at attached
  obtain ⟨_, rfl⟩ := attached
  simp [attach]

private theorem attach_name_twice (name : String) (o o' : OperationView) :
    ((t.attach (.operation name o)).bind fun u => u.attach (.operation name o')) = none := by
  refine Option.bind_eq_none_iff.mpr fun u attached => ?_
  simp only [attach, Option.ite_none_right_eq_some, Option.some.injEq] at attached
  obtain ⟨_, rfl⟩ := attached
  simp [attach]

/-- A load and an operation do not notice one another. -/
theorem attach_load_operation (o : OperationView) (name : String) (o' : OperationView) :
    ((t.attach (.load o)).bind fun u => u.attach (.operation name o')) =
      (t.attach (.operation name o')).bind fun u => u.attach (.load o) := by
  by_cases first : o.kind = .load ∧ t.load = none <;>
    by_cases second : t.operations name = none ∧ name ∉ t.identifiers ∧ name ∉ reservedNames <;>
      simp [attach, first, second]

/-- Operations with different names do not notice one another. -/
theorem attach_operations {name name' : String} (apart : name ≠ name') (o o' : OperationView) :
    ((t.attach (.operation name o)).bind fun u => u.attach (.operation name' o')) =
      (t.attach (.operation name' o')).bind fun u => u.attach (.operation name o) := by
  by_cases first : t.operations name = none ∧ name ∉ t.identifiers ∧ name ∉ reservedNames <;>
    by_cases second : t.operations name' = none ∧ name' ∉ t.identifiers ∧ name' ∉ reservedNames <;>
      simp [attach, first, second, Function.update_of_ne apart, Function.update_of_ne apart.symm,
        Function.update_comm apart]

/-- Two attachments can be made in either order. -/
theorem attach_exchange (a b : AttachmentView) :
    ((t.attach a).bind fun u => u.attach b) = (t.attach b).bind fun u => u.attach a := by
  cases a with
  | load o =>
    cases b with
    | load o' => rw [attach_load_twice, attach_load_twice]
    | operation name o' => exact attach_load_operation t o name o'
  | operation name o =>
    cases b with
    | load o' => exact (attach_load_operation t o' name o).symm
    | operation name' o' =>
      by_cases same : name = name'
      · subst same
        rw [attach_name_twice, attach_name_twice]
      · exact attach_operations t same o o'

end TypeView

namespace ModelView

variable (v : ModelView) (f g : TypeView → Option TypeView)

/-- Two changes at one site are one change there. -/
theorem change_twice (site : Option String) :
    ((v.change site f).bind fun w => w.change site g) = v.change site fun t => (f t).bind g := by
  cases site with
  | none =>
    simp only [change]
    cases f v.root <;> rfl
  | some name =>
    simp only [change]
    cases v.types name with
    | none => rfl
    | some t =>
      rw [Option.bind_some, Option.bind_some]
      cases f t with
      | none => rfl
      | some u =>
        rw [Option.map_some, Option.bind_some, Option.bind_some]
        simp only [Function.update_self, Option.bind_some, Function.update_idem]

private theorem change_root_type (name : String) :
    ((v.change none f).bind fun w => w.change (some name) g) =
      (v.change (some name) g).bind fun w => w.change none f := by
  simp only [change]
  cases changed : f v.root with
  | none =>
    cases v.types name with
    | none => rfl
    | some t => cases changed' : g t <;> simp [changed, changed']
  | some root =>
    cases there : v.types name with
    | none => simp [there]
    | some t => cases changed' : g t <;> simp [changed, there, changed']

private theorem change_types {name name' : String} (apart : name ≠ name') :
    ((v.change (some name) f).bind fun w => w.change (some name') g) =
      (v.change (some name') g).bind fun w => w.change (some name) f := by
  simp only [change]
  cases first : v.types name with
  | none =>
    cases second : v.types name' with
    | none => rfl
    | some t' => cases changed : g t' <;> simp [Function.update_of_ne apart, first, changed]
  | some t =>
    cases second : v.types name' with
    | none => cases changed : f t <;> simp [Function.update_of_ne apart.symm, second, changed]
    | some t' =>
      cases changed : f t <;> cases changed' : g t' <;>
        simp [Function.update_of_ne apart, Function.update_of_ne apart.symm, first, second, changed,
          changed', Function.update_comm apart]

/-- Changes that can be exchanged in a type can be made anywhere in either order. -/
theorem change_exchange (site site' : Option String)
    (exchange : ∀ t, ((f t).bind g) = (g t).bind f) :
    ((v.change site f).bind fun w => w.change site' g) =
      (v.change site' g).bind fun w => w.change site f := by
  by_cases same : site = site'
  · subst same
    rw [change_twice, change_twice, funext exchange]
  · cases site with
    | none =>
      cases site' with
      | none => exact absurd rfl same
      | some name' => exact change_root_type v f g name'
    | some name =>
      cases site' with
      | none => exact (change_root_type v g f name).symm
      | some name' => exact change_types v f g fun equal => same (congrArg some equal)

/-- Two steps can be taken in either order. -/
theorem take_exchange (a b : StepView) :
    ((v.take a).bind fun w => w.take b) = (v.take b).bind fun w => w.take a := by
  have impossible : ∀ (x : Option ModelView), (x.bind fun _ => (none : Option ModelView)) = none :=
    fun x => by cases x <;> rfl
  obtain ⟨site, attachment⟩ := a
  obtain ⟨site', attachment'⟩ := b
  cases attachment with
  | error fault => exact (impossible _).symm
  | ok x =>
    cases attachment' with
    | error fault => exact impossible _
    | ok y => exact change_exchange v _ _ site site' fun t => TypeView.attach_exchange t x y

/-- Steps in another order end in the same view. -/
theorem takes_perm {steps steps' : List StepView} (order : steps.Perm steps') :
    steps.foldlM take v = steps'.foldlM take v := by
  have apart : steps.Pairwise fun _ _ => ¬ False ∧ ¬ False :=
    List.pairwise_of_forall fun _ _ => ⟨not_false, not_false⟩
  exact run_eq_of_reorders (fun a b w _ => take_exchange w a b) (Reorders.of_perm order apart) v

end ModelView

/-! ## Exposing types at the root -/

/-- The reference to a type that the root may get: its name, how many identifiers tell the type
apart, and the operation. -/
structure Exposure where
  name : String
  count : Nat
  made : Except Failure OperationView

namespace Exposure

/-- The step that attaches the reference. -/
def step (e : Exposure) : StepView := ⟨none, e.made.map (.operation e.name)⟩

/-- Two references cannot both be there: each is of a type told apart by one identifier at most, and
they have one name. -/
def Meets (e f : Exposure) : Prop := e.count < 2 ∧ f.count < 2 ∧ e.name = f.name

end Exposure

def TypeSignature.exposure (t : TypeSignature) : Exposure :=
  ⟨snakeCase t.ref.name, t.identifiers.length, (Plan.related t []).map Operation.view⟩

theorem TypeSignature.Like.exposure {t t' : TypeSignature} (like : t.Like t') :
    t.exposure = t'.exposure := by
  rw [TypeSignature.exposure, TypeSignature.exposure, like.1, like.2, Plan.related_like like]

namespace ModelView

variable (v : ModelView)

/-- The root with the reference, unless several identifiers tell the type apart or the name is
there. -/
def expose (e : Exposure) : Option ModelView :=
  if 1 < e.count ∨ v.root.operations e.name ≠ none then some v else v.take e.step

/-- A reference changes no operation of another name. -/
theorem operations_of_take {e : Exposure} {w : ModelView} (taken : v.take e.step = some w)
    {name : String} (other : name ≠ e.name) : w.root.operations name = v.root.operations name := by
  obtain ⟨label, count, made⟩ := e
  cases made with
  | error fault => cases taken
  | ok o =>
    obtain ⟨root, attached, rfl⟩ := Option.map_eq_some_iff.mp taken
    simp only [TypeView.attach, Option.ite_none_right_eq_some, Option.some.injEq] at attached
    obtain ⟨_, rfl⟩ := attached
    exact Function.update_of_ne other _ _

/-- What is there stays when a type is exposed. -/
theorem there_of_expose {e : Exposure} {w : ModelView} (exposed : v.expose e = some w) {name : String}
    (there : v.root.operations name ≠ none) : w.root.operations name ≠ none := by
  unfold expose at exposed
  split at exposed
  · cases exposed
    exact there
  · next free =>
    have other : name ≠ e.name := fun same => free (.inr (same ▸ there))
    rwa [operations_of_take v exposed other]

/-- A type that is skipped at once is skipped after another as well. -/
theorem expose_skipped {e : Exposure} (f : Exposure)
    (skipped : 1 < e.count ∨ v.root.operations e.name ≠ none) :
    ((v.expose e).bind fun w => w.expose f) = (v.expose f).bind fun w => w.expose e := by
  have first : v.expose e = some v := if_pos skipped
  rw [first, Option.bind_some]
  cases exposed : v.expose f with
  | none => rfl
  | some w =>
    have later : 1 < e.count ∨ w.root.operations e.name ≠ none :=
      skipped.imp_right (there_of_expose v exposed)
    exact (if_pos later).symm

/-- A type that is not skipped is exposed after another name was taken, as it would have been
before. -/
theorem expose_after {e f : Exposure} (free : ¬ (1 < f.count ∨ v.root.operations f.name ≠ none))
    (other : f.name ≠ e.name) :
    ((v.take e.step).bind fun w => w.expose f) = (v.take e.step).bind fun w => w.take f.step := by
  cases taken : v.take e.step with
  | none => rfl
  | some w =>
    have still : ¬ (1 < f.count ∨ w.root.operations f.name ≠ none) := by
      rwa [operations_of_take v taken other]
    exact if_neg still

/-- Types that do not meet can be exposed in either order. -/
theorem expose_exchange (e f : Exposure) (apart : ¬ e.Meets f) :
    ((v.expose e).bind fun w => w.expose f) = (v.expose f).bind fun w => w.expose e := by
  by_cases skipped : 1 < e.count ∨ v.root.operations e.name ≠ none
  · exact expose_skipped v f skipped
  · by_cases skipped' : 1 < f.count ∨ v.root.operations f.name ≠ none
    · exact (expose_skipped v e skipped').symm
    · have few : e.count < 2 := by
        have := fun several => skipped (.inl several)
        omega
      have few' : f.count < 2 := by
        have := fun several => skipped' (.inl several)
        omega
      have names : e.name ≠ f.name := fun same => apart ⟨few, few', same⟩
      have first : v.expose e = v.take e.step := if_neg skipped
      have first' : v.expose f = v.take f.step := if_neg skipped'
      rw [first, first', expose_after v skipped' names.symm, expose_after v skipped names]
      exact take_exchange v e.step f.step

/-- Types that do not meet, exposed in another order, give the same view. -/
theorem exposes_perm {exposures exposures' : List Exposure} (order : exposures.Perm exposures')
    (apart : exposures.Pairwise fun e f => ¬ e.Meets f) :
    exposures.foldlM expose v = exposures'.foldlM expose v := by
  have both : exposures.Pairwise fun e f => ¬ e.Meets f ∧ ¬ f.Meets e := apart.imp fun away =>
    ⟨away, fun ⟨few, few', same⟩ => away ⟨few', few, same.symm⟩⟩
  exact run_eq_of_reorders (fun e f w => expose_exchange w e f) (Reorders.of_perm order both) v

end ModelView

end ResourceGraph
