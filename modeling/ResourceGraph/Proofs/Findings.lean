import ResourceGraph.Document.Check

/-!
A check that rejects says why. The findings of a rejected part are never empty, and no reader of a
part of a document loses them, so a document that is refused always has at least one finding.
-/

namespace ResourceGraph

variable {α β : Type}

/-- Where the check rejects, it has findings. -/
def Checked.Telling (c : Checked α) : Prop := ∀ findings, c = .rejected findings → findings ≠ []

namespace Checked

theorem telling_accepted (a : α) : (accepted a).Telling := nofun

theorem telling_rejected {findings : List Finding} :
    (rejected findings : Checked α).Telling ↔ findings ≠ [] :=
  ⟨fun h => h findings rfl, fun h _ same => (rejected.inj same) ▸ h⟩

theorem telling_reject (problem : Problem) : (reject problem : Checked α).Telling :=
  telling_rejected.mpr (List.cons_ne_nil _ _)

theorem telling_under {c : Checked α} (h : c.Telling) (segment : String) :
    (c.under segment).Telling := by
  cases c with
  | accepted a => exact telling_accepted a
  | rejected findings => simpa [under, telling_rejected] using h

theorem telling_map {c : Checked α} (h : c.Telling) (f : α → β) : (f <$> c).Telling := by
  cases c with
  | accepted a => exact telling_accepted (f a)
  | rejected findings => exact telling_rejected.mpr (telling_rejected.mp h)

theorem telling_seq {f : Checked (α → β)} {c : Checked α} (first : f.Telling) (second : c.Telling) :
    (f <*> c).Telling := by
  cases f with
  | accepted g =>
    cases c with
    | accepted a => exact telling_accepted (g a)
    | rejected findings => exact telling_rejected.mpr (telling_rejected.mp second)
  | rejected findings =>
    have some := telling_rejected.mp first
    cases c with
    | accepted a => exact telling_rejected.mpr some
    | rejected others => exact telling_rejected.mpr (List.append_ne_nil_of_left_ne_nil some others)

private theorem telling_withFindings {c : Checked α} (h : c.Telling) (more : List Finding) :
    (c.withFindings more).Telling := by
  cases c with
  | accepted a =>
    cases more with
    | nil => exact telling_accepted a
    | cons finding rest => exact telling_rejected.mpr (List.cons_ne_nil _ _)
  | rejected findings =>
    have some := telling_rejected.mp h
    cases more <;> exact telling_rejected.mpr (List.append_ne_nil_of_left_ne_nil some _)

private theorem telling_andThen {c : Checked α} {check : α → Checked β} (first : c.Telling)
    (rest : ∀ a, (check a).Telling) : (c.andThen check).Telling := by
  cases c with
  | accepted a => exact rest a
  | rejected findings => exact telling_rejected.mpr (telling_rejected.mp first)

end Checked

namespace Check

open Checked

/-! ## Readers of any parts -/

theorem telling_required {fields : Keyed Json} {k : Key} {check : Json → Checked α}
    (h : ∀ v, (check v).Telling) : (required fields k check).Telling := by
  unfold required
  split
  · exact telling_under (h _) _
  · exact telling_under (telling_reject _) _

theorem telling_optional {fields : Keyed Json} {k : Key} {absent : α} {check : Json → Checked α}
    (h : ∀ v, (check v).Telling) : (optional fields k absent check).Telling := by
  unfold optional
  split
  · exact telling_under (h _) _
  · exact telling_accepted absent

theorem telling_model {name : String} {keys : List Key} {read : Keyed Json → Checked α}
    (h : ∀ fields, (read fields).Telling) (given : Json) : (model name keys read given).Telling := by
  unfold model
  split
  · exact telling_withFindings (h _) _
  · exact telling_reject _

theorem telling_string (given : Json) : (string given).Telling := by
  unfold string
  split
  · exact telling_accepted _
  · exact telling_reject _

theorem telling_nullable {check : Json → Checked α} (h : ∀ v, (check v).Telling) (given : Json) :
    (nullable check given).Telling := by
  unfold nullable
  split
  · exact telling_accepted none
  · exact telling_map (h _) some

private theorem telling_itemsFrom {check : Json → Checked α} (h : ∀ v, (check v).Telling) (place : Nat)
    (items : List Json) : (itemsFrom check place items).Telling := by
  induction items generalizing place with
  | nil => exact telling_accepted []
  | cons item rest ih => exact telling_seq (telling_map (telling_under (h item) _) _) (ih (place + 1))

theorem telling_list {check : Json → Checked α} (h : ∀ v, (check v).Telling) (given : Json) :
    (list check given).Telling := by
  unfold list
  split
  · exact telling_itemsFrom h 0 _
  · exact telling_reject _

private theorem telling_entries {check : Json → Checked α} (h : ∀ v, (check v).Telling)
    (fields : List (String × Json)) : (entries check fields).Telling := by
  induction fields with
  | nil => exact telling_accepted []
  | cons field rest ih => exact telling_seq (telling_map (telling_under (h field.2) _) _) ih

theorem telling_keyed {check : Json → Checked α} (h : ∀ v, (check v).Telling) (given : Json) :
    (map check given).Telling := by
  unfold map
  split
  · exact telling_entries h _
  · exact telling_reject _

private theorem telling_oneOf (names : List (String × α)) (given : Json) :
    (oneOf names given).Telling := by
  unfold oneOf
  dsimp only
  split
  · split
    · exact telling_accepted _
    · exact telling_reject _
  · exact telling_reject _

/-! ## Readers of rules -/

private theorem telling_sourceRefused (whole : Problem) : (sourceRefused whole).Telling :=
  telling_rejected.mpr (List.cons_ne_nil _ _)

private theorem telling_paramSource (given : Json) : (paramSource given).Telling := by
  unfold paramSource
  split
  · exact telling_accepted _
  · exact telling_accepted _
  · exact telling_accepted _
  · dsimp only
    split
    · exact telling_sourceRefused _
    · split
      · exact telling_sourceRefused _
      · split
        · exact telling_accepted _
        · exact telling_sourceRefused _
  · exact telling_sourceRefused _

private theorem telling_param (given : Json) : (param given).Telling :=
  telling_model (fun _ => telling_seq (telling_seq (telling_map (telling_required telling_string) _)
    (telling_required (telling_oneOf _))) (telling_required telling_paramSource)) given

theorem telling_request (given : Json) : (request given).Telling :=
  telling_model (fun _ => telling_seq (telling_map (telling_required telling_string) _)
    (telling_optional (telling_list telling_param))) given

private theorem telling_source (given : Json) : (source given).Telling :=
  telling_model (fun _ => telling_seq (telling_seq (telling_map (telling_required telling_string) _)
    (telling_required (telling_oneOf _))) (telling_required telling_string)) given

theorem telling_build (given : Json) : (build given).Telling :=
  telling_model (fun _ => telling_seq (telling_seq
    (telling_map (telling_optional (telling_nullable telling_string)) _)
    (telling_optional (telling_list telling_source)))
    (telling_optional (telling_nullable telling_string))) given

private theorem telling_load (given : Json) : (load given).Telling :=
  telling_model (fun _ => telling_seq (telling_map (telling_required telling_request) _)
    (telling_required telling_string)) given

private theorem telling_actionShape (a : ActionRule) : (actionShape a).Telling := by
  unfold actionShape
  split
  · exact telling_reject _
  · split
    · exact telling_reject _
    · exact telling_accepted a
  · exact telling_accepted a

private theorem telling_action (given : Json) : (action given).Telling :=
  telling_andThen (telling_model (fun _ => telling_seq (telling_seq
    (telling_map (telling_required telling_request) _)
    (telling_optional (telling_nullable telling_string)))
    (telling_optional (telling_nullable telling_build))) given) telling_actionShape

private theorem telling_call (given : Json) : (call given).Telling :=
  telling_model (fun _ => telling_seq (telling_map (telling_required telling_request) _)
    (telling_optional telling_build)) given

private theorem telling_hasMany (given : Json) : (hasMany given).Telling :=
  telling_model (fun _ => telling_seq (telling_seq (telling_seq
    (telling_map (telling_required telling_string) _)
    (telling_optional (telling_nullable telling_call)))
    (telling_optional (telling_nullable telling_call)))
    (telling_optional (telling_nullable telling_build))) given

private theorem telling_association (given : Json) : (association given).Telling :=
  telling_model (fun _ => telling_seq (telling_map (telling_required telling_string) _)
    (telling_optional telling_build)) given

private theorem telling_subResources (given : Json) : (subResources given).Telling :=
  telling_model (fun _ => telling_seq (telling_map (telling_required (telling_list telling_string)) _)
    (telling_required (telling_keyed telling_string))) given

private theorem telling_containerRules (fields : Keyed Json) : (containerRules fields).Telling :=
  telling_seq (telling_seq (telling_seq
    (telling_map (telling_optional (telling_keyed telling_action)) _)
    (telling_optional (telling_keyed telling_hasMany)))
    (telling_optional (telling_keyed telling_association)))
    (telling_optional (telling_keyed telling_association))

private theorem telling_identifiers (given : Json) : (identifiers given).Telling := by
  unfold identifiers
  split
  · exact telling_itemsFrom telling_string 0 _
  · exact telling_reject _

private theorem telling_resource (given : Json) : (resource given).Telling :=
  telling_model (fun fields => telling_seq (telling_seq (telling_seq (telling_seq
    (telling_map (telling_containerRules fields) _)
    (telling_optional telling_identifiers))
    (telling_optional (telling_nullable telling_string)))
    (telling_optional (telling_nullable telling_load)))
    (telling_optional (telling_nullable telling_subResources))) given

end Check

/-- A document that is refused has a finding. -/
theorem Document.telling_read (given : Json) : (Document.read given).Telling :=
  Check.telling_model (fun _ => Checked.telling_seq
    (Checked.telling_map (Check.telling_optional
      (Check.telling_model Check.telling_containerRules)) _)
    (Check.telling_optional (Check.telling_keyed Check.telling_resource))) given

end ResourceGraph
