import ResourceGraph.Graph.Access

/-!
The parameters that a caller gives. A call takes a map and values by name, which replace those of
the map; a request starts from a copy of what comes of them. So the copy has under every key the
value that is given by name, or else the one of the map.
-/

namespace ResourceGraph

namespace Value

variable {ρ : Type}

/-- A member as an entry of a table. -/
def textEntry (member : String × Value ρ) : Value ρ × Value ρ := (.str member.1, member.2)

private theorem textFields?_textEntries (fields : Keyed (Value ρ)) :
    textFields? (fields.map textEntry) = some fields := by
  induction fields with
  | nil => rfl
  | cons member rest ih =>
    obtain ⟨key, v⟩ := member
    change (textFields? (rest.map textEntry)).map ((key, v) :: ·) = _
    rw [ih]
    rfl

variable [BEq ρ]

private theorem putEntry_textEntries (fields : Keyed (Value ρ)) (key : String) (v : Value ρ) :
    putEntry (fields.map textEntry) (.str key) v = (Keyed.put fields key v).map textEntry := by
  induction fields with
  | nil => rfl
  | cons member rest ih =>
    obtain ⟨other, w⟩ := member
    have text : sameKey (.str other : Value ρ) (.str key) = (other == key) := rfl
    change (if sameKey (.str other : Value ρ) (.str key) then _ else _) = _
    rw [text, Keyed.put, ih]
    by_cases same : other = key
    · rw [if_pos (beq_iff_eq.mpr same), if_pos same]
      rfl
    · rw [if_neg (mt beq_iff_eq.mp same), if_neg same]
      rfl

/-- Members stored one after another make the object that they are merged to. -/
theorem ofEntries_textEntries (fields : List (String × Value ρ)) :
    ofEntries (fields.map textEntry) = .object (Keyed.ofList fields) := by
  have stored : ∀ done : Keyed (Value ρ),
      (fields.map textEntry).foldl (fun done entry => putEntry done entry.1 entry.2)
        (done.map textEntry) =
        (Keyed.merge done fields).map textEntry := by
    induction fields with
    | nil => exact fun done => rfl
    | cons member rest ih =>
      intro done
      rw [List.map_cons, List.foldl_cons]
      change (rest.map textEntry).foldl _ (putEntry (done.map textEntry) (.str member.1) member.2) = _
      rw [putEntry_textEntries, ih]
      rfl
  have all := stored []
  rw [List.map_nil] at all
  unfold ofEntries
  dsimp only
  rw [all, textFields?_textEntries]
  rfl

end Value

namespace Act

open Value

theorem splitEntries_textEntries {ρ : Type} (fields : Keyed (Value ρ)) :
    splitEntries (fields.map textEntry) = (fields, []) := by
  induction fields with
  | nil => rfl
  | cons member rest ih =>
    change ((member.1, member.2) :: (splitEntries (rest.map textEntry)).1,
      (splitEntries (rest.map textEntry)).2) = _
    rw [ih]

end Act

end ResourceGraph
