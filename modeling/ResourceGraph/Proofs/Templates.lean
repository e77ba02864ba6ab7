import Mathlib.Data.List.Duplicate
import ResourceGraph.Client.Template
import ResourceGraph.Proofs.Fanout

/-!
What filling a template does to its text. A placeholder is a name in braces, wherever it stands;
placeholders do not overlap, so that reading the text once from left to right finds all of them. The
text around them is kept, each is replaced, and what replaces one is not read again. Filling uses
every parameter up: it goes wrong where a placeholder has no parameter, also where one stands for
the second time, and where a parameter has no text.
-/

namespace ResourceGraph

namespace Template

open Text

variable {α : Type}

/-- The name can stand in a placeholder. -/
def IsName (name : String) : Prop := name ≠ "" ∧ ∀ c ∈ name.toList, isWord c = true

/-- The placeholder of a name. -/
def marked (name : String) : List Char := '\x7b' :: (name.toList ++ ['\x7d'])

/-- A placeholder of this name stands in the text. -/
def Standing (name : String) (text : List Char) : Prop := IsName name ∧ marked name <:+: text

/-- A placeholder of this name stands in the text, and again further on. -/
def Repeated (name : String) (text : List Char) : Prop :=
  IsName name ∧ ∃ before between after, text = before ++ marked name ++ between ++ marked name ++ after

/-- The second text is the first with the placeholders replaced: what stands before the first of
them is kept, it is replaced, and what follows is filled in the same way. -/
inductive Filled (value : String → List Char) : List Char → List Char → Prop
  | bare {text : List Char} (none : ∀ name, ¬ Standing name text) : Filled value text text
  | placeholder {before rest filled : List Char} {name : String}
      (none : ∀ other, ¬ Standing other before)
      (named : IsName name) (further : Filled value rest filled) :
      Filled value (before ++ marked name ++ rest) (before ++ value name ++ filled)

/-! ## Reading -/

theorem IsName.take {name : String} (named : IsName name) (after : List Char) :
    (name.toList ++ '\x7d' :: after).takeWhile isWord = name.toList ∧
      (name.toList ++ '\x7d' :: after).dropWhile isWord = '\x7d' :: after := by
  have ends : isWord '\x7d' = false := by decide
  refine ⟨?_, ?_⟩
  · rw [List.takeWhile_append_of_pos named.2, List.takeWhile_cons_of_neg (by simp [ends]),
      List.append_nil]
  · rw [List.dropWhile_append_of_pos named.2, List.dropWhile_cons_of_neg (by simp [ends])]

/-- A hole is read where a name and a closing brace follow. -/
theorem holeName?_eq_some {cs after : List Char} {name : String} :
    holeName? cs = some (name, after) ↔ IsName name ∧ cs = name.toList ++ '\x7d' :: after := by
  constructor
  · intro found
    unfold holeName? at found
    split at found
    · next rest ends =>
      dsimp only at found
      split at found
      · cases found
      · next filled =>
        obtain ⟨rfl, rfl⟩ := Prod.mk.inj (Option.some.inj found)
        refine ⟨⟨fun same => filled ?_, fun c member => ?_⟩, ?_⟩
        · rw [String.ofList_eq_empty_iff.mp same]
          rfl
        · exact List.all_eq_true.mp List.all_takeWhile c (String.toList_ofList ▸ member)
        · rw [String.toList_ofList, ← ends, List.takeWhile_append_dropWhile]
    · cases found
  · rintro ⟨named, rfl⟩
    obtain ⟨taken, dropped⟩ := named.take after
    unfold holeName?
    rw [dropped]
    change (if (List.takeWhile isWord _).isEmpty then none else some (String.ofList _, after)) = _
    rw [taken, if_neg (by simpa using named.1), String.ofList_toList]

theorem pieces_placeholder {name : String} (named : IsName name) (rest : List Char) :
    pieces (marked name ++ rest) = .hole name :: pieces rest := by
  have found : holeName? (name.toList ++ '\x7d' :: rest) = some (name, rest) :=
    holeName?_eq_some.mpr ⟨named, rfl⟩
  have spelled : marked name ++ rest = '\x7b' :: (name.toList ++ '\x7d' :: rest) := by simp [marked]
  rw [spelled, pieces, if_pos rfl]
  split
  · next other after there =>
    rw [found] at there
    cases there
    rfl
  · next missing =>
    rw [found] at missing
    cases missing

/-- A character that starts no placeholder is text. -/
theorem pieces_cons {c : Char} {rest : List Char}
    (plain : ∀ name, IsName name → ¬ marked name <+: c :: rest) :
    pieces (c :: rest) = .text c :: pieces rest := by
  rw [pieces]
  split
  · next brace =>
    split
    · next name after found =>
      obtain ⟨named, rfl⟩ := holeName?_eq_some.mp found
      exact absurd ⟨after, by simp [marked, brace]⟩ (plain name named)
    · rfl
  · rfl

/-- A text is empty, or starts with a placeholder, or with a character that starts none. -/
@[elab_as_elim]
theorem reading {motive : List Char → Prop} (nil : motive [])
    (placeholder : ∀ name rest, IsName name → motive rest → motive (marked name ++ rest))
    (cons : ∀ c rest, (∀ name, IsName name → ¬ marked name <+: c :: rest) → motive rest →
      motive (c :: rest))
    (text : List Char) : motive text := by
  induction text using pieces.induct with
  | case1 => exact nil
  | case2 rest name after found shorter ih =>
    obtain ⟨named, rfl⟩ := holeName?_eq_some.mp found
    have spelled : '\x7b' :: (name.toList ++ '\x7d' :: after) = marked name ++ after := by simp [marked]
    exact spelled ▸ placeholder name after named ih
  | case3 rest missing ih =>
    refine cons _ rest (fun name named starts => ?_) ih
    obtain ⟨after, same⟩ := starts
    have found : holeName? rest = some (name, after) :=
      holeName?_eq_some.mpr ⟨named, by simpa [marked] using (List.cons.inj same).2.symm⟩
    rw [missing] at found
    cases found
  | case4 c rest other ih =>
    refine cons c rest (fun name _ starts => other ?_) ih
    obtain ⟨after, same⟩ := starts
    exact (List.cons.inj same).1.symm

/-- The names of the holes, in order. -/
def holes : List Piece → List String
  | [] => []
  | .text _ :: rest => holes rest
  | .hole name :: rest => name :: holes rest

/-- No placeholder starts inside another one. -/
theorem not_mem_marked {name : String} (named : IsName name) : '\x7b' ∉ name.toList ++ ['\x7d'] := by
  intro member
  rcases List.mem_append.mp member with inside | last
  · exact absurd (named.2 _ inside) (by decide)
  · exact absurd (List.mem_singleton.mp last) (by decide)

/-- A placeholder is read wherever it stands. -/
theorem pieces_append {name : String} (named : IsName name) (before rest : List Char) :
    pieces (before ++ marked name ++ rest) = pieces before ++ .hole name :: pieces rest := by
  induction before using reading with
  | nil => rw [List.nil_append, pieces_placeholder named, pieces, List.nil_append]
  | placeholder other before named' ih =>
    rw [pieces_placeholder named', List.append_assoc, List.append_assoc, pieces_placeholder named',
      ← List.append_assoc,
      ih, List.cons_append]
  | cons c before plain ih =>
    have still : ∀ other, IsName other → ¬ marked other <+: c :: (before ++ marked name ++ rest) := by
      intro other named' starts
      have front : c :: before <+: c :: (before ++ marked name ++ rest) := ⟨marked name ++ rest, by simp⟩
      rcases List.prefix_or_prefix_of_prefix starts front with inside | across
      · exact plain other named' inside
      · -- The placeholder would reach across the brace that opens the other one.
        obtain ⟨beyond, whole⟩ := across
        cases beyond with
        | nil => exact plain other named' ⟨[], by simp [← whole]⟩
        | cons d beyond =>
          obtain ⟨after, same⟩ := starts
          have opens : d = '\x7b' := by
            rw [← whole] at same
            simp only [marked, List.cons_append, List.append_assoc, List.cons.injEq, true_and,
              List.append_cancel_left_eq] at same
            exact same.1
          refine not_mem_marked named' ?_
          rw [← (List.cons.inj whole).2, opens]
          simp
    rw [pieces_cons plain, List.cons_append, List.cons_append, pieces_cons still, ih, List.cons_append]

theorem holes_append (first second : List Piece) :
    holes (first ++ second) = holes first ++ holes second := by
  induction first with
  | nil => rfl
  | cons piece rest ih =>
    cases piece with
    | text c => exact ih
    | hole name => exact congrArg (name :: ·) ih

theorem Standing.after {name : String} {text : List Char} (standing : Standing name text)
    (before : List Char) :
    Standing name (before ++ text) :=
  ⟨standing.1, standing.2.trans (List.suffix_append before text).isInfix⟩

theorem Repeated.after {name : String} {text : List Char} (repeated : Repeated name text)
    (before : List Char) :
    Repeated name (before ++ text) := by
  obtain ⟨named, first, between, last, rfl⟩ := repeated
  exact ⟨named, before ++ first, between, last, by simp⟩

/-- The names of the holes are those whose placeholders stand in the text. -/
theorem mem_holes {name : String} {text : List Char} :
    name ∈ holes (pieces text) ↔ Standing name text := by
  constructor
  · intro member
    induction text using reading with
    | nil =>
      rw [pieces] at member
      cases member
    | placeholder other rest named ih =>
      rw [pieces_placeholder named] at member
      rcases List.mem_cons.mp member with rfl | later
      · exact ⟨named, (List.prefix_append _ rest).isInfix⟩
      · exact (ih later).after _
    | cons c rest plain ih =>
      rw [pieces_cons plain] at member
      exact (ih member).after [c]
  · rintro ⟨named, before, rest, rfl⟩
    rw [pieces_append named, holes_append]
    exact List.mem_append_right _ List.mem_cons_self

/-- A name has two holes if its placeholder is repeated. -/
theorem duplicate_holes {name : String} {text : List Char} :
    List.Duplicate name (holes (pieces text)) ↔ Repeated name text := by
  constructor
  · intro twice
    induction text using reading with
    | nil =>
      rw [pieces] at twice
      cases twice
    | placeholder other rest named ih =>
      rw [pieces_placeholder named] at twice
      rcases List.duplicate_cons_iff.mp twice with ⟨rfl, again⟩ | later
      · obtain ⟨_, between, after, same⟩ := mem_holes.mp again
        exact ⟨named, [], between, after, by simp [← same]⟩
      · exact (ih later).after _
    | cons c rest plain ih =>
      rw [pieces_cons plain] at twice
      exact (ih twice).after [c]
  · rintro ⟨named, before, between, rest, rfl⟩
    rw [pieces_append named, holes_append, pieces_append named, holes_append, List.duplicate_iff_sublist]
    have first : List.Sublist [name] (holes (pieces before) ++ holes (.hole name :: pieces between)) :=
      List.singleton_sublist.mpr (List.mem_append_right _ List.mem_cons_self)
    have second : List.Sublist [name] (holes (.hole name :: pieces rest)) :=
      List.singleton_sublist.mpr List.mem_cons_self
    exact first.append second

/-! ## Filling -/

/-- The text of a piece whose hole is replaced. -/
def filledBy (value : String → List Char) : Piece → List Char
  | .text c => [c]
  | .hole name => value name

private theorem not_standing_nil (name : String) : ¬ Standing name [] := by
  rintro ⟨_, before, after, same⟩
  simp [marked] at same

/-- A character that starts no placeholder stays. -/
theorem Filled.cons {value : String → List Char} {c : Char} {rest filled : List Char}
    (plain : ∀ name, IsName name → ¬ marked name <+: c :: rest) (further : Filled value rest filled) :
    Filled value (c :: rest) (c :: filled) := by
  have standing {name : String} {front : List Char} (within : front <+: rest)
      (stands : Standing name (c :: front)) :
      Standing name front := by
    refine ⟨stands.1, ?_⟩
    rcases List.infix_cons_iff.mp stands.2 with starts | inside
    · exact absurd (starts.trans (List.cons_prefix_cons.mpr ⟨rfl, within⟩)) (plain name stands.1)
    · exact inside
  cases further with
  | bare none => exact .bare fun name stands => none name (standing List.prefix_rfl stands)
  | @placeholder before rest filled name none named further =>
    have first : ∀ other, ¬ Standing other (c :: before) :=
      fun other stands => none other (standing ⟨marked name ++ rest, by simp⟩ stands)
    exact .placeholder first named further

/-- Replacing the holes that are read fills the text. -/
theorem filled_pieces (value : String → List Char) (text : List Char) :
    Filled value text ((pieces text).flatMap (filledBy value)) := by
  induction text using reading with
  | nil =>
    rw [pieces]
    exact .bare not_standing_nil
  | placeholder name rest named ih =>
    rw [pieces_placeholder named]
    exact @Filled.placeholder value [] rest _ name not_standing_nil named ih
  | cons c rest plain ih =>
    rw [pieces_cons plain]
    exact .cons plain ih

private theorem mem_holes_of_mem {name : String} {ps : List Piece} (member : .hole name ∈ ps) :
    name ∈ holes ps := by
  obtain ⟨before, after, rfl⟩ := List.append_of_mem member
  rw [holes_append]
  exact List.mem_append_right _ List.mem_cons_self

/-- What fills a hole: the text of the parameter of its name. -/
def valueOf (text : α → Option String) (params : Keyed α) (name : String) : List Char :=
  (((Keyed.get? params name).bind text).getD "").toList

/-- There is a parameter of the name, and no text for it. -/
def Unwritten (text : α → Option String) (params : Keyed α) (name : String) : Prop :=
  ∃ v, Keyed.get? params name = some v ∧ text v = none

/-- Other holes are filled as before when a parameter is taken away. -/
theorem filledBy_erase {text : α → Option String} {ps : List Piece} {params : Keyed α} {name : String}
    (fresh : name ∉ holes ps) : ps.flatMap (filledBy (valueOf text (Keyed.erase params name))) =
      ps.flatMap (filledBy (valueOf text params)) := by
  refine List.flatMap_congr fun piece member => ?_
  cases piece with
  | text c => rfl
  | hole other =>
    have different : other ≠ name := fun same => fresh (same ▸ mem_holes_of_mem member)
    rw [filledBy, filledBy, valueOf, valueOf, Keyed.get?_erase params different]

/-- What is left without a text when a parameter is taken away was without one before. -/
theorem Unwritten.of_erase {text : α → Option String} {params : Keyed α} {name other : String}
    (unwritten : Unwritten text (Keyed.erase params name) other) : Unwritten text params other := by
  obtain ⟨v, found, unshown⟩ := unwritten
  have different : other ≠ name := by
    rintro rfl
    exact nomatch (Keyed.get?_erase_self params other).symm.trans found
  exact ⟨v, Keyed.get?_erase params different ▸ found, unshown⟩

theorem Unwritten.erase {text : α → Option String} {params : Keyed α} {name other : String}
    (unwritten : Unwritten text params other) (different : other ≠ name) :
    Unwritten text (Keyed.erase params name) other := by
  obtain ⟨v, found, unshown⟩ := unwritten
  exact ⟨v, (Keyed.get?_erase params different).trans found, unshown⟩

/-- A parameter that has a text fills the hole of its name. -/
theorem valueOf_of_shown {text : α → Option String} {params : Keyed α} {name shown : String} {v : α}
    (found : Keyed.get? params name = some v) (shows : text v = some shown) :
    valueOf text params name = shown.toList := by
  rw [valueOf, found, Option.bind_some, shows]
  rfl

private theorem not_unwritten {text : α → Option String} {params : Keyed α} {name shown : String} {v : α}
    (found : Keyed.get? params name = some v) (shows : text v = some shown) :
    ¬ Unwritten text params name := by
  rintro ⟨other, there, unshown⟩
  obtain rfl := Option.some.inj (found.symm.trans there)
  rw [shows] at unshown
  cases unshown

/-- What filling gives: the text of the pieces, and the parameters without a hole. -/
def filling (text : α → Option String) (ps : List Piece) (params : Keyed α) : List Char × Keyed α :=
  (ps.flatMap (filledBy (valueOf text params)), params.filter fun entry => !(holes ps).contains entry.1)

private theorem fill_shown {text : α → Option String} {rest : List Piece} {params : Keyed α}
    {name shown : String} {v : α} (found : Keyed.get? params name = some v)
    (shows : text v = some shown) :
    fill text (.hole name :: rest) params =
      (fill text rest (Keyed.erase params name)).map fun filled =>
        (shown.toList ++ filled.1, filled.2) := by
  rw [fill, found]
  dsimp only
  rw [shows]
  cases fill text rest (Keyed.erase params name) with
  | ok filled => rfl
  | error fault => rfl

/-- The first hole takes its parameter, and the others are filled from what is left. -/
private theorem fill_hole {text : α → Option String} {rest : List Piece} {params : Keyed α}
    {name shown : String} {v : α} (found : Keyed.get? params name = some v)
    (shows : text v = some shown) (fresh : name ∉ holes rest)
    (filled : fill text rest (Keyed.erase params name) =
      .ok (filling text rest (Keyed.erase params name))) :
    fill text (.hole name :: rest) params = .ok (filling text (.hole name :: rest) params) := by
  have own : shown.toList ++ rest.flatMap (filledBy (valueOf text (Keyed.erase params name))) =
      (Piece.hole name :: rest).flatMap (filledBy (valueOf text params)) :=
    congrArg₂ List.append (valueOf_of_shown found shows).symm (filledBy_erase fresh)
  have left : (Keyed.erase params name).filter (fun entry => !(holes rest).contains entry.1) =
      params.filter fun entry => !(holes (.hole name :: rest)).contains entry.1 := by
    rw [Keyed.erase, List.filter_filter]
    refine List.filter_congr fun entry _ => ?_
    rw [holes, List.contains_cons, Bool.not_or, Bool.and_comm]
    rfl
  rw [fill_shown found shows, filled]
  exact congrArg Except.ok (Prod.ext own left)

/-- Filling succeeds if every hole has a parameter of its own that has a text, and leaves the
parameters without a hole. If not, it names a hole that has none, or one that is not the first of
its name, or one whose parameter has no text. -/
theorem fill_cases (text : α → Option String) (ps : List Piece) (params : Keyed α) :
    (fill text ps params = .ok (filling text ps params) ∧
      (∀ name ∈ holes ps, name ∈ Keyed.keys params ∧ ¬ Unwritten text params name) ∧ (holes ps).Nodup) ∨
    (∃ name ∈ holes ps, fill text ps params = .error (.missing name) ∧
      (name ∉ Keyed.keys params ∨ List.Duplicate name (holes ps))) ∨
    ∃ name ∈ holes ps, fill text ps params = .error (.unwritten name) ∧ Unwritten text params name := by
  induction ps generalizing params with
  | nil => exact .inl ⟨by simp [fill, holes, filling], by simp [holes], .nil⟩
  | cons piece rest ih =>
    cases piece with
    | text c =>
      rw [fill]
      rcases ih params with
        ⟨filled, written, once⟩ | ⟨name, member, missing, why⟩ | ⟨name, member, stopped, why⟩
      · refine .inl ⟨?_, written, once⟩
        rw [filled]
        rfl
      · refine .inr (.inl ⟨name, member, ?_, why⟩)
        rw [missing]
      · refine .inr (.inr ⟨name, member, ?_, why⟩)
        rw [stopped]
    | hole name =>
      cases found : Keyed.get? params name with
      | none =>
        refine .inr (.inl ⟨name, List.mem_cons_self, ?_, .inl (Keyed.get?_eq_none_iff.mp found)⟩)
        rw [fill, found]
      | some value =>
        cases shows : text value with
        | none =>
          refine .inr (.inr ⟨name, List.mem_cons_self, ?_, value, found, shows⟩)
          rw [fill, found]
          dsimp only
          rw [shows]
        | some shown =>
          rcases ih (Keyed.erase params name) with
            ⟨filled, written, once⟩ | ⟨other, member, missing, why⟩ | ⟨other, member, stopped, why⟩
          · have fresh : name ∉ holes rest :=
              fun again => (Keyed.mem_keys_erase.mp (written name again).1).2 rfl
            have known : name ∈ Keyed.keys params := Keyed.has_iff.mp (by rw [Keyed.has, found]; rfl)
            refine .inl ⟨fill_hole found shows fresh filled, ?_, List.nodup_cons.mpr ⟨fresh, once⟩⟩
            refine List.forall_mem_cons.mpr ⟨⟨known, not_unwritten found shows⟩, fun other member => ?_⟩
            obtain ⟨there, shown⟩ := written other member
            obtain ⟨there, different⟩ := Keyed.mem_keys_erase.mp there
            exact ⟨there, fun unwritten => shown (unwritten.erase different)⟩
          · refine .inr (.inl ⟨other, List.mem_cons_of_mem name member, ?_, ?_⟩)
            · rw [fill_shown found shows, missing]
              rfl
            · rcases why with unknown | again
              · by_cases same : other = name
                · exact .inr (same ▸ List.duplicate_cons_iff.mpr (.inl ⟨rfl, member⟩))
                · exact .inl fun known => unknown (Keyed.mem_keys_erase.mpr ⟨known, same⟩)
              · exact .inr (again.duplicate_cons name)
          · refine .inr (.inr ⟨other, List.mem_cons_of_mem name member, ?_, why.of_erase⟩)
            rw [fill_shown found shows, stopped]
            rfl

end Template

end ResourceGraph
