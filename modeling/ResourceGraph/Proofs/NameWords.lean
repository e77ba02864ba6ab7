import ResourceGraph.Naming
import ResourceGraph.Proofs.LetterCase

/-!
Where the words of a name begin. A name is split twice from left to right: first where acronyms end,
the longest run of capitals being tried first, then at the capitals after small letters and digits.
What one match reads is out of reach for the next one, and the second search reads what the first
one wrote; still the two come to one rule, which looks at two neighbours and at the character that
follows them. The snake-case form of a name has no capital and no hyphen, and is its own snake-case
form.
-/

namespace ResourceGraph.Naming

open Text

variable {a b c : Char} {cs rest run written : List Char} {next : Option Char} {read : Nat}
  {opens : Char → Char → Option Char → Bool}

/-! ## The rule -/

/-- A capital after a small letter or a digit starts a word. -/
def startsWord (a b : Char) (_next : Option Char) : Bool := (isSmall a || isDigit a) && isCapital b

/-- A capital after a capital starts a word if a small letter follows: the acronym before it ends. -/
def endsAcronym (a b : Char) (next : Option Char) : Bool :=
  isCapital a && isCapital b && next.any isSmall

/-- A word begins with the second of two neighbours, before the character that follows them. -/
def opensWord (a b : Char) (next : Option Char) : Bool := startsWord a b next || endsAcronym a b next

/-- A text with an underscore between any two neighbours that a rule parts. -/
def parted (opens : Char → Char → Option Char → Bool) : List Char → List Char
  | a :: b :: rest =>
    if opens a b rest.head? then a :: '_' :: parted opens (b :: rest) else a :: parted opens (b :: rest)
  | cs => cs

theorem parted_cons_of_not (whole : ∀ b more, rest = b :: more → opens a b more.head? = false) :
    parted opens (a :: rest) = a :: parted opens rest := by
  cases rest with
  | nil => rfl
  | cons b rest => rw [parted, whole b rest rfl, if_neg Bool.false_ne_true]

private theorem exists_parted (opens : Char → Char → Option Char → Bool) (a : Char) (rest : List Char) :
    ∃ more, parted opens (a :: rest) = a :: more := by
  cases rest with
  | nil => exact ⟨[], rfl⟩
  | cons b rest =>
    rw [parted]
    split
    · exact ⟨_, rfl⟩
    · exact ⟨_, rfl⟩

/-- A text without capitals is one word. -/
theorem parted_of_no_capital (cs : List Char) (none : ∀ c ∈ cs, isCapital c = false) :
    parted opensWord cs = cs := by
  induction cs with
  | nil => rfl
  | cons a rest ih =>
    have further := (List.forall_mem_cons.mp none).2
    rw [parted_cons_of_not, ih further]
    rintro b more rfl
    simp [opensWord, startsWord, endsAcronym, further b List.mem_cons_self]

private theorem startsWord_of_isCapital (capital : isCapital a = true) :
    startsWord a b next = false := by
  simp [startsWord, isSmall_of_isCapital capital, isDigit_of_isCapital capital]

/-- An underscore at the end of an acronym hides no start of a word, and starts none. -/
theorem parted_parted (cs : List Char) :
    parted startsWord (parted endsAcronym cs) = parted opensWord cs := by
  induction cs with
  | nil => rfl
  | cons a rest ih =>
    cases rest with
    | nil => rfl
    | cons b rest =>
      obtain ⟨more, begins⟩ := exists_parted endsAcronym b rest
      rw [parted, parted]
      by_cases ends : endsAcronym a b rest.head? = true
      · have opens : opensWord a b rest.head? = true := by simp [opensWord, ends]
        rw [if_pos ends, if_pos opens, ← ih, begins, parted_cons_of_not, parted_cons_of_not]
        · rintro b more -
          simp [startsWord, show isSmall '_' = false by decide, show isDigit '_' = false by decide]
        · rintro b more same
          obtain ⟨rfl, -⟩ := List.cons.inj same
          simp [startsWord, show isCapital '_' = false by decide]
      · have same : opensWord a b rest.head? = startsWord a b more.head? := by
          simp [opensWord, startsWord, ends]
        rw [if_neg ends, same, ← ih, begins, parted]

/-! ## Acronyms -/

private theorem parted_cons_of_not_capital (other : isCapital a = false) (rest : List Char) :
    parted endsAcronym (a :: rest) = a :: parted endsAcronym rest := by
  refine parted_cons_of_not fun b more _ => ?_
  simp [endsAcronym, other]

private theorem parted_cons_of_next (ends : rest.head?.any isCapital = false) (a : Char) :
    parted endsAcronym (a :: rest) = a :: parted endsAcronym rest := by
  refine parted_cons_of_not ?_
  rintro b more rfl
  simp [endsAcronym, show isCapital b = false from ends]

/-- Of a run of capitals only the last one can start a word, and it does when there are others
before it and a small letter follows. -/
theorem parted_run (run : List Char) (capitals : ∀ d ∈ run, isCapital d = true)
    (capital : isCapital b = true) (after : List Char) :
    parted endsAcronym (run ++ b :: after) =
      run ++ (if !run.isEmpty && after.head?.any isSmall then ['_'] else []) ++
        parted endsAcronym (b :: after) := by
  induction run with
  | nil => rfl
  | cons a run ih =>
    obtain ⟨first, further⟩ := List.forall_mem_cons.mp capitals
    cases run with
    | nil =>
      have ends : endsAcronym a b after.head? = after.head?.any isSmall := by
        simp [endsAcronym, first, capital]
      rw [List.singleton_append, parted, ends]
      cases after.head?.any isSmall <;> rfl
    | cons d run =>
      -- What follows the first two capitals is a capital too.
      obtain ⟨e, upper, next⟩ : ∃ e, isCapital e = true ∧ (run ++ b :: after).head? = some e := by
        cases run with
        | nil => exact ⟨b, capital, rfl⟩
        | cons e run => exact ⟨e, further e (by simp), rfl⟩
      rw [List.cons_append, parted_cons_of_not, ih further]
      · rfl
      · intro x more same
        obtain ⟨rfl, rfl⟩ := List.cons.inj same
        simp [endsAcronym, next, isSmall_of_isCapital upper]

private theorem head?_dropWhile_isCapital (cs : List Char) :
    (cs.dropWhile isCapital).head?.any isCapital = false := by
  have stops := List.head?_dropWhile_not isCapital cs
  cases next : (cs.dropWhile isCapital).head? with
  | none => rfl
  | some d => simpa [next] using stops

/-- The run of capitals at the head of a text, with its last one apart. -/
theorem exists_run (capital : isCapital c = true) (rest : List Char) :
    ∃ run b, c :: rest.takeWhile isCapital = run ++ [b] ∧ (∀ d ∈ run, isCapital d = true) ∧
      isCapital b = true ∧
      c :: rest = run ++ b :: rest.dropWhile isCapital := by
  obtain ⟨run, b, split⟩ : ∃ run b, c :: rest.takeWhile isCapital = run ++ [b] :=
    ⟨_, _, (List.dropLast_concat_getLast (List.cons_ne_nil c _)).symm⟩
  have capitals : ∀ d ∈ run ++ [b], isCapital d = true :=
    split ▸ List.forall_mem_cons.mpr ⟨capital, List.all_eq_true.mp List.all_takeWhile⟩
  refine ⟨run, b, split, fun d member => capitals d (List.mem_append_left _ member),
    capitals b (by simp), ?_⟩
  calc c :: rest = c :: rest.takeWhile isCapital ++ rest.dropWhile isCapital := by
        rw [List.cons_append, List.takeWhile_append_dropWhile]
    _ = run ++ b :: rest.dropWhile isCapital := by rw [split, List.append_assoc, List.singleton_append]

private theorem splitAcronyms_eq_parted (cs : List Char) : splitAcronyms cs = parted endsAcronym cs := by
  induction cs using splitAcronyms.induct with
  | case1 =>
    rw [splitAcronyms]
    rfl
  | case2 c rest capital after ih =>
    obtain ⟨run, b, split, capitals, last, whole⟩ := exists_run capital rest
    have small : (after.head?.map isSmall).getD false = after.head?.any isSmall := by
      cases after.head? <;> rfl
    rw [splitAcronyms, if_pos capital, whole, parted_run run capitals last,
      parted_cons_of_next (head?_dropWhile_isCapital rest)]
    dsimp only
    rw [split, ih, small, List.dropLast_concat, List.getLast?_concat]
    cases run with
    | nil => simp [after]
    | cons a run => cases after.head?.any isSmall <;> simp [after]
  | case3 c rest other ih =>
    rw [splitAcronyms, if_neg other, ih, parted_cons_of_not_capital (Bool.eq_false_iff.mpr other)]

private theorem splitWords_eq_parted (cs : List Char) : splitWords cs = parted startsWord cs := by
  induction cs with
  | nil => rfl
  | cons a rest ih =>
    cases rest with
    | nil => rfl
    | cons b rest =>
      rw [splitWords, parted, ih]
      rfl

/-! ## Searching -/

/-- A search from left to right. Where something is found at the head of what is left, it is written
anew, and the search goes on behind all the characters that were read; elsewhere a character is
kept. -/
def replaced (found? : List Char → Option (List Char × Nat)) : List Char → List Char
  | [] => []
  | c :: rest =>
    match found? (c :: rest) with
    | some (written, read) => written ++ replaced found? (rest.drop (read - 1))
    | none => c :: replaced found? rest
termination_by cs => cs.length
decreasing_by
  · rw [List.length_drop, List.length_cons]
    omega
  · exact Nat.lt_succ_self _

/-- A run of capitals, one more capital and a small letter at the head of a text. The longest run is
tried first, and an underscore is written behind the run. -/
def acronym? (cs : List Char) : Option (List Char × Nat) :=
  (List.range (cs.takeWhile isCapital).length).reverse.findSome? fun n =>
    match cs.drop (n + 1) with
    | b :: c :: _ =>
      if isCapital b && isSmall c then some (cs.take (n + 1) ++ ['_', b, c], n + 3) else none
    | _ => none

/-- A small letter or a digit and a capital at the head of a text, with an underscore between them. -/
def word? : List Char → Option (List Char × Nat)
  | a :: b :: _ => if (isSmall a || isDigit a) && isCapital b then some ([a, '_', b], 2) else none
  | _ => none

/-- What is found as the end of an acronym, and what is written for it. -/
theorem of_acronym? (found : acronym? cs = some (written, read)) :
    ∃ run b c rest, run ≠ [] ∧ (∀ d ∈ run, isCapital d = true) ∧ isCapital b = true ∧ isSmall c = true ∧
      cs = run ++ b :: c :: rest ∧ written = run ++ ['_', b, c] ∧ read = run.length + 2 := by
  obtain ⟨n, within, found⟩ := List.exists_of_findSome?_eq_some found
  have short : n < (cs.takeWhile isCapital).length := by simpa using within
  have run : cs.take (n + 1) = (cs.takeWhile isCapital).take (n + 1) := by
    conv => left; rw [← List.takeWhile_append_dropWhile (p := isCapital) (l := cs)]
    exact List.take_append_of_le_length short
  have length : (cs.take (n + 1)).length = n + 1 := by
    rw [run, List.length_take]
    omega
  split at found
  · next b c rest left =>
    split at found
    · next classes =>
      obtain ⟨capital, small⟩ := Bool.and_eq_true_iff.mp classes
      obtain ⟨rfl, rfl⟩ := Prod.mk.inj (Option.some.inj found)
      refine ⟨cs.take (n + 1), b, c, rest, ?_, fun d member => ?_, capital, small, ?_, rfl, by omega⟩
      · exact List.ne_nil_of_length_pos (by omega)
      · exact List.all_eq_true.mp List.all_takeWhile d (List.mem_of_mem_take (run ▸ member))
      · rw [← left, List.take_append_drop]
    · cases found
  · cases found

/-- Where no end of an acronym is found, none is at the head. -/
theorem endsAcronym_of_acronym? (missing : acronym? (a :: b :: rest) = none) :
    endsAcronym a b rest.head? = false := by
  refine Bool.eq_false_iff.mpr fun ends => ?_
  simp only [endsAcronym, Bool.and_eq_true] at ends
  obtain ⟨⟨first, second⟩, next⟩ := ends
  cases rest with
  | nil => cases next
  | cons c rest =>
    have small : isSmall c = true := next
    -- The shortest run, of one capital.
    have tried := List.findSome?_eq_none_iff.mp missing 0 (by simp [first])
    simp [second, small] at tried

private theorem replaced_acronym? (cs : List Char) : replaced acronym? cs = parted endsAcronym cs := by
  induction cs using replaced.induct acronym? with
  | case1 =>
    rw [replaced]
    rfl
  | case2 c rest written read found ih =>
    obtain ⟨run, b, e, more, nonempty, capitals, capital, small, reads, rfl, rfl⟩ := of_acronym? found
    have left : rest.drop (run.length + 1) = more := by
      change (c :: rest).drop (run.length + 2) = more
      rw [reads]
      simp
    have ends : (e :: more).head?.any isCapital = false := isCapital_of_isSmall small
    rw [replaced, found]
    dsimp only
    rw [ih, reads, parted_run run capitals capital, parted_cons_of_next ends,
      parted_cons_of_not_capital (isCapital_of_isSmall small)]
    simp [nonempty, small, left]
  | case3 c rest missing ih =>
    rw [replaced, missing]
    dsimp only
    rw [ih, parted_cons_of_not]
    rintro b more rfl
    exact endsAcronym_of_acronym? missing

private theorem replaced_word? (cs : List Char) : replaced word? cs = parted startsWord cs := by
  induction cs using replaced.induct word? with
  | case1 =>
    rw [replaced]
    rfl
  | case2 a rest written read found ih =>
    rw [replaced, found]
    dsimp only
    rw [ih]
    cases rest with
    | nil => cases found
    | cons b rest =>
      rw [word?] at found
      split at found
      · next starts =>
        obtain ⟨rfl, rfl⟩ := Prod.mk.inj (Option.some.inj found)
        -- The capital that was read starts no further word itself.
        have capital : isCapital b = true := (Bool.and_eq_true_iff.mp starts).2
        have opens : startsWord a b rest.head? = true := starts
        rw [parted, if_pos opens, parted_cons_of_not fun _ _ _ => startsWord_of_isCapital capital]
        rfl
      · cases found
  | case3 a rest missing ih =>
    rw [replaced, missing]
    dsimp only
    rw [ih, parted_cons_of_not]
    rintro b more rfl
    refine Bool.eq_false_iff.mpr fun (starts : ((isSmall a || isDigit a) && isCapital b) = true) => ?_
    simp [word?, starts] at missing

/-! ## Names -/

/-- The last step of a name: hyphens become underscores, and letters small. -/
def finished (cs : List Char) : String :=
  lower (String.ofList (cs.map fun c => if c == '-' then '_' else c))

private theorem not_mem_finished (cs : List Char) : '-' ∉ (finished cs).toList := by
  intro member
  have there := mem_of_mem_lower member (by decide)
  rw [String.toList_ofList] at there
  obtain ⟨c, -, same⟩ := List.mem_map.mp there
  split at same
  · cases same
  · next other => exact other (beq_iff_eq.mpr same)

private theorem finished_finished (cs : List Char) : finished (finished cs).toList = finished cs := by
  have kept : ((finished cs).toList.map fun c => if c == '-' then '_' else c) =
      (finished cs).toList := by
    refine (List.map_congr_left fun c member => if_neg fun hyphen => ?_).trans (List.map_id' _)
    exact not_mem_finished cs (beq_iff_eq.mp hyphen ▸ member)
  rw [finished, kept, String.ofList_toList, finished, lower_lower]

private theorem snakeCase_eq_finished (name : String) :
    snakeCase name = finished (parted opensWord name.toList) := by
  rw [snakeCase, splitAcronyms_eq_parted, splitWords_eq_parted, parted_parted, finished, lower,
    String.toList_ofList]

/-- **Where a name is parted.** The snake-case form is what two searches leave, finished with
underscores and small letters. The two come to one rule: an underscore between two neighbours
exactly where the second one is a capital after a small letter or a digit, or after a capital and
before a small letter. So the form has no capital and no hyphen, and is its own snake-case form. -/
theorem snakeCase_by_neighbours (name : String) :
    snakeCase name = finished (replaced word? (replaced acronym? name.toList)) ∧
    snakeCase name = finished (parted opensWord name.toList) ∧
    (snakeCase name).toList.any isCapital = false ∧ '-' ∉ (snakeCase name).toList ∧
    snakeCase (snakeCase name) = snakeCase name := by
  have form := snakeCase_eq_finished name
  have small : ∀ c ∈ (snakeCase name).toList, isCapital c = false := by
    rw [form]
    exact fun c member => not_isCapital_of_mem_lower member
  refine ⟨?_, form, by simpa using small, form ▸ not_mem_finished _, ?_⟩
  · rw [replaced_acronym?, replaced_word?, parted_parted, form]
  · rw [snakeCase_eq_finished (snakeCase name), parted_of_no_capital _ small, form, finished_finished]

example : snakeCase "HTTPServer2Go-URLs" = "http_server2_go_ur_ls" := by cbv

end ResourceGraph.Naming
