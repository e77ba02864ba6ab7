import Mathlib.Data.List.Basic
import Mathlib.Data.List.TakeDrop
import Mathlib.Data.List.TakeWhile
import ResourceGraph.Projection

/-!
The forms of targets. An expression is a target if, without a line break at its end, it has one of
five forms, and it has at most one of them. The address that is read off it tells its text again,
but for the way in which the digits of an index are written.
-/

namespace ResourceGraph

open Text

/-- One or more characters of a kind, and no others. -/
structure Text.Row (kind : Char → Bool) (cs : List Char) : Prop where
  full : cs ≠ []
  each : ∀ c ∈ cs, kind c = true

/-- The text does not start with a character of the kind. -/
def Text.Stops (kind : Char → Bool) (cs : List Char) : Prop := ∀ c ∈ cs.head?, kind c = false

namespace Address

/-- What an address is written as, with the digits of its index. -/
inductive WrittenAs : Address → List Char → List Char → Prop
  | key {name : List Char} (word : Row isWord name) : WrittenAs (.key (String.ofList name)) [] name
  | member {name inner : List Char} (word : Row isWord name) (inside : Row isWord inner) :
      WrittenAs (.member (String.ofList name) (String.ofList inner)) [] (name ++ '.' :: inner)
  | append {name : List Char} (word : Row isWord name) :
      WrittenAs (.append (String.ofList name)) [] (name ++ ['[', ']'])
  | elementMember {name index inner : List Char} (word : Row isWord name) (digits : Row isDigit index)
      (inside : Row isWord inner) :
      WrittenAs (.elementMember (String.ofList name) (digitsValue index) (String.ofList inner)) index
        (name ++ '[' :: (index ++ ']' :: '.' :: inner))
  | elementAppend {name index inner : List Char} (word : Row isWord name) (digits : Row isDigit index)
      (inside : Row isWord inner) :
      WrittenAs (.elementAppend (String.ofList name) (digitsValue index) (String.ofList inner)) index
        (name ++ '[' :: (index ++ ']' :: '.' :: (inner ++ ['[', ']'])))

/-- What stands after the first name of an address whose index is written with these digits. -/
def afterName (index : List Char) : Address → List Char
  | key _ => []
  | member _ inner => '.' :: inner.toList
  | append _ => ['[', ']']
  | elementMember _ _ inner => '[' :: (index ++ ']' :: '.' :: inner.toList)
  | elementAppend _ _ inner => '[' :: (index ++ ']' :: '.' :: (inner.toList ++ ['[', ']']))

/-- The text of an address whose index is written with these digits. -/
def text (index : List Char) (a : Address) : List Char := a.name.toList ++ a.afterName index

end Address

/-- The expression is the text, with or without a line break after it. -/
def Target.Expresses (expression : String) (cs : List Char) : Prop :=
  expression.toList = cs ∨ expression.toList = cs ++ ['\n']

/-- The expression writes the address, with these digits for its index. -/
def Target.Writes (expression : String) (a : Address) (index : List Char) : Prop :=
  ∃ cs, Target.Expresses expression cs ∧ a.WrittenAs index cs

/-! ## Cutting a text -/

namespace Text

variable {kind : Char → Bool} {cs front rest : List Char}

private theorem of_span (cut : cs.span kind = (front, rest)) :
    cs = front ++ rest ∧ (∀ c ∈ front, kind c = true) ∧ Stops kind rest := by
  rw [List.span_eq_takeWhile_dropWhile, Prod.mk.injEq] at cut
  obtain ⟨rfl, rfl⟩ := cut
  refine ⟨List.takeWhile_append_dropWhile.symm, fun c member => List.mem_takeWhile_imp member,
    fun c first => ?_⟩
  have stopped := List.head?_dropWhile_not kind cs
  rw [Option.mem_def.mp first] at stopped
  simpa using stopped

theorem Row.span (row : Row kind front) (stops : Stops kind rest) :
    (front ++ rest).span kind = (front, rest) := by
  have cut : rest.takeWhile kind = [] ∧ rest.dropWhile kind = rest := by
    cases rest with
    | nil => exact ⟨rfl, rfl⟩
    | cons c others =>
      have other : ¬ kind c = true := by simp [stops c rfl]
      exact ⟨List.takeWhile_cons_of_neg other, List.dropWhile_cons_of_neg other⟩
  rw [List.span_eq_takeWhile_dropWhile, List.takeWhile_append_of_pos row.each,
    List.dropWhile_append_of_pos row.each, cut.1, cut.2, List.append_nil]

/-- A text is cut in one way only. -/
theorem Row.unique {front' rest' : List Char} (row : Row kind front) (stops : Stops kind rest)
    (row' : Row kind front') (stops' : Stops kind rest') (same : front ++ rest = front' ++ rest') :
    front = front' ∧ rest = rest' := by
  have cuts := row.span stops
  rw [same, row'.span stops'] at cuts
  exact Prod.mk.inj cuts.symm

theorem Row.isEmpty (row : Row kind cs) : cs.isEmpty = false := by
  rw [List.isEmpty_eq_false_iff]
  exact row.full

theorem stops_nil : Stops kind [] := nofun

theorem stops_cons {c : Char} (other : kind c = false) : Stops kind (c :: cs) := by
  rintro _ ⟨⟩
  exact other

end Text

namespace Target

open Address

variable {name index cs cs' : List Char} {a a' : Address}

/-! ## Reading an address -/

private theorem written_of_readInner (word : Row isWord name) (digits : Row isDigit index)
    (known : readInner name index cs ≠ .error .unknownForm) :
    ∃ a : Address, a.WrittenAs index (name ++ '[' :: (index ++ ']' :: '.' :: cs)) := by
  unfold readInner splitName at known
  obtain ⟨inner, rest, cut⟩ : ∃ inner rest, cs.span isWord = (inner, rest) := ⟨_, _, rfl⟩
  rw [cut] at known
  obtain ⟨rfl, each, -⟩ := of_span cut
  dsimp only at known
  split at known
  · exact absurd rfl known
  · next full =>
    have inside : Row isWord inner := ⟨by simpa using full, each⟩
    split at known
    · exact absurd rfl known
    · next shape =>
      simp only [Bool.and_eq_true, Bool.not_eq_true', List.isEmpty_eq_false_iff, bne_iff_ne,
        not_and, not_not]
        at shape
      cases rest with
      | nil =>
        rw [List.append_nil]
        exact ⟨_, .elementMember word digits inside⟩
      | cons c others =>
        rw [shape nofun]
        exact ⟨_, .elementAppend word digits inside⟩

private theorem written_of_readAddress (known : readAddress cs ≠ .error .unknownForm) :
    ∃ (a : Address) (index : List Char), a.WrittenAs index cs := by
  unfold readAddress splitName at known
  obtain ⟨name, rest, cut⟩ : ∃ name rest, cs.span isWord = (name, rest) := ⟨_, _, rfl⟩
  rw [cut] at known
  obtain ⟨rfl, each, -⟩ := of_span cut
  dsimp only at known
  split at known
  · exact absurd rfl known
  · next full =>
    have word : Row isWord name := ⟨by simpa using full, each⟩
    split at known
    · rw [List.append_nil]
      exact ⟨_, _, .key word⟩
    · exact ⟨_, _, .append word⟩
    · next inner =>
      split at known
      · next named =>
        simp only [isName, Bool.and_eq_true, Bool.not_eq_true', List.isEmpty_eq_false_iff,
          List.all_eq_true]
          at named
        exact ⟨_, _, .member word ⟨named.1, named.2⟩⟩
      · exact absurd rfl known
    · next indexed _ =>
      obtain ⟨index, after, cut⟩ : ∃ index after, indexed.span isDigit = (index, after) := ⟨_, _, rfl⟩
      rw [cut] at known
      obtain ⟨rfl, each, -⟩ := of_span cut
      dsimp only at known
      split at known
      · split at known
        · exact absurd rfl known
        · next full =>
          have digits : Row isDigit index := ⟨by simpa using full, each⟩
          exact (written_of_readInner word digits known).imp fun a written => ⟨index, written⟩
      · exact absurd rfl known
    · exact absurd rfl known

private theorem readInner_of_row {rest inner : List Char} (name index : List Char)
    (inside : Row isWord inner) (shape : rest = [] ∨ rest = ['[', ']']) :
    readInner name index (inner ++ rest) =
      if Number.digitLimit < index.length then .error .indexTooLong
      else if rest.isEmpty then
        .ok (.elementMember (String.ofList name) (digitsValue index) (String.ofList inner))
      else .ok (.elementAppend (String.ofList name) (digitsValue index) (String.ofList inner)) := by
  have stops : Stops isWord rest := by
    rcases shape with rfl | rfl
    · exact stops_nil
    · exact stops_cons (by decide)
  unfold readInner splitName
  rw [inside.span stops]
  dsimp only
  rw [inside.isEmpty, if_neg Bool.false_ne_true, if_neg]
  rcases shape with rfl | rfl <;> decide

/-- The index of an element is what stands between the brackets. -/
theorem readAddress_of_index (word : Row isWord name) (digits : Row isDigit index) (inner : List Char) :
    readAddress (name ++ '[' :: (index ++ ']' :: '.' :: inner)) = readInner name index inner := by
  have cut : (index ++ ']' :: '.' :: inner).span isDigit = (index, ']' :: '.' :: inner) :=
    digits.span (stops_cons (by decide))
  unfold readAddress splitName
  rw [word.span (stops_cons (by decide))]
  dsimp only
  rw [word.isEmpty, if_neg Bool.false_ne_true]
  split
  · next same => cases same
  · next same =>
    have lengths := congrArg List.length same
    simp at lengths
    omega
  · next same => cases same
  · next indexed _ same =>
    rw [← (List.cons.inj same).2, cut]
    dsimp only
    rw [digits.isEmpty]
    rfl
  · next other => exact absurd rfl (other _)

/-- Whatever is written as an address is read as that address, unless its index is too long. -/
theorem readAddress_of_written (written : a.WrittenAs index cs) :
    readAddress cs = if Number.digitLimit < index.length then .error .indexTooLong else .ok a := by
  cases written with
  | key word =>
    have cut := word.span stops_nil
    rw [List.append_nil] at cut
    rw [readAddress, splitName, cut]
    dsimp only
    rw [word.isEmpty]
    rfl
  | append word =>
    rw [readAddress, splitName, word.span (stops_cons (by decide))]
    dsimp only
    rw [word.isEmpty]
    rfl
  | @member name inner word inside =>
    have named : isName inner = true := by
      rw [isName, inside.isEmpty, List.all_eq_true.mpr inside.each]
      rfl
    rw [readAddress, splitName, word.span (stops_cons (by decide))]
    dsimp only
    rw [word.isEmpty]
    exact if_pos named
  | @elementMember name index inner word digits inside =>
    have read := readInner_of_row name index inside (.inl rfl)
    rw [List.append_nil] at read
    exact (readAddress_of_index word digits _).trans read
  | elementAppend word digits inside =>
    exact (readAddress_of_index word digits _).trans (readInner_of_row _ _ inside (.inr rfl))

end Target

/-! ## One form for a text -/

namespace Address

variable {a a' : Address} {index index' cs : List Char}

private theorem stops_afterName (a : Address) (index : List Char) :
    Stops isWord (a.afterName index) := by
  cases a with
  | key name => exact stops_nil
  | member name inner => exact stops_cons (by decide)
  | append name | elementMember name place inner | elementAppend name place inner =>
    exact stops_cons (by decide)

/-- An address and the digits of its index tell the text that it is written as. -/
theorem WrittenAs.text_eq (written : a.WrittenAs index cs) : cs = a.text index := by
  cases written <;> simp [text, Address.name, afterName]

theorem WrittenAs.word (written : a.WrittenAs index cs) : Row isWord a.name.toList := by
  cases written <;> simpa only [Address.name, String.toList_ofList]

/-- What stands after the index and its dot, and the index itself, are told by what stands after the
name. -/
theorem index_unique {rest rest' : List Char} (digits : Row isDigit index) (digits' : Row isDigit index')
    (same : '[' :: (index ++ ']' :: '.' :: rest) = '[' :: (index' ++ ']' :: '.' :: rest')) :
    index = index' ∧ rest = rest' := by
  obtain ⟨indices, rests⟩ := digits.unique (stops_cons (by decide)) digits' (stops_cons (by decide))
    (List.cons.inj same).2
  exact ⟨indices, by simpa using rests⟩

private theorem ne_brackets (index rest : List Char) :
    '[' :: (index ++ ']' :: '.' :: rest) ≠ ['[', ']'] := by
  intro same
  have lengths := congrArg List.length same
  simp at lengths
  omega

/-- A name is no name with brackets after it. -/
theorem word_ne_append {inner : List Char} (inside : Row isWord inner) (front : List Char) :
    inner ≠ front ++ ['[', ']'] := by
  rintro rfl
  exact absurd (inside.each '[' (by simp)) (by decide)

/-- No text has two forms, and none has one of them in two ways. -/
theorem WrittenAs.unique (written : a.WrittenAs index cs) (written' : a'.WrittenAs index' cs) :
    a = a' ∧ index = index' := by
  obtain ⟨names, after⟩ :=
    written.word.unique (stops_afterName a index) written'.word (stops_afterName a' index')
    (written.text_eq.symm.trans written'.text_eq)
  rw [String.toList_inj] at names
  generalize cs = text at written'
  cases written with
  | key word => cases written' <;> simp_all [afterName, Address.name]
  | member word inside => cases written' <;> simp_all [afterName, Address.name]
  | append word =>
    cases written' with
    | key | member | append => simp_all [afterName, Address.name]
    | elementMember | elementAppend => exact absurd after.symm (ne_brackets index' _)
  | elementMember word digits inside =>
    cases written' with
    | key | member => simp [afterName] at after
    | append => exact absurd after (ne_brackets index _)
    | elementMember _ digits' _ =>
      obtain ⟨rfl, inners⟩ := index_unique digits digits' after
      simp_all [Address.name]
    | elementAppend _ digits' _ =>
      obtain ⟨rfl, inners⟩ := index_unique digits digits' after
      simp only [String.toList_ofList] at inners
      exact absurd inners (word_ne_append inside _)
  | elementAppend word digits inside =>
    cases written' with
    | key | member => simp [afterName] at after
    | append => exact absurd after (ne_brackets index _)
    | elementMember _ digits' inside' =>
      obtain ⟨rfl, inners⟩ := index_unique digits digits' after
      simp only [String.toList_ofList] at inners
      exact absurd inners.symm (word_ne_append inside' _)
    | elementAppend _ digits' _ =>
      obtain ⟨rfl, inners⟩ := index_unique digits digits' after
      simp_all [Address.name]

/-- No form has a line break in it. -/
theorem WrittenAs.unbroken (written : a.WrittenAs index cs) : '\n' ∉ cs := by
  have word {name : List Char} (row : Row isWord name) : '\n' ∉ name :=
    fun member => absurd (row.each _ member) (by decide)
  have digits {index : List Char} (row : Row isDigit index) : '\n' ∉ index :=
    fun member => absurd (row.each _ member) (by decide)
  cases written with
  | key name => exact word name
  | member name inside => simp [word name, word inside]
  | append name => simp [word name]
  | elementMember name row inside | elementAppend name row inside =>
    simp [word name, digits row, word inside]

end Address

/-! ## Reading an expression -/

namespace Target

variable {e : String} {a : Address} {index cs : List Char}

private theorem expresses_withoutLineBreak (e : String) : Expresses e (withoutLineBreak e.toList) := by
  unfold Expresses withoutLineBreak
  split
  · next last =>
    rw [beq_iff_eq] at last
    exact .inr (List.dropLast_append_getLast? _ last).symm
  · exact .inl rfl

theorem Expresses.withoutLineBreak (expresses : Expresses e cs) (unbroken : '\n' ∉ cs) :
    withoutLineBreak e.toList = cs := by
  rcases expresses with same | broken
  · have other : cs.getLast? ≠ some '\n' := fun last => unbroken (List.mem_of_getLast? last)
    rw [Target.withoutLineBreak, same, if_neg (by simpa using other)]
  · rw [Target.withoutLineBreak, broken, if_pos (by simp), List.dropLast_concat]

/-- What an expression writes is written as its text without a line break. -/
theorem Writes.written (writes : Writes e a index) :
    a.WrittenAs index (Target.withoutLineBreak e.toList) := by
  obtain ⟨cs, expresses, written⟩ := writes
  rwa [expresses.withoutLineBreak written.unbroken]

/-- An expression writes one address at most. -/
theorem Writes.unique {a' : Address} {index' : List Char} (writes : Writes e a index)
    (writes' : Writes e a' index') : a' = a ∧ index' = index :=
  writes'.written.unique writes.written

/-- What an expression writes tells the expression, up to a line break at its end. -/
theorem Writes.expresses (writes : Writes e a index) : Expresses e (a.text index) := by
  obtain ⟨cs, expresses, written⟩ := writes
  exact written.text_eq ▸ expresses

theorem read_of_writes (writes : Writes e a index) :
    read e = if Number.digitLimit < index.length then .error .indexTooLong else .ok ⟨e, a⟩ := by
  rw [read, readAddress_of_written writes.written]
  by_cases long : Number.digitLimit < index.length
  · rw [if_pos long, if_pos long]
  · rw [if_neg long, if_neg long]

/-- An expression that writes no address is refused for its form. -/
theorem read_of_writes_none (none : ∀ a index, ¬ Writes e a index) : read e = .error .unknownForm := by
  have refused : readAddress (Target.withoutLineBreak e.toList) = .error .unknownForm := by
    by_contra known
    obtain ⟨a, index, written⟩ := written_of_readAddress known
    exact none a index ⟨_, expresses_withoutLineBreak e, written⟩
  rw [read, refused]

end Target

namespace Projection

open Target

variable {e : String} {a : Address} {index : List Char}

private theorem readTarget_of_writes (writes : Writes e a index) :
    readTarget e = if Number.digitLimit < index.length then .error (.misuse .badNumber) else
      .ok ⟨e, a⟩ := by
  rw [readTarget, read_of_writes writes]
  by_cases long : Number.digitLimit < index.length
  · rw [if_pos long, if_pos long]
  · rw [if_neg long, if_neg long]

private theorem readTarget_of_writes_none (none : ∀ a index, ¬ Writes e a index) :
    readTarget e = .error (.definition (.invalidTarget e)) := by
  rw [readTarget, read_of_writes_none none]
  rfl

/-- How an expression is read: as the address it writes, as a number that is too long, or not at
all. -/
theorem readTarget_cases (e : String) :
    (∃ a index, Writes e a index ∧ index.length ≤ Number.digitLimit ∧ readTarget e = .ok ⟨e, a⟩) ∨
    (∃ a index, Writes e a index ∧ Number.digitLimit < index.length ∧
      readTarget e = .error (.misuse .badNumber)) ∨
    (∀ a index, ¬ Writes e a index) ∧ readTarget e = .error (.definition (.invalidTarget e)) := by
  by_cases form : ∃ a index, Writes e a index
  · obtain ⟨a, index, writes⟩ := form
    have read := readTarget_of_writes writes
    by_cases long : Number.digitLimit < index.length
    · rw [if_pos long] at read
      exact .inr (.inl ⟨a, index, writes, long, read⟩)
    · rw [if_neg long] at read
      exact .inl ⟨a, index, writes, Nat.le_of_not_lt long, read⟩
  · have none : ∀ a index, ¬ Writes e a index := fun a index writes => form ⟨a, index, writes⟩
    exact .inr (.inr ⟨none, readTarget_of_writes_none none⟩)

/-- **What is a target.** An expression is read as a target exactly if it has one of the five forms,
up to a line break at its end, and the address is the one that is written. It has one form at most,
in one way, and the address with the digits of its index tells the expression. An index with more
digits than can be read fails as a number, and whatever has no form is refused. -/
theorem readTarget_by_form (e : String) :
    (∀ t, readTarget e = .ok t ↔
      t.expression = e ∧ ∃ index, Writes e t.address index ∧ index.length ≤ Number.digitLimit) ∧
    (readTarget e = .error (.misuse .badNumber) ↔
      ∃ a index, Writes e a index ∧ Number.digitLimit < index.length) ∧
    (readTarget e = .error (.definition (.invalidTarget e)) ↔ ∀ a index, ¬ Writes e a index) ∧
    ∀ a index, Writes e a index →
      Expresses e (a.text index) ∧ ∀ a' index', Writes e a' index' → a' = a ∧ index' = index := by
  refine ⟨fun t => ⟨fun read => ?_, ?_⟩, ⟨fun read => ?_, ?_⟩,
    ⟨fun read a index writes => ?_, readTarget_of_writes_none⟩,
    fun a index writes => ⟨writes.expresses, fun a' index' => writes.unique⟩⟩
  · rcases readTarget_cases e with ⟨a, index, writes, short, same⟩ | ⟨_, _, _, _, same⟩ | ⟨_, same⟩ <;>
      cases same.symm.trans read
    exact ⟨rfl, index, writes, short⟩
  · rintro ⟨rfl, index, writes, short⟩
    rw [readTarget_of_writes writes, if_neg (Nat.not_lt.mpr short)]
  · rcases readTarget_cases e with ⟨_, _, _, _, same⟩ | ⟨a, index, writes, long, same⟩ | ⟨_, same⟩ <;>
      cases same.symm.trans read
    exact ⟨a, index, writes, long⟩
  · rintro ⟨a, index, writes, long⟩
    rw [readTarget_of_writes writes, if_pos long]
  · rw [readTarget_of_writes writes] at read
    split at read <;> cases read

/-- A target with a line break at its end, whose index is written in the digits of another script. -/
theorem readTarget_by_form_thai :
    Writes "Tags[๑๒].Key\n" (.elementMember "Tags" 12 "Key") ['๑', '๒'] ∧
      readTarget "Tags[๑๒].Key\n" = .ok ⟨"Tags[๑๒].Key\n", .elementMember "Tags" 12 "Key"⟩ := by
  have tags : Row isWord "Tags".toList := ⟨nofun, List.all_eq_true.mp (by decide)⟩
  have twelve : Row isDigit ['๑', '๒'] := ⟨nofun, List.all_eq_true.mp (by decide)⟩
  have key : Row isWord "Key".toList := ⟨nofun, List.all_eq_true.mp (by decide)⟩
  have writes : Writes "Tags[๑๒].Key\n" (.elementMember "Tags" 12 "Key") ['๑', '๒'] :=
    ⟨_, .inr rfl, .elementMember tags twelve key⟩
  exact ⟨writes, ((readTarget_by_form _).1 _).mpr ⟨rfl, _, writes, by decide⟩⟩

end Projection

end ResourceGraph
