import Mathlib.Data.List.TakeDrop
import ResourceGraph.Path.Search

/-!
Paths into one list. `Users[]` addresses the elements of a list, and `Users[].Name` a member of
each. A name that needs no quotes is read as one token up to the character that ends it, so that
such a path is read as a query that opens the list and asks every element for what is written behind
it.
-/

namespace ResourceGraph.Path

/-- A name that a path can hold without quotes. -/
def Bare (name : String) : Prop :=
  ∃ c cs, name.toList = c :: cs ∧ Token.startsName c = true ∧ ∀ d ∈ cs, Token.continuesName d = true

theorem bare_of_toList {name : String} {c : Char} {cs : List Char} (same : name.toList = c :: cs)
    (starts : Token.startsName c = true) (continues : cs.all Token.continuesName = true) : Bare name :=
  ⟨c, cs, same, starts, List.all_eq_true.mp continues⟩

/-- The path of the elements of a list, or of a member of each. -/
def ofElements (list : String) : Option String → String
  | none => list ++ "[]"
  | some member => list ++ "[]." ++ member

/-- What is asked of each element. -/
def partQuery : Option String → Expr
  | none => .current
  | some member => .field member

/-- The query that a path into a list is read as. -/
def elementsQuery (list : String) (part : Option String) : Expr :=
  .each (.flatten (.field list)) (partQuery part)

/-! ## Tokens -/

namespace Token

variable {c : Char} {cs rest : List Char} {done : List Token} {fuel : Nat}

private theorem single?_of_startsName (starts : startsName c = true) : single? c = none := by
  unfold single?
  split
  all_goals first
    | rfl
    | exact absurd starts (by decide)

private theorem isGap_of_startsName (starts : startsName c = true) : Json.isGap c = false := by
  by_contra gap
  simp only [Json.isGap, Bool.not_eq_false, Bool.or_eq_true, beq_iff_eq] at gap
  rcases gap with ((rfl | rfl) | rfl) | rfl
  all_goals exact absurd starts (by decide)

/-- Where a name starts, no shorter token does. -/
theorem next_of_startsName (starts : startsName c = true) (rest : List Char) :
    next (c :: rest) =
      .ok (some (.name (String.ofList (c :: rest.takeWhile continuesName)) false),
        rest.dropWhile continuesName) := by
  have long : next (c :: rest) = longer c rest := by
    unfold next
    split
    · next same => cases same
    case h_16 same =>
      cases same
      rw [single?_of_startsName starts]
    all_goals
      next same =>
        cases same
        exact absurd starts (by decide)
  rw [long, longer, isGap_of_startsName starts]
  simp [starts]

/-- A name is read up to the first character that does not go on with it. -/
theorem next_name (starts : startsName c = true) (continues : ∀ d ∈ cs, continuesName d = true)
    (stops : ∀ d ∈ rest.head?, continuesName d = false) :
    next (c :: (cs ++ rest)) = .ok (some (.name (String.ofList (c :: cs)) false), rest) := by
  rw [next_of_startsName starts, List.takeWhile_append_of_pos continues,
    List.dropWhile_append_of_pos continues]
  cases rest with
  | nil => simp
  | cons d rest =>
    have stop : ¬ continuesName d = true := by simp [stops d rfl]
    simp [stop]

private theorem scanFrom_name {name : String} (bare : Bare name)
    (stops : ∀ d ∈ rest.head?, continuesName d = false) :
    scanFrom (fuel + 1) done (name.toList ++ rest) = scanFrom fuel (.name name false :: done) rest := by
  obtain ⟨c, cs, spelt, starts, continues⟩ := bare
  have same : name = String.ofList (c :: cs) := by rw [← spelt, String.ofList_toList]
  rw [spelt, List.cons_append, scanFrom, next_name starts continues stops, same]
  · rfl
  · simp

/-- The tokens of a path into a list. -/
def ofPart : Option String → List Token
  | none => []
  | some member => [.dot, .name member false]

private theorem scan_ofElements {list : String} {part : Option String} (bare : Bare list)
    (parts : ∀ member ∈ part, Bare member) :
    scan (ofElements list part) = .ok (.name list false :: .flatten :: ofPart part) := by
  have named : ∀ name, Bare name → ∃ n, name.toList.length = n + 1 := by
    rintro name ⟨c, cs, spelt, -⟩
    exact ⟨cs.length, by simp [spelt]⟩
  obtain ⟨n, long⟩ := named list bare
  cases part with
  | none =>
    have spelt : (ofElements list none).toList = list.toList ++ ['[', ']'] := by
      simp [ofElements]
    rw [scan, spelt, List.length_append, long]
    change scanFrom (n + 2 + 1) _ _ = _
    rw [scanFrom_name bare (by simp; decide)]
    rfl
  | some member =>
    obtain ⟨m, longer⟩ := named member (parts member rfl)
    have spelt : (ofElements list (some member)).toList =
        list.toList ++ ('[' :: ']' :: '.' :: (member.toList ++ [])) := by
      simp [ofElements]
    have enough : (list.toList ++ '[' :: ']' :: '.' :: (member.toList ++ [])).length =
        n + m + 1 + 1 + 1 + 1 + 1 := by
      simp only [List.length_append, List.length_cons, List.length_nil, long, longer]
      omega
    have after : ∀ before, scanFrom (n + m + 1 + 1 + 1 + 1) before
        ('[' :: ']' :: '.' :: (member.toList ++ [])) =
        scanFrom (n + m + 1 + 1) (.dot :: .flatten :: before) (member.toList ++ []) := fun _ => rfl
    rw [scan, spelt, enough, scanFrom_name bare (by simp; decide), after,
      scanFrom_name (parts member rfl) (by simp)]
    rfl

end Token

/-! ## Queries -/

theorem compile_ofElements {list : String} {part : Option String} (bare : Bare list)
    (parts : ∀ member ∈ part, Bare member) :
    compile (ofElements list part) = .ok (elementsQuery list part) := by
  have read : Expr.ofText (ofElements list part) = .ok (elementsQuery list part) := by
    rw [Expr.ofText, Token.scan_ofElements bare parts]
    cases part with
    | none => cbv
    | some member => cbv
  rw [compile, read]

/-- A path into a list is no short form of the whole value. -/
theorem ofElements_ne_whole {list : String} {part : Option String} (bare : Bare list) :
    ofElements list part ≠ whole := by
  obtain ⟨c, cs, spelt, starts, -⟩ := bare
  intro same
  have chars := congrArg String.toList same
  cases part <;> simp [ofElements, whole, spelt] at chars

theorem isPlural_ofElements (list : String) (part : Option String) :
    isPlural (ofElements list part) = true := by
  cases part <;> simp [isPlural, ofElements]

/-- A path tells which part it asks for. -/
theorem ofElements_injective {list : String} {part other : Option String}
    (same : ofElements list part = ofElements list other) : part = other := by
  have chars := congrArg String.toList same
  cases part <;> cases other <;> simp [ofElements, String.toList_inj] at chars ⊢
  exact chars

end ResourceGraph.Path
