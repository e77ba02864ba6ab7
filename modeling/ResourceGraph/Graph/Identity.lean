import ResourceGraph.Graph.Basic

/-!
When two resources are the same thing. They are equal when their types have one name and their
identifiers are equal by content; the key they are found by in sets and maps is the name of the type
with the identifiers in declared order, and containers cannot be part of it. A key has a digest that
is the same for equal keys, and now and then for unequal ones.
-/

namespace ResourceGraph

/-- What the digest of a scalar is made of: numbers leave a remainder, and the empty text counts as
zero. -/
inductive Digest
  | null
  | remainder (n : Int)
  | text (s : String)
  | undefined
  | place (share : Share)
  deriving DecidableEq, Repr

namespace Digest

/-- Numbers are digested modulo this prime. -/
def modulus : Nat := Number.twoTo 61 - 1

/-- A remainder with its sign. Minus one is not used, and stands as minus two. -/
def signed (isNegative : Bool) (size : Nat) : Digest :=
  let n : Int := if isNegative then -Int.ofNat size else Int.ofNat size
  .remainder (if n == -1 then -2 else n)

/-- The digest of a number. A negative power of two is the positive one that is left of it, because
the sixty-first power leaves one. -/
def ofNum : Num → Digest
  | .int n => signed (n < 0) (n.natAbs % modulus)
  | .float x =>
    match Number.Binary.ofFloat x with
    | .undefined => .undefined
    | .infinite isNegative => signed isNegative 314159
    | .finite isNegative m e =>
      signed isNegative (m % modulus * Number.twoTo (Int.emod e 61).toNat % modulus)

/-- The digest of a scalar. -/
def ofScalar (v : Datum) : Digest :=
  match v with
  | .shared share => .place share
  | .str s => if s.isEmpty then .remainder 0 else .text s
  | v =>
    match Value.countsAs? v with
    | some n => ofNum n
    | none => .null

end Digest

/-- The key of a resource in sets and maps. -/
structure ResourceKey where
  type : String
  members : Keyed Datum
  deriving DecidableEq

namespace ResourceKey

/-- Two keys are the same key. -/
def same (a b : ResourceKey) : Bool :=
  a.type == b.type && a.members.length == b.members.length &&
    (a.members.zip b.members).all fun (x, y) => x.1 == y.1 && Value.sameKey x.2 y.2

/-- The digest of a key. -/
def digest (k : ResourceKey) : String × List (String × Digest) :=
  (k.type, k.members.map fun (name, v) => (name, Digest.ofScalar v))

end ResourceKey

namespace Act

/-- The identifiers of a resource as trees. -/
def shownIdentifiers (r : Resource) : Act (Keyed Json) :=
  r.identifiers.mapM fun (name, v) => do return (name, ← tree v)

/-- The resource as messages show it. -/
def display (r : Resource) : Act String := do
  let shown ← (← shownIdentifiers r).mapM fun (name, v) => do
    return name ++ "=" ++ (← lift (written v v.display))
  return r.type.name ++ "(" ++ ", ".intercalate shown ++ ")"

/-- The datums are equal by content. -/
def same (a b : Datum) : Act Bool := do
  match (← get).store.same? a b with
  | some outcome => return outcome
  | none => misuse .endless

/-- The resources are equal. -/
def equal (a b : Resource) : Act Bool := do
  if a.type.name != b.type.name then return false
  else same (.object a.identifiers) (.object b.identifiers)

/-- The key of a resource. -/
def key (r : Resource) : Act ResourceKey := do
  let store := (← get).store
  if r.identifiers.any fun entry => (store.opened entry.2).isContainer then misuse .unhashable
  else return ⟨r.type.name, r.identifiers⟩

end Act

end ResourceGraph
