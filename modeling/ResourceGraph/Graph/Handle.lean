import ResourceGraph.Graph.Access
import ResourceGraph.Graph.Identity

/-!
Handles: everything that a caller can hold of a graph, and what can be done to it without knowing
what it is. A handle has attributes, may be gone through or asked for an item, and is compared with
others: as one and the same thing, as equal, and by its digest, which equal handles share.
-/

namespace ResourceGraph

/-- Something that a caller holds. -/
inductive Handle
  | datum (v : Datum)
  | built (b : Built)
  | response (r : Response)
  | enumeration (id : EnumerationId)
  /-- Elements that were taken one by one. -/
  | several (members : List Handle)
  /-- The references that a resource keeps, by name. -/
  | references (kept : Keyed Built)
  /-- The operation of a resource to load its data. -/
  | loading (resource : ResourceId)
  /-- The operation of a resource to invoke others by name. -/
  | invoking (resource : ResourceId)
  /-- Another operation, of a resource of the type. -/
  | operation (type name : String)
  | type (ref : TypeRef)
  | client (id : ClientId)

namespace Handle

/-- What an operation gave. -/
def ofOutcome : Outcome → Handle
  | .value v => .datum v
  | .built b => .built b
  | .response r => .response r
  | .enumeration id => .enumeration id

/-- An element of an enumeration. -/
def ofElement : Element → Handle
  | .value v => .datum v
  | .resource id => .built (.one id)
  | .response r => .response r

/-- What a name of a resource stands for. -/
def ofAttribute (id : ResourceId) (type name : String) : Attribute → Handle
  | .value v => .datum v
  | .client id => .client id
  | .type ref => .type ref
  | .references kept => .references kept
  | .load => .loading id
  | .invoke => .invoking id
  | .operation _ => .operation type name

/-- The handles are one and the same thing. Operations are made anew each time they are read. -/
def isSame : Handle → Handle → Bool
  | .built a, .built b => a == b
  | .enumeration a, .enumeration b => a == b
  | .datum a, .datum b => a == b || Value.identical a b
  | .client a, .client b => a == b
  | .type a, .type b => a == b
  | .response a, .response b => a == b
  | _, _ => false

/-- What the digest of a handle with a content of its own is made of. -/
inductive Content
  | resource (type : String) (members : List (String × Digest))
  | response (data params : Digest)
  | scalar (digest : Digest)
  deriving DecidableEq

end Handle

namespace Act

/-- The members of a list. Other handles are no lists. -/
def membersOf : Handle → Act (Option (List Handle))
  | .built (.several _ ids) => return some (ids.map fun id => .built (.one id))
  | .several members => return some members
  | .datum v => do
    match ← opened v with
    | .list items => return some (items.map .datum)
    | _ => return none
  | _ => return none

/-- What a handle that is no enumeration can be gone through by. -/
def elementsOf : Handle → Act (List Handle)
  | .datum v => do return (← parts v).map .datum
  | .references kept => return (Keyed.keys kept).map fun name => .datum (.str name)
  | h => do
    match ← membersOf h with
    | some members => return members
    | none => misuse .notIterable

/-- Elements that were taken, whether the end was met, and the failure that it was met by. -/
structure Taken where
  elements : List Handle
  atEnd : Bool
  failure : Option Failure := none

/-- Up to so many further elements of an enumeration, after those taken before, the last one first. -/
def takeFurther (id : EnumerationId) : Nat → List Handle → Act Taken
  | 0, done => return ⟨done.reverse, false, none⟩
  | count + 1, done => do
    match ← tryCatch (Except.ok <$> next id) (fun failure => return .error failure) with
    | .error failure => return ⟨done.reverse, false, some failure⟩
    | .ok none => return ⟨done.reverse, true, none⟩
    | .ok (some element) => takeFurther id count (.ofElement element :: done)

/-- Up to so many elements. An enumeration goes on where it was left; all else is gone through anew. -/
def take (h : Handle) (count : Nat) : Act Taken := do
  match h with
  | .enumeration id => takeFurther id count []
  | h => do
    let all ← elementsOf h
    return ⟨all.take count, decide (all.length < count), none⟩

/-- The item at a whole number, counted from the end where the number is negative. -/
def itemOf (h : Handle) (place : Int) : Act Handle := do
  match h with
  | .datum v => return .datum (← item v place)
  | .references _ => misuse .missingKey
  | h =>
    match ← membersOf h with
    | none => misuse .wrongType
    | some members =>
      match (Path.placeIn? members.length place).bind (members[·]?) with
      | some member => return member
      | none => misuse .outOfRange

/-- The resource that a handle is. Others have nothing of what resources have. -/
def resourceOf : Handle → Act ResourceId
  | .built (.one id) => return id
  | _ => misuse .unknownAttribute

/-- The resource whose data is to be set. -/
def ownerOf : Handle → Act ResourceId
  | .response _ => misuse .unchangeable
  | h => resourceOf h

/-- Reads an attribute. -/
def attributeOf (h : Handle) (name : String) : Act Handle := do
  match h, name with
  | .response r, "data" => return .datum r.data
  | .response r, "params" => return .datum r.params
  | .type ref, "name" => return .datum (.str ref.name)
  | h, name => do
    let id ← resourceOf h
    let r ← resource id
    return .ofAttribute id r.type.name name (← readAttribute id name)

/-- The handle has an attribute of this name. -/
def hasAttributeOf (h : Handle) (name : String) : Act Bool :=
  isThere (attributeOf h name)

/-- Calls an attribute. -/
def callOn (h : Handle) (name : String) (unnamed : List Json) (named : Keyed Json) : Act Handle := do
  match h with
  | .built (.one id) => return .ofOutcome (← callNamed id name unnamed named)
  | h => do
    let _ ← attributeOf h name
    misuse .notCallable

/-- Equality of two handles that are no lists. -/
def equalSingles : Handle → Handle → Act Bool
  | .built (.one a), .built (.one b) => do equal (← resource a) (← resource b)
  | .datum a, .datum b => same a b
  | .response a, .response b => same (.list [a.data, a.params]) (.list [b.data, b.params])
  | .loading a, .loading b => return a == b
  | .invoking a, .invoking b => return a == b
  | a, b => return a.isSame b

/-- Equality of two handles. Lists are equal when their members are, one by one. -/
def equalHandles (a b : Handle) : Act Bool := do
  match a, b with
  | .datum x, .datum y => same x y
  | a, b =>
    match ← membersOf a, ← membersOf b with
    | some xs, some ys =>
      if xs.length != ys.length then return false
      else (xs.zip ys).allM fun (x, y) => do return x.isSame y || (← equalSingles x y)
    | _, _ => equalSingles a b

/-- Equality of two handles that may be known to be one. A datum can still differ from itself, as
the undefined number does. -/
def equalHeld (isOne : Bool) (a b : Handle) : Act Bool :=
  match a with
  | .datum _ => equalHandles a b
  | a => if isOne then return true else equalHandles a b

/-- The digest of a scalar. Containers have none. -/
def scalarDigest (v : Datum) : Act Digest := do
  if (← opened v).isContainer then misuse .unhashable else return .ofScalar v

/-- The content that the digest of a handle is made of. A handle without such content has a digest
of its own. -/
def contentOf? : Handle → Act (Option Handle.Content)
  | .built (.one id) => do
    let (type, members) := (← key (← resource id)).digest
    return some (.resource type members)
  | .built (.several _ _) | .several _ | .references _ => misuse .unhashable
  | .datum v => do return some (.scalar (← scalarDigest v))
  | .response r => do return some (.response (← scalarDigest r.data) (← scalarDigest r.params))
  | _ => return none

/-- The handles have one digest. -/
def sameDigest (a b : Handle) : Act Bool := do
  match ← contentOf? a, ← contentOf? b with
  | some x, some y => return x == y
  | none, none => equalSingles a b
  | _, _ => return false

end Act

end ResourceGraph
