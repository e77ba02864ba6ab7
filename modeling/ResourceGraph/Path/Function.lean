import ResourceGraph.Json.Writer
import ResourceGraph.Number.Reading
import ResourceGraph.Sorting
import ResourceGraph.Store.Tree
import ResourceGraph.Value.Entries

/-!
The functions that path expressions may call. Each has a signature that fixes how many arguments it
takes and of which kinds; its arguments are checked against it before anything is computed.
-/

namespace ResourceGraph.Path

/-- Why an expression has no result. -/
inductive Fault
  | unknownFunction
  | argumentCount
  | tooFewArguments
  | argumentKind
  /-- A number was ordered against a text. -/
  | mixedOrder
  /-- Something that is no text was searched for in a text. -/
  | searchKind
  /-- A query was to be read as a number. -/
  | queryAsNumber
  | zeroStep
  | notEntries
  | unevenEntry
  | tooLarge
  | undefinedNumber
  /-- A text was to be made of data that contains itself. -/
  | circularText
  /-- A whole number has more digits than are written. -/
  | numberTooLong
  /-- There is no end to the work, or none at the depth that is allowed. -/
  | endless
  deriving DecidableEq, Repr

/-- A question about data of the store, which may fail. What an answer builds is kept in the store. -/
abbrev Ask := ExceptT Fault (StateM Store)

namespace Ask

/-- There is no answer. -/
def fail {α : Type} (fault : Fault) : Ask α := throw fault

/-- What a datum is, looking through one share. -/
def opened (v : Datum) : Ask Datum := do return (← get).opened v

/-- A new container. -/
def build (content : Datum) : Ask Datum := ExceptT.lift (Store.keep content)

/-- A new number. The undefined number is a thing of its own each time it is computed. -/
def number : Num → Ask Datum
  | .int n => return .int n
  | .float x => if x.isNaN then build (.float x) else return .float x

/-- The datums are equal by content. -/
def same (a b : Datum) : Ask Bool := do
  match (← get).same? a b with
  | some outcome => return outcome
  | none => fail .endless

end Ask

open Ask

/-- The kinds of arguments. -/
inductive Kind
  | boolean | array | object | null | string | number | query
  deriving DecidableEq, Repr

/-- A kind that an argument may have; an array may be bound to one kind of element. -/
inductive Allowed
  | plain (kind : Kind)
  | arrayOf (element : Kind)
  deriving DecidableEq, Repr

/-- How many arguments a function takes, and what each may be. An empty list allows everything; the
last argument may be repeated where `more` says so. -/
structure Signature where
  arguments : List (List Allowed)
  more : Bool := false

/-- The functions. -/
inductive Function
  | abs | avg | ceil | contains | endsWith | floor | join | keys | length | map | max | maxBy | merge
  | min | minBy | notNull | reverse | sort | sortBy | startsWith | sum | toArray | toNumber | toString
  | type | values
  deriving DecidableEq, Repr

namespace Function

/-- The functions under the names that expressions use. -/
def table : List (String × Function) :=
  [("abs", abs), ("avg", avg), ("ceil", ceil), ("contains", contains), ("ends_with", endsWith),
   ("floor", floor), ("join", join), ("keys", keys), ("length", length), ("map", map), ("max", max),
   ("max_by", maxBy), ("merge", merge), ("min", min), ("min_by", minBy), ("not_null", notNull),
   ("reverse", reverse), ("sort", sort), ("sort_by", sortBy), ("starts_with", startsWith),
   ("sum", sum), ("to_array", toArray), ("to_number", toNumber), ("to_string", toString),
   ("type", type), ("values", values)]

/-- The signature of a function. -/
def signature : Function → Signature
  | abs | ceil | floor => ⟨[[.plain .number]], false⟩
  | avg | sum => ⟨[[.arrayOf .number]], false⟩
  | contains => ⟨[[.plain .array, .plain .string], []], false⟩
  | endsWith | startsWith => ⟨[[.plain .string], [.plain .string]], false⟩
  | join => ⟨[[.plain .string], [.arrayOf .string]], false⟩
  | keys | values => ⟨[[.plain .object]], false⟩
  | length => ⟨[[.plain .string, .plain .array, .plain .object]], false⟩
  | map => ⟨[[.plain .query], [.plain .array]], false⟩
  | max | min => ⟨[[.arrayOf .number, .arrayOf .string]], false⟩
  | maxBy | minBy | sortBy => ⟨[[.plain .array], [.plain .query]], false⟩
  | merge => ⟨[[.plain .object]], true⟩
  | notNull => ⟨[[]], true⟩
  | reverse => ⟨[[.plain .array, .plain .string]], false⟩
  | sort => ⟨[[.arrayOf .string, .arrayOf .number]], false⟩
  | toArray | toNumber | toString | type => ⟨[[]], false⟩

end Function

/-- The kind of an opened value. What is still a share is a query. -/
def Kind.of : Datum → Kind
  | .null => .null
  | .bool _ => .boolean
  | .int _ | .float _ => .number
  | .str _ => .string
  | .list _ => .array
  | .object _ | .table _ => .object
  | .shared _ => .query

/-- The kind an argument has, seen from the outside. -/
def Allowed.outer : Allowed → Kind
  | plain kind => kind
  | arrayOf _ => .array

/-- The kinds of element that the allowed arrays are bound to. -/
def elementKinds (allowed : List Allowed) : List Kind :=
  allowed.filterMap fun
    | .arrayOf element => some element
    | .plain _ => none

/-- The elements meet the element kinds: the only one, or the one that the first element has. -/
def elementsAllowed (kinds : List Kind) (elements : List Kind) : Bool :=
  match kinds, elements with
  | [], _ => true
  | [kind], _ => elements.all (· == kind)
  | _, [] => true
  | _, first :: _ => kinds.contains first && elements.all (· == first)

/-- One argument meets what is allowed for it. -/
def argumentAllowed (store : Store) (allowed : List Allowed) (argument : Datum) : Bool :=
  allowed.isEmpty ||
    let opened := store.opened argument
    allowed.any (·.outer == Kind.of opened) &&
      match opened with
      | .list items =>
        elementsAllowed (elementKinds allowed) (items.map fun item => Kind.of (store.opened item))
      | _ => true

/-- Checks the arguments against a signature. -/
def Signature.check (s : Signature) (store : Store) (arguments : List Datum) : Except Fault Unit :=
  if s.more && arguments.length < s.arguments.length then .error .tooFewArguments
  else if !s.more && arguments.length != s.arguments.length then .error .argumentCount
  else if (s.arguments.zip arguments).all fun (allowed, a) => argumentAllowed store allowed a then
    .ok ()
  else .error .argumentKind

/-- What values are ordered by: numbers among numbers, texts among texts. -/
inductive SortKey
  | number (n : Num)
  | text (s : String)

namespace SortKey

/-- The key that an opened number or text is. -/
def of? : Datum → Option SortKey
  | .str s => some (text s)
  | v => v.num?.map number

/-- The first key comes before the second. -/
def before : SortKey → SortKey → Except Fault Bool
  | number a, number b => .ok (a.below b)
  | text a, text b => .ok (a < b)
  | _, _ => .error .mixedOrder

/-- The first of two keys of one kind comes before the second. -/
def isBefore (a b : SortKey) : Bool :=
  match a.before b with
  | .ok outcome => outcome
  | .error _ => false

/-- The kinds of key agree. -/
def alike : SortKey → SortKey → Bool
  | number _, number _ | text _, text _ => true
  | _, _ => false

end SortKey

/-- The key that a query finds for an element. -/
def keyBy (ask : Datum → Ask Datum) (item : Datum) : Ask SortKey := do
  match SortKey.of? (← opened (← ask item)) with
  | some key => return key
  | none => fail .argumentKind

/-- The keys that a query finds for elements, all of the kind of the first, which is looked at
before the others. -/
def keysBy (look ask : Datum → Ask Datum) : List Datum → Ask (List (SortKey × Datum))
  | [] => return []
  | first :: rest => do
    let start ← keyBy look first
    let others ← rest.mapM fun item => do
      let key ← keyBy ask item
      if key.alike start then return (key, item) else fail .argumentKind
    return (start, first) :: others

/-- The first of the elements that no other one surpasses. -/
def bestBy (ask : Datum → Ask Datum) (surpasses : SortKey → SortKey → Except Fault Bool) :
    List Datum → Ask Datum
  | [] => return .null
  | first :: rest => do
    let start ← keyBy ask first
    let (best, _) ← rest.foldlM (fun (best, bestKey) item => do
      let key ← keyBy ask item
      match surpasses key bestKey with
      | .ok true => return (item, key)
      | .ok false => return (best, bestKey)
      | .error fault => fail fault) (first, start)
    return best

/-- The elements in the order of their keys; equal keys keep their places. -/
def sorted (keyed : List (SortKey × Datum)) : List Datum :=
  (Sorting.sort (fun a b => a.1.isBefore b.1) keyed).map Prod.snd

/-- The whole number that a rounding of a float gives. -/
def rounded (round : Number.Binary → Option Int) (x : Float) : Ask Datum :=
  let binary := Number.Binary.ofFloat x
  match round binary with
  | some n => return .int n
  | none => fail (if binary matches .undefined then .undefinedNumber else .tooLarge)

/-- The smallest whole number not below a finite number. -/
def ceiling? : Number.Binary → Option Int
  | .finite negative m e => (Number.Binary.finite (!negative) m e).floor?.map (- ·)
  | other => other.floor?

/-- The number that a text writes, whole if it can be. -/
def numberOfText (s : String) : Ask Datum :=
  match Number.readInt? s with
  | some n => return .int n
  | none =>
    match Number.readFloat? s with
    | some x => number (.float x)
    | none => return .null

/-- The numbers among the elements. -/
def numbersOf (items : List Datum) : Ask (List Num) := do
  let store ← get
  return items.filterMap fun item => (store.opened item).num?

/-- The sum of numbers. -/
def sumOf (items : List Datum) : Ask Num := do
  match Num.sum? 0 (← numbersOf items) with
  | some total => return total
  | none => fail .tooLarge

/-- The texts among the elements. -/
def textsOf (items : List Datum) : Ask (List String) := do
  let store ← get
  return items.filterMap fun item =>
    match store.opened item with
    | .str s => some s
    | _ => none

/-- One text occurs in another. -/
def occursIn (part whole : List Char) : Bool :=
  match whole with
  | [] => part.isEmpty
  | _ :: rest => part.isPrefixOf whole || occursIn part rest

/-- The element is in the list: as the thing it is, or as one that is equal. -/
def isAmong (sought : Datum) : List Datum → Ask Bool
  | [] => return false
  | item :: rest => do
    match (← get).alike? item sought with
    | some true => return true
    | some false => isAmong sought rest
    | none => fail .endless

/-- The name of a value's kind; a query has none. -/
def kindName : Datum → Datum
  | .null => .str "null"
  | .bool _ => .str "boolean"
  | .int _ | .float _ => .str "number"
  | .str _ => .str "string"
  | .list _ => .str "array"
  | .object _ | .table _ => .str "object"
  | .shared _ => .null

/-- The JSON text of a datum. -/
def textOf (v : Datum) : Ask Datum := do
  match (← get).tree? v with
  | none => fail .circularText
  | some tree =>
    if tree.isTooLong then fail .numberTooLong
    else return .str (Json.write true tree)

/-- The object that the entries of the values make, later ones winning. -/
def mergeAll (entries : List (Datum × Datum)) : List Datum → Ask Datum
  | [] => build (Value.ofEntries entries)
  | v :: rest => do
    match Value.entries (← get).opened v with
    | .ok found => mergeAll (entries ++ found) rest
    | .error .notAPair => fail .unevenEntry
    | .error .notASequence => fail .notEntries

/-- What a function of one value gives. -/
def Function.applyOne (f : Function) (v : Datum) : Ask Datum := do
  match f, ← opened v with
  | .abs, .int n => return .int n.natAbs
  | .abs, .float x => number (.float x.abs)
  | .ceil, .float x => rounded ceiling? x
  | .floor, .float x => rounded Number.Binary.floor? x
  | .ceil, _ | .floor, _ => return v
  | .avg, .list [] => return .null
  | .avg, .list items =>
    match (← sumOf items).share? items.length with
    | some x => number (.float x)
    | none => fail .tooLarge
  | .sum, .list items => number (← sumOf items)
  | .keys, content =>
    match content.entries? with
    | some entries => build (.list (entries.map Prod.fst))
    | none => fail .argumentKind
  | .values, content =>
    match content.entries? with
    | some entries => build (.list (entries.map Prod.snd))
    | none => fail .argumentKind
  | .length, .str s => return .int s.length
  | .length, .list items => return .int items.length
  | .length, .object fields => return .int fields.length
  | .length, .table entries => return .int entries.length
  | .max, .list items => bestBy pure (fun key best => best.before key) items
  | .min, .list items => bestBy pure SortKey.before items
  | .reverse, .list items => build (.list items.reverse)
  | .reverse, .str s => return .str (String.ofList s.toList.reverse)
  | .sort, .list items => build (.list (sorted (← keysBy pure pure items)))
  | .toArray, .list _ => return v
  | .toArray, _ => build (.list [v])
  | .toNumber, .int _ | .toNumber, .float _ => return v
  | .toNumber, .str s => numberOfText s
  | .toNumber, .shared _ => fail .queryAsNumber
  | .toNumber, _ => return .null
  | .toString, .str s => return .str s
  | .toString, _ => textOf v
  | .type, content => return kindName content
  | _, _ => fail .argumentKind

/-- What a function of two values gives. -/
def Function.applyTwo (f : Function) (v w : Datum) : Ask Datum := do
  match f, ← opened v, ← opened w with
  | .contains, .str s, .str part => return .bool (occursIn part.toList s.toList)
  | .contains, .str _, _ => fail .searchKind
  | .contains, .list items, _ => return .bool (← isAmong w items)
  | .endsWith, .str s, .str part => return .bool (part.toList.isSuffixOf s.toList)
  | .startsWith, .str s, .str part => return .bool (part.toList.isPrefixOf s.toList)
  | .join, .str separator, .list items => return .str (separator.intercalate (← textsOf items))
  | _, _, _ => fail .argumentKind

/-- What a function of a list and a query gives, given how the query is asked so many steps inside
the call. -/
def Function.applyQuery (f : Function) (v : Datum) (ask : Nat → Datum → Ask Datum) : Ask Datum := do
  match f, ← opened v with
  | .map, .list items => build (.list (← items.mapM (ask 3)))
  | .maxBy, .list items => bestBy (ask 5) (fun key best => best.before key) items
  | .minBy, .list items => bestBy (ask 5) SortKey.before items
  | .sortBy, .list [] => return v
  | .sortBy, .list items => build (.list (sorted (← keysBy (ask 3) (ask 4) items)))
  | _, _ => fail .argumentKind

/-- The first argument that is not null. -/
def firstValue : List Datum → Datum
  | [] => .null
  | .null :: rest => firstValue rest
  | v :: _ => v

/-- The query that a datum is. -/
def queryOf (v : Datum) : Ask Expr := do
  match v with
  | .shared share =>
    match (← get).cell? share with
    | some (.query asked) => return asked
    | _ => fail .argumentKind
  | _ => fail .argumentKind

/-- What a function gives for arguments that meet its signature, given how queries are asked so many
steps inside the call. -/
def Function.apply (eval : Nat → Expr → Datum → Ask Datum) (f : Function) (arguments : List Datum) :
    Ask Datum := do
  match f, arguments with
  | .merge, _ => mergeAll [] arguments
  | .notNull, _ => return firstValue arguments
  | .map, [query, v] => do
    let asked ← queryOf query
    f.applyQuery v fun steps => eval steps asked
  | .maxBy, [v, query] | .minBy, [v, query] | .sortBy, [v, query] => do
    let asked ← queryOf query
    f.applyQuery v fun steps => eval steps asked
  | _, [v] => f.applyOne v
  | _, [v, w] => f.applyTwo v w
  | _, _ => fail .argumentKind

/-- Calls a function by name. -/
def callFunction (eval : Nat → Expr → Datum → Ask Datum) (name : String) (arguments : List Datum) :
    Ask Datum := do
  match Function.table.lookup name with
  | none => fail .unknownFunction
  | some f =>
    match f.signature.check (← get) arguments with
    | .ok () => f.apply eval arguments
    | .error fault => fail fault

end ResourceGraph.Path
