import ResourceGraph.Json.Reader
import ResourceGraph.Path.Function
import ResourceGraph.Target.Write
import ResourceGraph.Value.Display

/-!
Failures, as causes. Definition faults arise while a document is compiled or a component is wired;
caller faults when a resource is made or an operation called wrongly; client errors come from an
interface that answers with an error. Each cause that is this library's own has a text, given in one
place.
-/

namespace ResourceGraph

open Text

/-- What a definition, or a component made by hand, has wrong. -/
inductive DefinitionFault
  | invalidPath (shown : String)
  | invalidTarget (expression : String)
  | unknownParamSource (shown : String)
  | invalidInteger (shown : String)
  | invalidBoolean (shown : String)
  | readsNoResource (target : String)
  | unknownIdentifierSource (shown : String)
  | needsResponse (kind target : String)
  | missingOption (option : String)
  | missingPart (part kind : String)
  | unknownTargets (type : String) (targets declared : List String)
  | ambiguousBuilder (type : String) (uncovered : List String)
  | singularEnumeration
  | duplicateIdentifier (type name : String)
  | reservedIdentifier (type name : String)
  | notALoad (kind : String)
  | secondLoad (type : String)
  | duplicateOperation (type name : String)
  | shadowingOperation (type name : String)
  | frozen (type : String)
  | schema (findings : Nat)
  | unnamedType (owner rule : String)
  | unknownType (owner rule type : String)
  | unknownRequestIdentifier (owner operation identifier : String)
  | unknownSourceIdentifier (owner source target : String)
  | referenceReadsResponse (owner rule : String)
  | singularRule (owner rule : String)
  | noSingular (owner rule : String)
  | severalResources (owner rule : String)
  | alreadyCompiled (service : String)
  | unreadableFile (path : String)
  deriving DecidableEq, Repr

/-- How a resource was made with the wrong identifiers. -/
inductive IdentifierFault
  | byNameOnly (type : String) (declared : List String)
  | givenTwice (name : String)
  | unexpected (type : String) (names declared : List String)
  | missing (type name : String)
  deriving DecidableEq, Repr

/-- An interface's answer with an error status, or a request that could not be addressed. -/
structure ClientError where
  text : String
  method : Option String := none
  status : Option Int := none
  body : Option String := none
  deriving DecidableEq, Repr

/-- Uses that the library does not check for and so gives no text of its own. -/
inductive Misuse
  | wrongArguments
  | notCallable
  | notIterable
  | notAMapping
  | unevenEntries
  | wrongType
  | unhashable
  | unknownAttribute
  | noCaller
  | missingKey
  /-- Data is set where it cannot be changed. -/
  | unchangeable
  | outOfRange
  | tooLarge
  | badNumber
  | unknownKind
  | invalidSettings
  /-- Work without an end, or data that contains itself. -/
  | endless
  /-- The name of a file is longer than the names of files can be. -/
  | nameTooLong
  /-- An object gained members while it was gone through. -/
  | changedMeanwhile
  /-- The zero character stands where it cannot be kept. -/
  | zeroCharacter
  deriving DecidableEq, Repr

/-- Why something did not succeed. -/
inductive Failure
  | definition (fault : DefinitionFault)
  | identifier (fault : IdentifierFault)
  | missingArgument (target : String)
  | loadNotSupported (type : String)
  | unknownOperation (name : String) (type : Option String)
  | unknownService (name : String)
  | noClient (type : String)
  | client (error : ClientError)
  /-- A failure of a client that is not this library's. -/
  | foreign (text : String)
  | unknownMethod (name : String) (available : List String)
  | unknownModelType (service name : String) (available : List String)
  | missingBaseUrl
  | path (fault : Path.Fault)
  | write (fault : WriteFault)
  | unreadable (fault : Json.ReadFault)
  | undecodable
  | misuse (misuse : Misuse)
  deriving DecidableEq, Repr

/-- The text of a definition fault. -/
def DefinitionFault.message : DefinitionFault → String
  | invalidPath shown => "invalid path expression " ++ shown
  | invalidTarget expression => "invalid param target expression " ++ quoted expression
  | unknownParamSource shown => "unhandled param source type " ++ shown
  | invalidInteger shown => "invalid integer literal " ++ shown
  | invalidBoolean shown => "invalid boolean literal " ++ shown
  | readsNoResource target =>
    "param " ++ quoted target ++ " reads from a resource but none was given"
  | unknownIdentifierSource shown => "unhandled identifier source type " ++ shown
  | needsResponse kind target => kind ++ " source for '" ++ target ++ "' needs a response"
  | missingOption option => "missing required option '" ++ option ++ "'"
  | missingPart part kind => "missing required option '" ++ part ++ "' for " ++ kind
  | unknownTargets type targets declared =>
    type ++ " has no identifier(s) " ++ quotedList targets ++ "; declared: " ++ quotedList declared
  | ambiguousBuilder type uncovered =>
    "ambiguous builder for " ++ type ++ ": identifiers " ++ quotedList uncovered ++ " have no source"
  | singularEnumeration => "expected a plural builder for enumerate_resource"
  | duplicateIdentifier type name => type ++ " has duplicate identifier '" ++ name ++ "'"
  | reservedIdentifier type name => type ++ " identifier '" ++ name ++ "' is a reserved name"
  | notALoad kind => "expected a load operation, got " ++ kind
  | secondLoad type => type ++ " already has a load operation"
  | duplicateOperation type name => type ++ " already defines operation '" ++ name ++ "'"
  | shadowingOperation type name => type ++ " operation '" ++ name ++ "' shadows an attribute"
  | frozen type => type ++ " is frozen"
  | schema findings =>
    "invalid resource definition: " ++ toString findings ++ " validation error" ++
      (if findings == 1 then "" else "s") ++ " for ServiceDefinition"
  | unnamedType owner rule => owner ++ "." ++ rule ++ " does not name a resource type"
  | unknownType owner rule type =>
    owner ++ "." ++ rule ++ " references unknown resource type '" ++ type ++ "'"
  | unknownRequestIdentifier owner operation identifier =>
    owner ++ " request " ++ operation ++ " reads unknown identifier '" ++ identifier ++ "'"
  | unknownSourceIdentifier owner source target =>
    owner ++ " has no identifier '" ++ source ++ "' to build '" ++ target ++ "' from"
  | referenceReadsResponse owner rule =>
    owner ++ "." ++ rule ++ " is a reference and cannot read from a response"
  | singularRule owner rule =>
    owner ++ "." ++ rule ++ " enumerate needs a plural identifier source"
  | noSingular owner rule => "cannot derive a singular name from " ++ owner ++ "." ++ rule
  | severalResources owner rule =>
    owner ++ "." ++ rule ++ " hasOne resolves to several resources"
  | alreadyCompiled service => "service '" ++ service ++ "' is already compiled"
  | unreadableFile path => "invalid JSON in " ++ path

/-- The text of an identifier fault. -/
def IdentifierFault.message : IdentifierFault → String
  | byNameOnly type declared => type ++ " takes identifiers by name: " ++ quotedList declared
  | givenTwice name => "identifier '" ++ name ++ "' given twice"
  | unexpected type names declared =>
    "unexpected identifier(s) " ++ quotedList names ++ " for " ++ type ++ "; declared: " ++
      quotedList declared
  | missing type name => "missing required identifier '" ++ name ++ "' for " ++ type

/-- A text with a label before it and a status after it, where they are known. -/
def labelledText (label : Option String) (text : String) (status : Option String) : String :=
  let before := label.toList.map fun name => "[" ++ name ++ "]"
  let after := status.toList.map fun code => "(status=" ++ code ++ ")"
  " ".intercalate (before ++ [text] ++ after)

/-- The text of a client error: the method before it, the status after it. An empty name and the
status zero are left out. -/
def ClientError.message (e : ClientError) : String :=
  labelledText (e.method.filter fun name => !name.isEmpty) e.text
    ((e.status.filter fun code => code != 0).map toString)

/-- The text of an operation name that is not attached. -/
def unknownOperationText (name : String) (type : Option String) : String :=
  match type with
  | some t =>
    if t.isEmpty then "unknown operation '" ++ name ++ "'"
    else "unknown operation '" ++ name ++ "' for " ++ t
  | none => "unknown operation '" ++ name ++ "'"

/-- The text of a failure; none for those that this library leaves without one. -/
def Failure.message? : Failure → Option String
  | definition fault => some fault.message
  | identifier fault => some fault.message
  | missingArgument target => some ("missing required argument '" ++ target ++ "'")
  | loadNotSupported type => some ("load not defined for " ++ type)
  | unknownOperation name type => some (unknownOperationText name type)
  | unknownService name =>
    some ("no resource definition registered for service '" ++ name ++ "'")
  | noClient type => some ("no client given and " ++ type ++ " has no client factory")
  | client error => some error.message
  | foreign text => some text
  | unknownMethod name available =>
    some ("client has no method '" ++ name ++ "'. Available: " ++ quotedList available)
  | unknownModelType service name available =>
    some ("service '" ++ service ++ "' has no resource type '" ++ name ++ "'. Available: " ++
      quotedList available)
  | missingBaseUrl => some "base_url required (set RESOURCEKIT_BASE_URL)"
  | path _ | write _ | unreadable _ | undecodable | misuse _ => none

/-- A text that is made of a value. None is made of a value with a whole number that is too long. -/
def written (v : Json) (text : String) : Except Failure String :=
  if v.isTooLong then .error (.misuse .badNumber) else .ok text

theorem written_ok {v : Json} {text shown : String} :
    written v text = .ok shown ↔ v.isTooLong = false ∧ text = shown := by
  unfold written
  cases v.isTooLong <;> simp

/-- A value without such a number is written. -/
theorem written_of_fits {v : Json} (fits : v.isTooLong = false) (text : String) :
    written v text = .ok text :=
  written_ok.mpr ⟨fits, rfl⟩

theorem written_cases (v : Json) (text : String) :
    written v text = .ok text ∨ written v text = .error (.misuse .badNumber) := by
  unfold written
  cases v.isTooLong <;> simp

/-- A definition fault that quotes what was given. -/
def faultQuoting {α : Type} (fault : String → DefinitionFault) (given : Json) : Except Failure α := do
  .error (.definition (fault (← written given given.display)))

end ResourceGraph
