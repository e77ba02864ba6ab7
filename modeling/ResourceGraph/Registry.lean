import ResourceGraph.Directory
import ResourceGraph.Document.Lint
import ResourceGraph.Model.Compile

/-!
The registry of services. A service is compiled at most once, from the document that was registered
for it or, without one, from what the loader has for it at that moment; from then on everyone gets
the same model. An attempt that fails leaves the registry as it was, so that a later one can
succeed.
-/

namespace ResourceGraph

/-- Where documents come from that were not registered. -/
inductive Loader
  | none
  /-- Documents in memory, by service. -/
  | memory (documents : Keyed Json)
  | files (directory : Directory)
  deriving DecidableEq

namespace Loader

/-- The end of the names of files that hold documents. -/
def suffix : String := ".resources.json"

/-- The document for a service; null if there is none. -/
def load (loader : Loader) (service : String) : Except Failure Json :=
  match loader with
  | .none => .ok .null
  | .memory documents => .ok ((Keyed.get? documents service).getD .null)
  | .files directory =>
    match directory.find (service ++ suffix) with
    | .absent => .ok .null
    | .nameTooLong => .error (.misuse .nameTooLong)
    | .text content =>
      match Json.read content with
      | .ok document => .ok document
      | .error .malformed =>
        .error (.definition (.unreadableFile (directory.shownPath (service ++ suffix))))
      | .error fault => .error (.unreadable fault)

/-- The service that a file holds the document of. -/
def serviceOf? (file : String) : Option String :=
  let cs := file.toList
  let ending := suffix.toList
  if ending.isSuffixOf cs then some (String.ofList (cs.take (cs.length - ending.length))) else .none

/-- The services that the loader may have documents for. -/
def services : Loader → List String
  | .none => []
  | .memory documents => Keyed.keys documents
  | .files directory => (Keyed.keys (directory.texts.getD [])).filterMap serviceOf?

/-- The loader itself, where there is one. -/
def present : Loader → Except Failure Loader
  | .none => .error (.misuse .unknownAttribute)
  | loader => .ok loader

/-- The loader with one more document. Only documents in memory can be added to. -/
def add (loader : Loader) (service : String) (document : Json) : Except Failure Loader :=
  match loader with
  | .memory documents => .ok (.memory (Keyed.put documents service document))
  | _ => .error (.misuse .unknownAttribute)

/-- The loader with a file written. -/
def writeFile (loader : Loader) (file text : String) : Loader :=
  match loader with
  | .files directory => .files (directory.writeFile file text)
  | other => other

end Loader

/-- Names in order of their code points, each once. -/
def sortedNames (names : List String) : List String :=
  names.eraseDups.mergeSort fun a b => decide (a ≤ b)

/-- What the registry has to say about what it does. -/
inductive Notice
  | registered (service : String)
  | remark (service : String) (remark : Remark)
  | compiling (service : String)
  deriving DecidableEq, Repr

/-- The text of a notice, after its level. -/
def Notice.text : Notice → String
  | registered service => "INFO [registry] Registered service: " ++ service
  | remark service about => "WARNING [registry] " ++ service ++ ": " ++ about.message
  | compiling service => "INFO [registry] Compiling service: " ++ service

/-- A registry. -/
structure Registry where
  loader : Loader := .none
  documents : Keyed Json := []
  factories : Keyed Nat := []
  models : Keyed Model := []
  deriving DecidableEq

/-- The outcome of looking a service up. -/
structure Registry.Lookup where
  outcome : Except Failure Model
  registry : Registry
  notices : List Notice

namespace Registry

/-- Registers a service: its document, its client factory, or both. A service that was compiled can
no longer be registered. -/
def register (r : Registry) (service : String) (document : Option Json) (factory : Option Nat) :
    Except Failure (Registry × List Notice) :=
  if Keyed.has r.models service then .error (.definition (.alreadyCompiled service))
  else
    let documents := match document with
      | some d => Keyed.put r.documents service d
      | none => r.documents
    let factories := match factory with
      | some f => Keyed.put r.factories service f
      | none => r.factories
    .ok ({ r with documents, factories }, [.registered service])

/-- The document of a service: the registered one, else the one of the loader. -/
def document (r : Registry) (service : String) : Except Failure Json :=
  match Keyed.get? r.documents service with
  | some d => .ok d
  | none => r.loader.load service

/-- Compiles a service that has not been compiled. -/
def compile (r : Registry) (service : String) : Lookup :=
  match r.document service with
  | .error failure => ⟨.error failure, r, []⟩
  | .ok .null => ⟨.error (.unknownService service), r, []⟩
  | .ok document =>
    match lint document with
    | .error failure => ⟨.error failure, r, []⟩
    | .ok remarks =>
      let notices := remarks.map (.remark service) ++ [.compiling service]
      match Model.compile document service (Keyed.get? r.factories service) with
      | .ok model => ⟨.ok model, { r with models := Keyed.put r.models service model }, notices⟩
      | .error failure => ⟨.error failure, r, notices⟩

/-- The model of a service, compiled on first use. -/
def get (r : Registry) (service : String) : Lookup :=
  match Keyed.get? r.models service with
  | some model => ⟨.ok model, r, []⟩
  | none => r.compile service

/-- The service has been compiled. -/
def isCompiled (r : Registry) (service : String) : Bool := Keyed.has r.models service

/-- The services that are known, in order. -/
def services (r : Registry) : List String :=
  sortedNames (Keyed.keys r.documents ++ Keyed.keys r.models ++ r.loader.services)

/-- The registry as messages show it. -/
def display (r : Registry) : String :=
  "ServiceRegistry(services=" ++ Text.quotedList r.services ++ ", compiled=" ++
    toString r.models.length ++ ")"

end Registry

end ResourceGraph
