import ResourceGraph.Client.Basic

/-!
Settings: where definition documents lie and how an HTTP client reaches its interface. They are
given by hand or read from variables of the environment; what was read from the environment is kept
until it is cleared, and a failed attempt keeps nothing.
-/

namespace ResourceGraph

/-- The settings. The timeout is in seconds and above zero. -/
structure Settings where
  definitionsDir : Option String := none
  baseUrl : Option String := none
  apiKey : Option String := none
  timeout : Float := 30
  deriving DecidableEq, Repr

/-- The variables that are set, with their values. -/
abbrev Environment := Keyed String

namespace Settings

/-- The failure of settings that do not fit. -/
def invalid {α : Type} : Except Failure α := .error (.misuse .invalidSettings)

/-- The settings, if their timeout is above zero. -/
def checked (s : Settings) : Except Failure Settings :=
  if 0 < s.timeout then .ok s else invalid

/-- A text that may be left out. -/
def textField (fields : Keyed Json) (name : String) : Except Failure (Option String) :=
  match Keyed.get? fields name with
  | none | some .null => .ok none
  | some (.str s) => .ok (some s)
  | some _ => invalid

/-- A timeout, given as a number, a truth value or the text of a number in ASCII digits. -/
def timeoutField (fields : Keyed Json) : Except Failure Float :=
  match Keyed.get? fields "timeout" with
  | none => .ok 30
  | some (.float x) => .ok x
  | some (.bool b) => .ok (if b then 1 else 0)
  | some (.int n) => ((Num.int n).toFloat?.map Except.ok).getD invalid
  | some (.str s) => ((Number.readLoose? s).map Except.ok).getD invalid
  | some _ => invalid

/-- Settings given by hand. Names that are no settings are passed over. -/
def make (fields : Keyed Json) : Except Failure Settings := do
  let definitionsDir ← textField fields "definitions_dir"
  let baseUrl ← textField fields "base_url"
  let apiKey ← textField fields "api_key"
  let timeout ← timeoutField fields
  checked { definitionsDir, baseUrl, apiKey, timeout }

/-- Settings read from the environment. -/
def ofEnvironment (env : Environment) : Except Failure Settings :=
  match Number.readFloat? ((Keyed.get? env "RESOURCEKIT_TIMEOUT").getD "30") with
  | none => .error (.misuse .badNumber)
  | some timeout =>
    checked {
      definitionsDir := Keyed.get? env "RESOURCEKIT_DEFINITIONS_DIR"
      baseUrl := Keyed.get? env "RESOURCEKIT_BASE_URL"
      apiKey := Keyed.get? env "RESOURCEKIT_API_KEY"
      timeout }

/-- A secret as it is shown. -/
def shownSecret (secret : String) : String := if secret.isEmpty then "" else "**********"

end Settings

/-- The environment, and the settings that were read from it. -/
structure Surroundings where
  environment : Environment := []
  kept : Option Settings := none
  deriving DecidableEq, Repr

namespace Surroundings

/-- Sets a variable, or takes it away. No variable holds the zero character. -/
def setVariable (s : Surroundings) (name : String) (value : Option String) :
    Except Failure Surroundings :=
  match value with
  | some text =>
    if (name ++ text).toList.contains (Char.ofNat 0) then .error (.misuse .zeroCharacter)
    else .ok { s with environment := Keyed.put s.environment name text }
  | none => .ok { s with environment := Keyed.erase s.environment name }

/-- Forgets the settings that were read. -/
def clear (s : Surroundings) : Surroundings := { s with kept := none }

/-- The settings, read now if they are not kept from before. -/
def settings (s : Surroundings) : Except Failure Settings × Surroundings :=
  match s.kept with
  | some kept => (.ok kept, s)
  | none =>
    match Settings.ofEnvironment s.environment with
    | .ok read => (.ok read, { s with kept := some read })
    | .error failure => (.error failure, s)

end Surroundings

/-- An HTTP client for the interface that settings name. An empty key is none. -/
def HttpClient.ofSettings (s : Settings) (routes : Keyed Route) (headers : Keyed String)
    (replies : List HttpReply) : Except Failure HttpClient :=
  match s.baseUrl with
  | none => .error .missingBaseUrl
  | some base =>
    if base.isEmpty then .error .missingBaseUrl
    else .ok (.make base routes s.apiKey headers replies)

end ResourceGraph
