import Mathlib.Data.String.Basic
import ResourceGraph.Proofs.Answering
import ResourceGraph.Proofs.RegistryRun

/-!
What a registry lists, and what it knows. A service is listed when it was registered or compiled, or
when the loader lists it; a lookup finds it unknown when it was neither and the loader has nothing
for it. The two are opposites as long as the loader gives something for what it lists and for
nothing else. Memory does, but for documents that are null. A directory does for the services whose
files can be in it, but for files that hold null; for other names, which lead elsewhere or are
longer than the names of files, it lists nothing, and may still have an answer.
-/

namespace ResourceGraph

namespace Directory

open String

/-- The name can be the one of a file in a directory. -/
def Plain (file : String) : Prop :=
  '/' ∉ file.toList ∧ Char.ofNat 0 ∉ file.toList ∧ file.utf8ByteSize ≤ longestName

instance (file : String) : Decidable (Plain file) := inferInstanceAs (Decidable (_ ∧ _ ∧ _))

/-- Splitting what has no slash finds none, from any place on. -/
theorem splitOnAux_of_no_slash (before rest : List Char) (none : '/' ∉ rest) :
    splitOnAux (ofList (before ++ rest)) "/" 0 ⟨utf8Len before⟩ 0 [] = [ofList (before ++ rest)] := by
  induction rest generalizing before with
  | nil =>
    unfold splitOnAux
    rw [if_pos ((atEnd_of_valid before []).mpr rfl)]
    simpa using extract_of_valid [] before []
  | cons c rest ih =>
    have other : c ≠ '/' := fun same => none (same ▸ List.mem_cons_self)
    have inside : ¬ Pos.Raw.atEnd (ofList (before ++ c :: rest)) ⟨utf8Len before⟩ :=
      mt (atEnd_of_valid before (c :: rest)).mp nofun
    have here : Pos.Raw.get (ofList (before ++ c :: rest)) ⟨utf8Len before⟩ = c :=
      get_of_valid before (c :: rest)
    have different : ¬ (c == Pos.Raw.get "/" 0) = true := by
      rw [show Pos.Raw.get "/" 0 = '/' from rfl, beq_iff_eq]
      exact other
    have next : Pos.Raw.next (ofList (before ++ c :: rest)) (Pos.Raw.unoffsetBy ⟨utf8Len before⟩ 0) =
        ⟨utf8Len (before ++ [c])⟩ := by
      simpa using next_of_valid before c rest
    unfold splitOnAux
    rw [if_neg inside, here, if_neg different, next]
    simpa using ih (before ++ [c]) fun member => none (List.mem_cons_of_mem c member)

private theorem parts_of_no_slash {file : String} (none : '/' ∉ file.toList) (other : file ≠ "")
    (dot : file ≠ ".") :
    parts file = [file] := by
  have whole : file.splitOn "/" = [file] := by
    simpa [splitOn] using splitOnAux_of_no_slash [] file.toList none
  simp [parts, whole, other, dot]

/-- A name that a file can have leads to the file of this name. -/
theorem find_plain (d : Directory) {file : String} (plain : Plain file)
    (named : file ≠ "" ∧ file ≠ "." ∧ file ≠ "..") :
    d.find file = ((Keyed.get? (d.texts.getD []) file).map .text).getD .absent := by
  obtain ⟨slash, zero, short⟩ := plain
  have path : file.utf8ByteSize ≤ longestPath := Nat.le_trans short (by decide)
  have below : file.startsWith "/" = false := by
    rw [startsWith_string_eq_false_iff]
    exact fun first => slash (first.subset (by simp))
  rw [find, if_neg (by simpa using zero), if_neg (Nat.not_lt.mpr path)]
  cases d.texts with
  | none => rfl
  | some files =>
    rw [parts_of_no_slash slash named.1 named.2.1]
    simp only [below]
    simp [findFrom, named.2.2, Nat.not_lt.mpr short]

end Directory

namespace Loader

/-- The names of its files are names that files can have. -/
def Sound : Loader → Prop
  | .files directory => ∀ file ∈ Keyed.keys (directory.texts.getD []), Directory.Plain file
  | _ => True

/-- What the loader lists the service for is there: no document is null, and a name that no file in
the directory can have leads to none. -/
def Candid : Loader → String → Prop
  | .none, _ => True
  | .memory documents, service => Keyed.get? documents service ≠ some .null
  | .files directory, service =>
    if Directory.Plain (service ++ suffix) then
      ∀ text, Keyed.get? (directory.texts.getD []) (service ++ suffix) = some text →
        Json.read text ≠ .ok .null
    else (Loader.files directory).load service = .ok .null

variable {loader : Loader} {service : String}

private theorem serviceOf?_eq_some {file : String} :
    serviceOf? file = some service ↔ file = service ++ suffix := by
  unfold serviceOf?
  dsimp only
  by_cases ends : suffix.toList <:+ file.toList
  · rw [if_pos (List.isSuffixOf_iff_suffix.mpr ends), Option.some.injEq]
    have whole := List.suffix_iff_eq_append.mp ends
    constructor
    · rintro rfl
      exact String.toList_injective (by rw [String.toList_append, String.toList_ofList, whole])
    · rintro rfl
      simp
  · rw [if_neg (mt List.isSuffixOf_iff_suffix.mp ends)]
    refine ⟨nofun, fun same => absurd ?_ ends⟩
    rw [same, String.toList_append]
    exact List.suffix_append _ _

/-- A loader lists the services of its memory, or those whose files are in its directory. -/
theorem mem_services : service ∈ loader.services ↔
    match loader with
    | .none => False
    | .memory documents => Keyed.has documents service = true
    | .files directory => Keyed.has (directory.texts.getD []) (service ++ suffix) = true := by
  cases loader with
  | none => simp [services]
  | memory documents => exact Keyed.has_iff.symm
  | files directory =>
    refine Iff.trans ?_ Keyed.has_iff.symm
    simp only [services, List.mem_filterMap, serviceOf?_eq_some]
    exact ⟨fun ⟨file, listed, same⟩ => same ▸ listed, fun listed => ⟨_, listed, rfl⟩⟩

/-- Where nothing goes wrong for a service, the loader gives a document. -/
theorem load_known (loader : Loader) (service name : String) :
    loader.load service ≠ .error (.unknownService name) := by
  unfold load
  split
  · exact nofun
  · exact nofun
  · split
    · exact nofun
    · exact nofun
    · split
      · exact nofun
      · exact nofun
      · exact nofun

/-- A service whose file can be in the directory is given what the file holds. -/
theorem load_plain (directory : Directory) (plain : Directory.Plain (service ++ suffix)) :
    (Loader.files directory).load service = .ok .null ↔
      ∀ text, Keyed.get? (directory.texts.getD []) (service ++ suffix) = some text →
        Json.read text = .ok .null := by
  have ending : ∀ name, name.toList.length < suffix.toList.length → service ++ suffix ≠ name := by
    rintro name short rfl
    rw [String.toList_append, List.length_append] at short
    omega
  rw [load, directory.find_plain plain
    ⟨ending _ (by decide), ending _ (by decide), ending _ (by decide)⟩]
  cases Keyed.get? (directory.texts.getD []) (service ++ suffix) with
  | none => simp
  | some text =>
    simp only [Option.map_some, Option.getD_some, Option.some.injEq, forall_eq']
    generalize Json.read text = read
    rcases read with (_ | _ | _) | document <;> simp

/-- The loader lists just what it has something for, exactly if it is candid. -/
theorem listed_iff_loaded (sound : loader.Sound) :
    (service ∈ loader.services ↔ loader.load service ≠ .ok .null) ↔ loader.Candid service := by
  rw [mem_services]
  cases loader with
  | none => simp [load, Candid]
  | memory documents =>
    change (Keyed.has documents service = true ↔ _) ↔ Keyed.get? documents service ≠ some .null
    rw [Keyed.has, load]
    cases Keyed.get? documents service <;> simp
  | files directory =>
    change (Keyed.has (directory.texts.getD []) (service ++ suffix) = true ↔ _) ↔
      if Directory.Plain (service ++ suffix) then _ else _
    split
    · next plain =>
      rw [ne_eq, load_plain directory plain, Keyed.has]
      cases Keyed.get? (directory.texts.getD []) (service ++ suffix) <;> simp
    · next other =>
      have unlisted : ¬ Keyed.has (directory.texts.getD []) (service ++ suffix) = true :=
        fun listed => other (sound _ (Keyed.has_iff.mp listed))
      simp [unlisted]

end Loader

namespace Registry

variable {r : Registry} {service : String}

/-- The registry as it may be: events happen, and the loader changes in whatever way. -/
inductive Reached : Registry → Prop
  | start (loader : Loader) : Reached { loader }
  | after {r : Registry} (e : Event) (before : Reached r) : Reached (r.after e)
  | changed {r : Registry} (loader : Loader) (before : Reached r) : Reached { r with loader }

/-- A lookup finds the service unknown. -/
def Unknown (r : Registry) (service : String) : Prop :=
  ∃ name, (r.get service).outcome = .error (.unknownService name)

theorem Event.document_ne_null (e : Event) {before : Option Json} (other : before ≠ some .null) :
    e.document service before ≠ some .null := by
  cases e with
  | register name document factory =>
    unfold Event.document given?
    dsimp only
    split
    · split
      · exact other
      · next present => exact fun same => present (Option.some.inj same)
    · exact other
  | get | add | writeFile => exact other

/-- No document that waits to be compiled is null. -/
theorem Reached.registered (reached : r.Reached) (missing : Keyed.get? r.models service = none) :
    Keyed.get? r.documents service ≠ some .null := by
  induction reached with
  | start loader => exact nofun
  | after e _ ih =>
    have before := missing_of_after missing
    rw [((recorded_after _ e).2 service before).1]
    exact e.document_ne_null (ih before)
  | changed loader _ ih => exact ih missing

/-- Compiling finds a service unknown if there is no document for it, and for no other reason. -/
theorem compile_unknown :
    (∃ name, (r.compile service).outcome = .error (.unknownService name)) ↔
      r.document service = .ok .null := by
  unfold compile
  split
  · next failure found =>
    refine ⟨?_, fun same => by rw [found] at same; cases same⟩
    rintro ⟨name, same⟩
    rw [Except.error.inj same, document] at found
    split at found
    · cases found
    · exact absurd found (r.loader.load_known service name)
  · next found => simp [found]
  · next document present found =>
    refine ⟨?_, fun same => absurd (Except.ok.inj (found.symm.trans same)) present⟩
    rintro ⟨name, same⟩
    split at same
    · next failure remarked =>
      rw [Except.error.inj same, lint] at remarked
      split at remarked
      · cases remarked
      · split at remarked <;> cases remarked
    · dsimp only at same
      split at same
      · cases same
      · next failure failed => exact absurd (failed.trans same) (Model.compile_knows _ _ _ name)

/-- A service is unknown if it was neither compiled nor registered, and the loader has nothing for
it. -/
theorem Reached.unknown_iff (reached : r.Reached) : r.Unknown service ↔
    Keyed.get? r.models service = none ∧ Keyed.get? r.documents service = none ∧
      r.loader.load service = .ok .null := by
  unfold Unknown
  cases there : Keyed.get? r.models service with
  | some m => simp [get_of_compiled there]
  | none =>
    rw [get_of_missing there, compile_unknown, document]
    have registered := reached.registered there
    cases given : Keyed.get? r.documents service with
    | none => simp
    | some document =>
      rw [given] at registered
      simpa using registered

private theorem mem_services : service ∈ r.services ↔
    Keyed.has r.documents service = true ∨ Keyed.has r.models service = true ∨
      service ∈ r.loader.services := by
  simp [services, sortedNames, Keyed.has_iff]

/-- **What is listed is known.** Whatever was registered and compiled, and however the loader
changed meanwhile: a registry lists the services that a lookup does not find unknown, exactly as far
as they were registered or compiled or the loader is candid about them. -/
theorem listed_iff_known (reached : r.Reached) (sound : r.loader.Sound) (service : String) :
    (service ∈ r.services ↔ ¬ r.Unknown service) ↔
      (Keyed.has r.documents service = true ∨ r.isCompiled service = true) ∨
        r.loader.Candid service := by
  rw [mem_services, reached.unknown_iff, ← Loader.listed_iff_loaded sound, isCompiled,
    Keyed.has, Keyed.has]
  cases Keyed.get? r.documents service <;> cases Keyed.get? r.models service <;> simp

/-- A directory with the file of one service, which holds this text. -/
def holding (text : String) : Registry where
  loader := .files ⟨"definitions", "definitions", some [("iam.resources.json", text)]⟩

private theorem holding_sound (text : String) : (holding text).loader.Sound :=
  List.forall_mem_singleton.mpr (show Directory.Plain "iam.resources.json" by decide)

/-- A file that holds an empty object: its service is listed, and known. -/
theorem listed_iff_known_file :
    "iam" ∈ (holding "\x7b\x7d").services ∧ ¬ (holding "\x7b\x7d").Unknown "iam" := by
  have held : Json.read "\x7b\x7d" = .ok (.object []) := by decide +kernel
  have plain : Directory.Plain ("iam" ++ Loader.suffix) := by decide
  have candid : (holding "\x7b\x7d").loader.Candid "iam" := by
    rw [holding, Loader.Candid, if_pos plain]
    intro text found
    cases found
    rw [held]
    exact nofun
  have listed : "iam" ∈ (holding "\x7b\x7d").services := by decide +kernel
  exact ⟨listed, ((listed_iff_known (.start _) (holding_sound _) "iam").mpr (.inr candid)).mp listed⟩

/-- A file that holds null: its service is listed, and unknown. -/
theorem listed_and_unknown :
    (holding "null").Reached ∧ "iam" ∈ (holding "null").services ∧ (holding "null").Unknown "iam" := by
  have held : Json.read "null" = .ok .null := by decide +kernel
  have reached : (holding "null").Reached := .start _
  refine ⟨reached, by decide +kernel, reached.unknown_iff.mpr ⟨rfl, rfl, ?_⟩⟩
  refine (Loader.load_plain _ (by decide)).mpr fun text found => ?_
  cases found
  exact held

end Registry

end ResourceGraph
