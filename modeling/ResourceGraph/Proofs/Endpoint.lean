import ResourceGraph.Proofs.Routing

/-!
Which endpoint a request goes to. The address is the base and the filled path of the route, and a
placeholder is filled with the text of its parameter as it is. So the address has the separators of
the path, and besides those of the texts: it addresses the endpoint of the route exactly when no
parameter that fills a placeholder has a separator in its text.
-/

namespace ResourceGraph

open ResourceGraph.Graph

namespace Template

/-- What separates the segments of an address, and starts its query and its fragment. -/
def separators : List Char := ['/', '?', '#']

/-- The second text has as many of each separator as the first. -/
def Alike (first second : List Char) : Prop := ∀ d ∈ separators, second.count d = first.count d

instance (first second : List Char) : Decidable (Alike first second) := List.decidableBAll _ separators

private theorem forall_separators {p : Char → Prop} :
    (∀ d ∈ separators, p d) ↔ p '/' ∧ p '?' ∧ p '#' := by
  simp [separators]

variable {value : String → List Char} {text path : List Char} {d : Char}

/-- A placeholder has no separator. -/
theorem count_marked {name : String} (named : IsName name) (separates : d ∈ separators) :
    (marked name).count d = 0 := by
  have plain : ∀ d ∈ separators, Text.isWord d = false ∧ d ≠ '\x7b' ∧ d ≠ '\x7d' :=
    forall_separators.mpr ⟨by decide, by decide, by decide⟩
  obtain ⟨outside, opens, closes⟩ := plain d separates
  refine List.count_eq_zero.mpr fun member => ?_
  simp only [marked, List.mem_cons, List.mem_append, List.not_mem_nil, or_false] at member
  rcases member with first | inside | last
  · exact opens first
  · rw [named.2 d inside] at outside
    cases outside
  · exact closes last

private theorem holes_of_bare (none : ∀ name, ¬ Standing name text) : holes (pieces text) = [] :=
  List.eq_nil_iff_forall_not_mem.mpr fun name member => none name (mem_holes.mp member)

/-- A filled text has the separators of the text and those of what replaces its placeholders. -/
theorem Filled.count (filled : Filled value text path) (separates : d ∈ separators) :
    path.count d = text.count d + ((holes (pieces text)).map fun name => (value name).count d).sum := by
  induction filled with
  | bare none => simp [holes_of_bare none]
  | @placeholder before rest filled name none named further ih =>
    have names : holes (pieces (before ++ marked name ++ rest)) = name :: holes (pieces rest) := by
      rw [pieces_append named, holes_append, holes_of_bare none]
      rfl
    rw [names, List.map_cons, List.sum_cons]
    simp only [List.count_append, count_marked named separates, ih]
    omega

/-- A filled text has the separators of the text alone if what replaces its placeholders has none. -/
theorem Filled.alike_iff (filled : Filled value text path) :
    Alike text path ↔ ∀ name, Standing name text → ∀ d ∈ separators, d ∉ value name := by
  have own : ∀ d ∈ separators, path.count d = text.count d ↔ ∀ name, Standing name text →
      d ∉ value name := by
    intro d separates
    rw [filled.count separates, Nat.add_eq_left, List.sum_eq_zero_iff]
    simp [List.count_eq_zero, mem_holes]
  constructor
  · intro alike name standing d separates
    exact (own d separates).mp (alike d separates) name standing
  · intro plain d separates
    exact (own d separates).mpr fun name standing => plain name standing d separates

end Template

namespace Act

open Template

variable {g : Graph} {id : ClientId} {c : HttpClient} {method : String} {route : Route} {params : Datum}

/-- **The address of a request.** A call over HTTP, and each page of a paginated one, sends
parameters that fit the path of the route in one request, unless one that the path names cannot be
written, or one of those that are carried goes too deep to be shown by the recorder. After the base
its address has the separators of the path, and with them those in the texts of the parameters that
the path names. So it is the endpoint of the route, with as many segments as the path and no query
or fragment beyond its own, exactly when none of these texts has a separator. -/
theorem send_addresses {fields : Keyed Datum} (serves : g.clients[id]? = some (.http c))
    (content : g.store.opened params = .object fields) (distinct : (Keyed.keys fields).Nodup)
    (fits : route.Fits (Keyed.keys fields)) :
    let ran := runIn (send id c method route params) g
    (∃ request path, ran.2.exchanges = g.exchanges.push (.http id request) ∧
      request.address = c.base ++ String.ofList path ∧
      (∀ d ∈ separators, path.count d = route.path.toList.count d +
        (route.names.map fun name => (valueOf g.store.textOf fields name).count d).sum) ∧
      (Alike route.path.toList path ↔
        ∀ name, route.Named name → ∀ d ∈ separators, d ∉ valueOf g.store.textOf fields name)) ∨
    (∃ field ∈ route.carried fields, g.store.shownTree? field.2 = none) ∧
      ran = (.error (.misuse .endless), g) ∨
    ¬ route.Written g.store fields ∧ ran = (.error (.misuse .badNumber), g) := by
  dsimp only
  rcases c.spelled_cases route content distinct with ⟨-, -, sent⟩ | ⟨f, unsent, failed⟩
  · rcases sent with ⟨request, spelled, makes⟩ | ⟨endless, which⟩
    · obtain ⟨path, filled, address⟩ := makes.address
      refine .inl ⟨request, path, (runIn_send_spelled serves spelled).1, address, ?_, filled.alike_iff⟩
      intro d separates
      exact filled.count separates
    · exact .inr (.inl ⟨which, by rw [runIn_send serves, endless]⟩)
  · have unwritten : ¬ route.Written g.store fields := fun written => unsent.not_sent ⟨fits, written⟩
    cases unsent with
    | @missing name named why =>
      obtain ⟨given, once⟩ := fits name named
      rcases why with unknown | twice
      · exact absurd given unknown
      · exact absurd twice once
    | unwritten _ _ => exact .inr (.inr ⟨unwritten, by rw [runIn_send serves, failed]⟩)

/-- The name of a user without a separator leads to the endpoint of the users. -/
theorem send_addresses_user :
    let route : Route := ⟨"get", "/users/\x7bid\x7d", none⟩
    ∃ request path, (runIn (send 0 .users "get_user" route (.object [("id", .str "ann")]))
      (.served .users)).2.exchanges =
        #[.http 0 request] ∧
      request.address = "https://api.example.com" ++ String.ofList path ∧
        Alike route.path.toList path := by
  intro route
  have fits : route.Fits ["id"] := by decide +kernel
  have names : route.names = ["id"] := by decide +kernel
  have content : (Graph.served .users).store.opened (.object [("id", .str "ann")]) =
      .object [("id", .str "ann")] := rfl
  rcases @send_addresses (.served .users) 0 .users "get_user" route _ _ rfl content (by decide) fits with
    ⟨request, path, sent, address, -, alike⟩ | ⟨⟨field, carried, -⟩, -⟩ | ⟨unwritten, -⟩
  · refine ⟨request, path, sent, address, alike.mpr fun name named => ?_⟩
    have only : name = "id" := by simpa [names] using Route.mem_names.mpr named
    subst only
    exact forall_separators.mpr ⟨by decide, by decide, by decide⟩
  · rw [show route.carried [("id", .str "ann")] = [] by decide +kernel] at carried
    cases carried
  · exact absurd (Route.written_of_texts _ (by simp)) unwritten

/-- A name with separators leads elsewhere: to the keys of another user, with a query and a
fragment. -/
theorem addressed_elsewhere :
    let route : Route := ⟨"get", "/users/\x7bid\x7d", none⟩
    let ran := runIn (call 0 "get_user" (.object [("id", .str "ann/keys?all#x")])) (.served .users)
    let path := "/users/ann/keys?all#x".toList
    route.names = ["id"] ∧ ran.2.exchanges =
        #[.http 0 ⟨"GET", "https://api.example.com" ++ String.ofList path, none, none, []⟩] ∧
      ¬ Alike route.path.toList path := by
  refine ⟨?_, ?_, ?_⟩ <;> decide +kernel

end Act

end ResourceGraph
