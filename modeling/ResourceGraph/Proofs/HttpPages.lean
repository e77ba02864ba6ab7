import ResourceGraph.Proofs.Confinement
import ResourceGraph.Proofs.Enumeration

/-!
Pages over HTTP. The first request of a paginated call has the parameters that were given; each
later one has those of the first with one member set to the token of the page before, whatever the
pages in between held. A page is requested when it is asked for and not before. The pages end with
the first that holds no token, or with a request or a token that fails.
-/

namespace ResourceGraph

open ResourceGraph.Graph Store

/-! ## Requests -/

/-- The tree that is sent for members and for entries with other keys. For none of them nothing is
sent. -/
def Store.sentTree (s : Store) (named : Keyed Datum) (others : List (Datum × Datum)) :
    Except Failure (Option Json) :=
  if named.isEmpty && others.isEmpty then .ok none
  else
    match s.shownTree? (Value.ofEntries (named.map (fun (key, v) => (.str key, v)) ++ others)) with
    | some sent => .ok (some sent)
    | none => .error (.misuse .endless)

/-- What parameters are sent as, or why they cannot be sent. -/
def HttpClient.spelled (c : HttpClient) (route : Route) (s : Store) (params : Datum) :
    Except Failure HttpRequest :=
  match Value.entries s.opened params with
  | .error fault => .error (Act.entriesFailure fault)
  | .ok entries =>
    let (named, others) := Act.splitEntries ((Value.ofEntries entries).entries?.getD [])
    match c.address route s.textOf named with
    | .error f => .error f
    | .ok (address, left) => (s.sentTree left others).map (c.request route address)

/-- What the other end answers next. -/
def HttpClient.answer (c : HttpClient) (method : String) : Except Failure Json :=
  match c.replies with
  | [] => .error (.foreign "no reply left")
  | reply :: _ => reply.read method

/-- The client when the next answer is used up. -/
def HttpClient.answered (c : HttpClient) : HttpClient := { c with replies := c.replies.tail }

/-- The graph when a client has sent a request and used up the answer. -/
def Graph.requested (g : Graph) (id : ClientId) (c : HttpClient) (request : HttpRequest) : Graph :=
  { g with
    clients := g.clients.setIfInBounds id (.http c.answered)
    exchanges := g.exchanges.push (.http id request) }

/-- One request of a client, whose parameters are a new object with this content: what it comes to,
what was sent, and the graph that it leaves. A response holds what was answered, and the parameters
that were sent. -/
inductive Graph.Requests (id : ClientId) (method : String) (route : Route) (content : Datum)
    (g : Graph) :
    Except Failure Response → List HttpRequest → Graph → Prop
  | unsent {c : HttpClient} {params : Datum} {kept : Graph} {f : Failure}
      (keeps : runIn (Act.share content) g = (.ok params, kept))
      (serves : kept.clients[id]? = some (.http c))
      (spelled : c.spelled route kept.store params = .error f) :
      Requests id method route content g (.error f) [] kept
  | refused {c : HttpClient} {params : Datum} {kept : Graph} {request : HttpRequest} {f : Failure}
      (keeps : runIn (Act.share content) g = (.ok params, kept))
      (serves : kept.clients[id]? = some (.http c))
      (spelled : c.spelled route kept.store params = .ok request) (answer : c.answer method = .error f) :
      Requests id method route content g (.error f) [request] (kept.requested id c request)
  | given {c : HttpClient} {params data : Datum} {kept h : Graph} {request : HttpRequest}
      {payload : Json}
      (keeps : runIn (Act.share content) g = (.ok params, kept))
      (serves : kept.clients[id]? = some (.http c))
      (spelled : c.spelled route kept.store params = .ok request)
      (answer : c.answer method = .ok payload)
      (received : runIn (Act.receive payload) (kept.requested id c request) = (.ok data, h)) :
      Requests id method route content g (.ok ⟨data, params⟩) [request] h

/-! ## The course of the pages -/

/-- Where a paginated call stands: no page was given, or these were the first and the last one. -/
inductive Cursor
  | start
  | after (first last : Response)

/-- Where the call stands after one more page. -/
def Cursor.turned : Cursor → Response → Cursor
  | .start, page => .after page page
  | .after first _, page => .after first page

/-- What the parameters of the next request hold, if there is to be one: the given entries at the
start, and after a page with a token what those of the first page hold, with this token stored among
them. -/
def Route.due (route : Route) (given : List (Datum × Datum)) : Cursor → Act (Option Datum)
  | .start => return some (Value.ofEntries given)
  | .after first last =>
    match route.pagination with
    | none => return none
    | some pagination => do
      let token ← Act.search pagination.outputToken last.data
      if (← Act.opened token).isEmpty then return none
      else return some ((← Act.opened first.params).withMember pagination.inputToken token)

/-- What asking for pages one after another gives, the requests that are sent, and the graph that is
left. A page takes one request. After the last one, and after a failure, nothing more is given and
nothing is sent. -/
inductive HttpCourse (id : ClientId) (method : String) (route : Route) (given : List (Datum × Datum)) :
    Cursor → Graph → List (Except Failure (Option Element)) → List HttpRequest → Graph → Prop
  | unasked {cursor : Cursor} {g : Graph} : HttpCourse id method route given cursor g [] [] g
  | page {cursor : Cursor} {g mid h last : Graph} {content : Datum} {page : Response}
      {sent requests : List HttpRequest} {answers : List (Except Failure (Option Element))}
      (due : runIn (route.due given cursor) g = (.ok (some content), mid))
      (requested : mid.Requests id method route content (.ok page) sent h)
      (further : HttpCourse id method route given (cursor.turned page) h answers requests last) :
      HttpCourse id method route given cursor g (.ok (some (.response page)) :: answers)
        (sent ++ requests) last
  | failed {cursor : Cursor} {g mid h : Graph} {content : Datum} {f : Failure} {sent : List HttpRequest}
      {more : Nat} (due : runIn (route.due given cursor) g = (.ok (some content), mid))
      (requested : mid.Requests id method route content (.error f) sent h) :
      HttpCourse id method route given cursor g (.error f :: List.replicate more (.ok none)) sent h
  | broken {cursor : Cursor} {g h : Graph} {f : Failure} {more : Nat}
      (due : runIn (route.due given cursor) g = (.error f, h)) :
      HttpCourse id method route given cursor g (.error f :: List.replicate more (.ok none)) [] h
  | ended {cursor : Cursor} {g h : Graph} {more : Nat}
      (due : runIn (route.due given cursor) g = (.ok none, h)) :
      HttpCourse id method route given cursor g (.ok none :: List.replicate more (.ok none)) [] h

/-! ## Objects that are kept -/

/-- No member of the object is a container itself: those have places of their own. -/
def Shallow (content : Datum) : Prop := ∀ entry ∈ content.entries?.getD [], entry.2.isContainer = false

/-- Storing under the key makes the two objects one and the same. -/
def AlikeBut (key : String) (a b : Datum) : Prop := ∀ v, a.withMember key v = b.withMember key v

namespace Store

variable {s t : Store} {v content : Datum} {key : String}

/-- The datum is the share of a place where this content is kept. -/
def KeepsAs (s : Store) (v content : Datum) : Prop :=
  ∃ place, v = .shared ⟨place⟩ ∧ s.cells[place]? = some (.data content)

theorem KeepsAs.opened (keeps : s.KeepsAs v content) : s.opened v = content := by
  obtain ⟨place, rfl, there⟩ := keeps
  unfold Store.opened cell?
  dsimp only
  rw [there]

theorem KeepsAs.grows (keeps : s.KeepsAs v content) (grows : s.Grows t) : t.KeepsAs v content := by
  obtain ⟨place, same, there⟩ := keeps
  exact ⟨place, same, grows place _ there⟩

private theorem keep_keepsAs (content : Datum) (s : Store) :
    ((keep content).run s).2.KeepsAs ((keep content).run s).1 content :=
  ⟨s.cells.size, rfl, Array.getElem?_push_size⟩

private theorem share_keepsAs (object : content.entries?.isSome) (s : Store) :
    ((share content).run s).2.KeepsAs ((share content).run s).1 ((shareInside content).run s).1 := by
  cases content with
  | object fields => exact keep_keepsAs _ _
  | table entries => exact keep_keepsAs _ _
  | _ => cases object

private theorem object_shareInside (object : content.entries?.isSome) (s : Store) :
    ((shareInside content).run s).1.entries?.isSome := by
  cases content <;> first | rfl | cases object

private theorem bare_share (v : Datum) (s : Store) : ((share v).run s).1.isContainer = false := by
  cases v <;> rfl

private theorem shallow_shareFields (fields : List (String × Datum)) (s : Store) :
    ∀ entry ∈ ((shareFields fields).run s).1, entry.2.isContainer = false := by
  induction fields generalizing s with
  | nil => nofun
  | cons entry rest ih => exact List.forall_mem_cons.mpr ⟨bare_share entry.2 s, ih _⟩

private theorem shallow_shareEntries (entries : List (Datum × Datum)) (s : Store) :
    ∀ entry ∈ ((shareEntries entries).run s).1, entry.2.isContainer = false := by
  induction entries generalizing s with
  | nil => nofun
  | cons entry rest ih => exact List.forall_mem_cons.mpr ⟨bare_share entry.2 s, ih _⟩

private theorem shallow_shareInside (content : Datum) (s : Store) :
    Shallow ((shareInside content).run s).1 := by
  cases content with
  | object fields =>
    intro entry member
    obtain ⟨field, inside, rfl⟩ := List.mem_map.mp member
    exact shallow_shareFields fields s field inside
  | table entries => exact shallow_shareEntries entries s
  | _ => exact nofun

/-! Where all members but the one under a key are kept already, only that one can change. -/

private theorem put_shareFields {fields : List (String × Datum)}
    (shallow : ∀ entry ∈ fields, entry.2.isContainer = false) (key : String) (v w : Datum) (s : Store) :
    Keyed.put ((shareFields (Keyed.put fields key v)).run s).1 key w = Keyed.put fields key w := by
  induction fields generalizing s with
  | nil =>
    change Keyed.put [(key, ((share v).run s).1)] key w = _
    simp [Keyed.put]
  | cons entry rest ih =>
    obtain ⟨name, u⟩ := entry
    rw [List.forall_mem_cons] at shallow
    by_cases same : name = key
    · have kept : ((shareFields (Keyed.put ((name, u) :: rest) key v)).run s).1 =
          (name, ((share v).run s).1) :: rest := by
        rw [Keyed.put, if_pos same, shareFields, shareFields_shallow shallow.2]
        rfl
      rw [kept, Keyed.put, Keyed.put, if_pos same, if_pos same]
    · have kept : ((shareFields (Keyed.put ((name, u) :: rest) key v)).run s).1 =
          (name, u) :: ((shareFields (Keyed.put rest key v)).run s).1 := by
        rw [Keyed.put, if_neg same, shareFields, share_bare shallow.1]
        rfl
      rw [kept, Keyed.put, Keyed.put, if_neg same, if_neg same, ih shallow.2]

/-- One entry with the value under a text stored anew. -/
def restored (key : String) (w : Datum) (entry : Datum × Datum) : Datum × Datum :=
  if Value.isText key entry.1 then (entry.1, w) else entry

private theorem restored_shareEntries {entries : List (Datum × Datum)}
    (shallow : ∀ entry ∈ entries, entry.2.isContainer = false) (key : String) (v w : Datum) (s : Store) :
    ((shareEntries (entries.map (restored key v))).run s).1.map (restored key w) =
      entries.map (restored key w) := by
  induction entries generalizing s with
  | nil => rfl
  | cons entry rest ih =>
    rw [List.forall_mem_cons] at shallow
    have kept : ((shareEntries ((entry :: rest).map (restored key v))).run s).1 =
        (entry.1, ((share (restored key v entry).2).run s).1) ::
          ((shareEntries (rest.map (restored key v))).run
            ((share (restored key v entry).2).run s).2).1 := by
      unfold restored
      rw [List.map_cons]
      split <;> rfl
    rw [kept, List.map_cons, ih shallow.2, List.map_cons]
    congr 1
    by_cases text : Value.isText key entry.1
    · simp [restored, text]
    · have same : restored key v entry = entry := if_neg text
      rw [same, share_bare shallow.1]
      rfl

private theorem keys_shareEntries (entries : List (Datum × Datum)) (s : Store) :
    ((shareEntries entries).run s).1.map Prod.fst = entries.map Prod.fst := by
  induction entries generalizing s with
  | nil => rfl
  | cons entry rest ih => exact congrArg (entry.1 :: ·) (ih _)

private theorem keys_restored (key : String) (v : Datum) (entries : List (Datum × Datum)) :
    (entries.map (restored key v)).map Prod.fst = entries.map Prod.fst := by
  rw [List.map_map]
  refine List.map_congr_left fun entry _ => ?_
  unfold restored
  rw [Function.comp_apply]
  split <;> rfl

private theorem withMember_present {entries : List (Datum × Datum)}
    (present : (entries.map Prod.fst).any (Value.isText key)) (v : Datum) :
    (Value.table entries).withMember key v = .table (entries.map (restored key v)) := by
  rw [List.any_map] at present
  exact if_pos present

/-- To store under a key is to store anew, once the key is there. -/
theorem withMember_table {entries : List (Datum × Datum)}
    (shallow : ∀ entry ∈ entries, entry.2.isContainer = false) (key : String) :
    ∃ base : List (Datum × Datum), (∀ entry ∈ base, entry.2.isContainer = false) ∧
      (base.map Prod.fst).any (Value.isText key) ∧
      ∀ v, (Value.table entries).withMember key v = .table (base.map (restored key v)) := by
  by_cases present : (entries.map Prod.fst).any (Value.isText key)
  · exact ⟨entries, shallow, present, withMember_present present⟩
  · rw [List.any_map] at present
    refine ⟨entries ++ [(.str key, .null)], ?_, by simp [Value.isText], fun v => ?_⟩
    · intro entry member
      rcases List.mem_append.mp member with before | last
      · exact shallow entry before
      · rw [List.mem_singleton.mp last]
        rfl
    · have others : entries.map (restored key v) = entries := by
        refine (List.map_congr_left fun entry member => ?_).trans (List.map_id entries)
        exact if_neg fun text => present (List.any_eq_true.mpr ⟨entry, member, text⟩)
      have last : restored key v (.str key, .null) = (.str key, v) := if_pos (by simp [Value.isText])
      rw [List.map_append, others, List.map_singleton, last]
      exact if_neg present

/-- To keep the value under a key leaves the rest of a shallow object. -/
theorem alikeBut_shareInside (object : content.entries?.isSome) (shallow : Shallow content)
    (key : String) (v : Datum) (s : Store) :
    AlikeBut key ((shareInside (content.withMember key v)).run s).1 content := by
  intro w
  cases content with
  | object fields =>
    refine congrArg Value.object (put_shareFields (fun field member => ?_) key v w s)
    exact shallow _ (List.mem_map.mpr ⟨field, member, rfl⟩)
  | table entries =>
    have plain : ∀ entry ∈ entries, entry.2.isContainer = false := shallow
    obtain ⟨base, kept, present, stored⟩ := withMember_table plain key
    rw [stored, stored, ← restored_shareEntries kept key v w s]
    have keys : ((shareEntries (base.map (restored key v))).run s).1.map Prod.fst = base.map Prod.fst :=
      (keys_shareEntries _ s).trans (keys_restored key v base)
    exact withMember_present (keys ▸ present) w
  | _ => cases object

end Store

/-! ## One request -/

namespace Act

variable {g h kept : Graph} {id : ClientId} {c : HttpClient} {method : String} {route : Route}
  {content params : Datum} {page : Response} {sent : List HttpRequest} {result : Except Failure Response}

/-- Without a reply the client stays as it is. -/
theorem requested_unanswered (serves : g.clients[id]? = some (.http c)) (unanswered : c.replies = [])
    (request : HttpRequest) :
    { g with exchanges := g.exchanges.push (.http id request) } = g.requested id c request := by
  have same : c.answered = c := by
    unfold HttpClient.answered
    rw [unanswered, List.tail_nil, ← unanswered]
  have clients : g.clients.setIfInBounds id (.http c) = g.clients := by
    obtain ⟨inside, there⟩ := Array.getElem?_eq_some_iff.mp serves
    rw [← there]
    simp [Array.setIfInBounds, inside]
  unfold requested
  rw [same, clients]

private theorem runIn_sentTree (named : Keyed Datum) (others : List (Datum × Datum)) (g : Graph) :
    runIn (sentTree named others) g = (g.store.sentTree named others, g) := by
  unfold sentTree Store.sentTree
  split
  · rfl
  · rw [runIn_bind, runIn_tree]
    cases g.store.shownTree? _ <;> rfl

/-- To send parameters notes what they are sent as, uses up the answer, and gives what it says. -/
theorem runIn_send (serves : g.clients[id]? = some (.http c)) (method : String) (route : Route)
    (params : Datum) :
    runIn (send id c method route params) g =
      match c.spelled route g.store params with
      | .error f => (.error f, g)
      | .ok request =>
        match c.answer method with
        | .error f => (.error f, g.requested id c request)
        | .ok payload =>
          runIn (do return ⟨← receive payload, params⟩) (g.requested id c request) := by
  unfold send entriesOf HttpClient.spelled
  rw [runIn_bind, runIn_bind, runIn_get]
  dsimp only
  cases Value.entries g.store.opened params with
  | error fault => rfl
  | ok entries =>
    dsimp only
    rw [runIn_pure]
    dsimp only
    rw [runIn_bind_ok (runIn_get g), runIn_bind, runIn_liftResult]
    cases c.address route g.store.textOf
      (splitEntries ((Value.ofEntries entries).entries?.getD [])).1 with
    | error f => rfl
    | ok addressed =>
      dsimp only
      rw [runIn_bind, runIn_sentTree]
      cases g.store.sentTree addressed.2
        (splitEntries ((Value.ofEntries entries).entries?.getD [])).2 with
      | error f => rfl
      | ok sent =>
        dsimp only [Except.map]
        rw [runIn_bind, runIn_note]
        unfold HttpClient.answer
        cases left : c.replies with
        | nil =>
          have still := requested_unanswered serves left (c.request route addressed.1 sent)
          dsimp only
          rw [← still]
          rfl
        | cons reply rest =>
          have used : c.answered = { c with replies := rest } := by
            unfold HttpClient.answered
            rw [left]
            rfl
          unfold requested
          rw [used]
          dsimp only
          rw [runIn_bind_ok (runIn_replaceClient _ _ _), runIn_bind, runIn_liftResult]
          cases reply.read method <;> rfl

private theorem requests_of_send (keeps : runIn (share content) g = (.ok params, kept))
    (serves : kept.clients[id]? = some (.http c)) (method : String) (route : Route) :
    ∃ sent, g.Requests id method route content (runIn (send id c method route params) kept).1 sent
      (runIn (send id c method route params) kept).2 := by
  rw [runIn_send serves]
  cases spelled : c.spelled route kept.store params with
  | error f => exact ⟨_, .unsent keeps serves spelled⟩
  | ok request =>
    dsimp only
    cases answer : c.answer method with
    | error f => exact ⟨_, .refused keeps serves spelled answer⟩
    | ok payload => exact ⟨_, .given keeps serves spelled answer rfl⟩

end Act

/-- Between the graphs these requests were sent, one after another. Nothing that was there has
changed but clients. -/
structure Graph.Sends (id : ClientId) (sent : List HttpRequest) (g h : Graph) : Prop where
  store : g.store.Grows h.store
  types : h.types = g.types
  resources : h.resources = g.resources
  enumerations : h.enumerations = g.enumerations
  exchanges : h.exchanges.toList = g.exchanges.toList ++ sent.map (.http id)

namespace Graph

variable {g h mid : Graph} {id : ClientId} {method : String} {route : Route} {content : Datum}
  {result : Except Failure Response} {sent more : List HttpRequest} {page : Response}

theorem Sends.trans (first : g.Sends id sent mid) (second : mid.Sends id more h) :
    g.Sends id (sent ++ more) h where
  store := Store.grows_lasting.trans first.store second.store
  types := second.types.trans first.types
  resources := second.resources.trans first.resources
  enumerations := second.enumerations.trans first.enumerations
  exchanges := by rw [second.exchanges, first.exchanges, List.map_append, List.append_assoc]

/-- Work on the store that only adds to it sends nothing. -/
theorem Sends.of_store {s : Store} (id : ClientId) (grows : g.store.Grows s) :
    g.Sends id [] { g with store := s } :=
  ⟨grows, rfl, rfl, rfl, (List.append_nil _).symm⟩

private theorem sends_lasting (id : ClientId) : Lasting (Sends id []) where
  refl g := .of_store id (Store.grows_lasting.refl g.store)
  trans first second := first.trans second

private theorem share_sends (id : ClientId) (v : Datum) : Keeps (Sends id []) (Act.share v) :=
  fun g => .of_store id (share_adds v g.store).cells

private theorem requested_sends (g : Graph) (id : ClientId) (c : HttpClient) (request : HttpRequest) :
    g.Sends id [request] (g.requested id c request) where
  store := Store.grows_lasting.refl g.store
  types := rfl
  resources := rfl
  enumerations := rfl
  exchanges := Array.toList_push

namespace Requests

theorem sends (requests : g.Requests id method route content result sent h) : g.Sends id sent h := by
  cases requests with
  | unsent keeps serves spelled => exact (share_sends id content).related keeps
  | refused keeps serves spelled answer =>
    exact ((share_sends id content).related keeps).trans (requested_sends _ _ _ _)
  | given keeps serves spelled answer received =>
    have last := (share_sends id _).related received
    exact ((share_sends id content).related keeps).trans ((requested_sends _ _ _ _).trans last)

private theorem length_sent (requests : g.Requests id method route content result sent h) :
    sent.length ≤ 1 := by
  cases requests <;> simp

/-- The client is one over HTTP afterwards, too. -/
theorem serves (requests : g.Requests id method route content result sent h) :
    ∃ c, h.clients[id]? = some (.http c) := by
  have still {kept : Graph} {c : HttpClient} (serves : kept.clients[id]? = some (.http c))
      (request : HttpRequest) :
        (kept.requested id c request).clients[id]? = some (.http c.answered) := by
    obtain ⟨inside, _⟩ := Array.getElem?_eq_some_iff.mp serves
    exact Array.getElem?_setIfInBounds_self_of_lt inside
  cases requests with
  | unsent keeps serves spelled => exact ⟨_, serves⟩
  | refused keeps serves spelled answer => exact ⟨_, still serves _⟩
  | @given c params data kept h request payload keeps serves spelled answer received =>
    cases received
    exact ⟨_, still serves request⟩

/-- The parameters of the response are the object that was made for the request. -/
theorem keepsAs (object : content.entries?.isSome)
    (requests : g.Requests id method route content (.ok page) sent h) :
    h.store.KeepsAs page.params ((shareInside content).run g.store).1 := by
  cases requests with
  | @given c params data kept h request payload keeps serves spelled answer received =>
    have there := share_keepsAs object g.store
    cases keeps
    exact there.grows (((share_sends id _).related received).store)

end Requests

end Graph

/-! ## One step -/

/-- The pages that a paging has where the call stands. -/
def Cursor.pages (route : Route) : Cursor → Pages
  | .start => .unasked
  | .after _ last => .after route last

/-- The parameters of the last page are those of the first, but for the token. -/
def Store.Resembles (s : Store) (route : Route) (first last : Response) : Prop :=
  ∃ held latest, s.KeepsAs first.params held ∧ held.entries?.isSome ∧ Shallow held ∧
    s.KeepsAs last.params latest ∧
    ∀ pagination, route.pagination = some pagination → AlikeBut pagination.inputToken latest held

theorem Store.Resembles.grows {s t : Store} {route : Route} {first last : Response}
    (resembles : s.Resembles route first last) (grows : s.Grows t) : t.Resembles route first last := by
  obtain ⟨held, latest, one, object, shallow, other, alike⟩ := resembles
  exact ⟨held, latest, one.grows grows, object, shallow, other.grows grows, alike⟩

/-- A paginated call of a client over HTTP stands at a cursor. -/
structure Cursor.Stands (client : ClientId) (method : String) (route : Route) (params : Datum)
    (given : List (Datum × Datum)) (cursor : Cursor) (g : Graph) : Prop where
  serves : ∃ c, g.clients[client]? = some (.http c) ∧ (cursor = .start → c.route method = .ok route)
  given : cursor = .start → Value.entries g.store.opened params = .ok given
  resembles : ∀ first last, cursor = .after first last → g.store.Resembles route first last

namespace Act

variable {g h : Graph} {x : EnumerationId} {client : ClientId} {method : String} {route : Route}
  {params : Datum} {given : List (Datum × Datum)} {cursor : Cursor}

private theorem due_keeps {R : Graph → Graph → Prop} (lasting : Lasting R)
    (searches : ∀ path v, Keeps R (search path v)) (route : Route) (given : List (Datum × Datum))
    (cursor : Cursor) : Keeps R (route.due given cursor) := by
  unfold Route.due
  split
  · exact .pure lasting _
  · split
    · exact .pure lasting _
    · refine .bind lasting (searches _ _) fun token => ?_
      refine .bind lasting ((opened_looks token).keeps lasting) fun found => ?_
      split
      · exact .pure lasting _
      · exact .bind lasting ((opened_looks _).keeps lasting) fun _ => .pure lasting _

theorem due_sends (id : ClientId) (route : Route) (given : List (Datum × Datum)) (cursor : Cursor) :
    Keeps (Sends id []) (route.due given cursor) :=
  due_keeps (sends_lasting id) (fun _ _ g => .of_store id (search_grows _ _ g)) route given cursor

private theorem due_clients (route : Route) (given : List (Datum × Datum)) (cursor : Cursor)
    (g : Graph) :
    (runIn (route.due given cursor) g).2.clients = g.clients :=
  clients_of_storing
    (fun storing => due_keeps storing.lasting (search_keeps storing) route given cursor) g

/-- The next page is the one that is due. -/
theorem runIn_nextPage_due {c : HttpClient} (stands : cursor.Stands client method route params given g)
    (serves : g.clients[client]? = some (.http c)) :
    runIn (nextPage ⟨client, method, params, cursor.pages route⟩) g =
      match runIn (route.due given cursor) g with
      | (.ok (some content), h) =>
        runIn (do sentPage ⟨client, method, params, cursor.pages route⟩ c route (← share content)) h
      | (.ok none, h) => (.ok none, h)
      | (.error f, h) => (.error f, h) := by
  have found : runIn (Act.client client) g = (.ok (.http c), g) := Act.client_runs serves
  unfold nextPage
  rw [runIn_bind_ok found]
  cases cursor with
  | start =>
    obtain ⟨d, still, routed⟩ := stands.serves
    obtain rfl : d = c := by
      rw [serves] at still
      cases still
      rfl
    have entered : runIn (entriesOf params) g = (.ok given, g) := by
      unfold entriesOf
      rw [runIn_bind_ok (runIn_get g), stands.given rfl]
      rfl
    have routes : runIn (lift (d.route method)) g = (.ok route, g) := by
      rw [routed rfl]
      rfl
    dsimp only [Cursor.pages]
    rw [runIn_bind_ok routes]
    unfold objectOf
    rw [runIn_bind, runIn_bind_ok entered]
    change _ = runIn (share (Value.ofEntries given) >>= _) g
    rw [runIn_bind]
  | after first last =>
    dsimp only [Cursor.pages]
    unfold Route.due
    cases paginated : route.pagination with
    | none => rfl
    | some pagination =>
      dsimp only
      unfold nextToken
      have grows := search_grows pagination.outputToken last.data g
      rw [runIn_bind, runIn_bind, runIn_bind]
      rcases ran : runIn (search pagination.outputToken last.data) g with ⟨f | token, mid⟩
      · rfl
      · obtain ⟨held, latest, one, object, shallow, other, alike⟩ :=
          (stands.resembles first last rfl).grows (ran ▸ grows)
        dsimp only
        rw [runIn_bind_ok (runIn_opened token mid), runIn_bind_ok (runIn_opened token mid)]
        by_cases blank : (mid.store.opened token).isEmpty
        · rw [if_pos blank, if_pos blank]
          rfl
        · rw [if_neg blank, if_neg blank]
          have same : (mid.store.opened last.params).withMember pagination.inputToken token =
              (mid.store.opened first.params).withMember pagination.inputToken token := by
            rw [other.opened, one.opened]
            exact alike pagination paginated token
          have asked : runIn (nextParams pagination last token) mid =
              runIn (share ((mid.store.opened first.params).withMember
                pagination.inputToken token)) mid :=
            same ▸ rfl
          change runIn (nextParams pagination last token >>= _) mid = runIn (share _ >>= _) mid
          rw [runIn_bind, runIn_bind, asked]

/-- Every page has one element, the page itself. -/
theorem runIn_seek_responses (context : Context) (limit : Nat) (p : Paging) (g : Graph) :
    runIn (seek .responses context (limit + 1) p) g =
      match runIn (nextPage p) g with
      | (.ok (some (page, further)), h) => (.ok (some (.response page, further, .elements [])), h)
      | (.ok none, h) => (.ok none, h)
      | (.error f, h) => (.error f, h) := by
  unfold seek
  rw [runIn_bind]
  rcases runIn (nextPage p) g with ⟨_ | _ | ⟨page, further⟩, h⟩ <;> rfl

/-- The next element of an enumeration of pages is the next page. -/
theorem runIn_next_responses {context : Context} {p : Paging} {c : Client}
    (there : g.enumerations[x]? = some ⟨.responses, context, .exhausted⟩)
    (serves : g.clients[p.client]? = some c) :
    runIn (next x) (g.withProgress x (.under p (.elements []))) =
      match runIn (nextPage p) g with
      | (.ok (some (page, further)), h) =>
        (.ok (some (.response page)), h.withProgress x (.under further (.elements [])))
      | (.ok none, h) => (.ok none, h)
      | (.error f, h) => (.error f, h) := by
  have found : runIn (client p.client) g = (.ok c, g) := client_runs serves
  have begun : runIn (setProgress x .exhausted) g = (.ok (), g) := by
    rw [runIn_setProgress, withProgress_self (e := ⟨.responses, context, .exhausted⟩) there]
  rw [runIn_next_under there rfl]
  unfold takeReady
  dsimp only
  rw [runIn_pure]
  dsimp only
  unfold advance
  rw [runIn_bind_ok begun, runIn_bind_ok (runIn_pure p g), runIn_bind_ok found, runIn_bind]
  rw [runIn_seek_responses]
  rcases runIn (nextPage p) g with ⟨_ | _ | ⟨page, further⟩, h⟩ <;> rfl

private theorem object_ofEntries (entries : List (Datum × Datum)) :
    (Value.ofEntries entries).entries?.isSome := by
  unfold Value.ofEntries
  dsimp only
  split <;> rfl

private theorem object_withMember {content : Datum} (object : content.entries?.isSome) (key : String)
    (v : Datum) :
    (content.withMember key v).entries?.isSome := by
  cases content with
  | object fields => rfl
  | table entries =>
    unfold Value.withMember
    dsimp only
    split <;> rfl
  | _ => cases object

/-- A page that was given is where the call stands next. -/
theorem stands_turned {content : Datum} {mid : Graph} {page : Response} {sent : List HttpRequest}
    (stands : cursor.Stands client method route params given g)
    (due : runIn (route.due given cursor) g = (.ok (some content), mid))
    (requests : mid.Requests client method route content (.ok page) sent h) :
    (cursor.turned page).Stands client method route params given h := by
  have serves : ∃ c, h.clients[client]? = some (.http c) := requests.serves
  cases cursor with
  | start =>
    cases due
    have kept := requests.keepsAs (object_ofEntries given)
    refine ⟨serves.imp fun c there => ⟨there, nofun⟩, nofun, fun first last same => ?_⟩
    cases same
    exact ⟨_, _, kept, object_shareInside (object_ofEntries given) _, shallow_shareInside _ _, kept,
      fun _ _ _ => rfl⟩
  | after first last =>
    refine ⟨serves.imp fun c there => ⟨there, nofun⟩, nofun, fun first' last' same => ?_⟩
    cases same
    have sends := ((due_sends client route given (.after first last)).related due).trans requests.sends
    obtain ⟨held, latest, one, object, shallow, other, alike⟩ := stands.resembles first last rfl
    unfold Route.due at due
    cases paginated : route.pagination with
    | none =>
      rw [paginated] at due
      cases due
    | some pagination =>
      rw [paginated] at due
      obtain ⟨token, found, searched, rest⟩ := bind_gives.mp due
      have still : found.store.KeepsAs first.params held :=
        one.grows ((search_grows _ _).related searched)
      rw [runIn_bind_ok (runIn_opened token found)] at rest
      split at rest
      · cases rest
      · rw [runIn_bind_ok (runIn_opened _ found), still.opened] at rest
        cases rest
        have kept := requests.keepsAs (object_withMember object pagination.inputToken token)
        refine ⟨held, _, one.grows sends.store, object, shallow, kept, fun other same => ?_⟩
        obtain rfl : pagination = other := by
          rw [paginated] at same
          cases same
          rfl
        exact alikeBut_shareInside object shallow pagination.inputToken token _

end Act

/-! ## The course -/

namespace HttpCourse

variable {client : ClientId} {method : String} {route : Route} {given : List (Datum × Datum)}
  {cursor : Cursor} {g h : Graph} {answers : List (Except Failure (Option Element))}
  {requests : List HttpRequest}

private theorem sends (course : HttpCourse client method route given cursor g answers requests h) :
    g.Sends client requests h := by
  induction course with
  | unasked => exact (sends_lasting client).refl _
  | page due requested further ih =>
    exact ((Act.due_sends client route given _).related due).trans (requested.sends.trans ih)
  | failed due requested =>
    exact ((Act.due_sends client route given _).related due).trans requested.sends
  | broken due => exact (Act.due_sends client route given _).related due
  | ended due => exact (Act.due_sends client route given _).related due

private theorem length_requests
    (course : HttpCourse client method route given cursor g answers requests h) :
    requests.length ≤ answers.length := by
  induction course with
  | unasked => exact Nat.le_refl 0
  | page due requested further ih =>
    have one := requested.length_sent
    rw [List.length_append, List.length_cons]
    omega
  | failed due requested => exact Nat.le_trans requested.length_sent (by simp)
  | broken due => exact Nat.zero_le _
  | ended due => exact Nat.zero_le _

end HttpCourse

namespace Act

variable {g : Graph} {x : EnumerationId} {client : ClientId} {method : String} {route : Route}
  {params : Datum} {given : List (Datum × Datum)}

/-- A step that leaves the call exhausted, and those after it. -/
theorem runEach_ended {e : Enumeration} {before after : Graph} {result : Except Failure (Option Element)}
    (stepped : runIn (next x) before = (result, after)) (there : after.enumerations[x]? = some e)
    (ended : e.progress = .exhausted) (n : Nat) :
    runEach (List.replicate (n + 1) (next x)) before =
      (result :: List.replicate n (.ok none), after.withProgress x .exhausted) := by
  have same : after.withProgress x .exhausted = after := by
    refine withProgress_self (e := e) ?_
    rw [there, ← ended]
  rw [List.replicate_succ, runEach, stepped]
  dsimp only
  rw [runEach_exhausted there ended, same]

/-- The call is asked for its pages so many times, where it stands at a cursor. -/
theorem course_of_steps (n : Nat) {cursor : Cursor}
    (there : g.enumerations[x]? = some ⟨.responses, { caller := none }, .exhausted⟩)
    (stands : cursor.Stands client method route params given g) :
    ∃ answers requests last progress,
      HttpCourse client method route given cursor g answers requests last ∧
      runEach (List.replicate n (next x))
        (g.withProgress x (.under ⟨client, method, params, cursor.pages route⟩ (.elements []))) =
          (answers, last.withProgress x progress) := by
  induction n generalizing g cursor with
  | zero => exact ⟨_, _, _, _, .unasked, rfl⟩
  | succ n ih =>
    obtain ⟨c, serves, _⟩ := stands.serves
    have stepped := runIn_next_responses
      (p := ⟨client, method, params, cursor.pages route⟩) there serves
    rw [runIn_nextPage_due stands serves] at stepped
    have quiet := due_sends client route given cursor g
    have still := due_clients route given cursor g
    rcases due : runIn (route.due given cursor) g with ⟨f | _ | content, mid⟩ <;>
      rw [due] at stepped quiet still <;> dsimp only at stepped
    · exact ⟨_, _, _, _, .broken due,
        runEach_ended stepped ((congrArg (·[x]?) quiet.enumerations).trans there) rfl n⟩
    · exact ⟨_, _, _, _, .ended due,
        runEach_ended stepped ((congrArg (·[x]?) quiet.enumerations).trans there) rfl n⟩
    · obtain ⟨params', kept, keeps⟩ : ∃ params' kept, runIn (share content) mid = (.ok params', kept) :=
        ⟨_, _, rfl⟩
      have served : kept.clients[client]? = some (.http c) := by
        cases keeps
        rw [← serves, ← still]
      obtain ⟨sent, requests⟩ := requests_of_send keeps served method route
      rw [runIn_bind_ok keeps] at stepped
      unfold sentPage at stepped
      rw [runIn_bind] at stepped
      have enumerations := (quiet.trans requests.sends).enumerations
      rcases answered : runIn (send client c method route params') kept with ⟨f | page, h⟩ <;>
        rw [answered] at stepped requests enumerations <;> dsimp only at stepped
      · exact ⟨_, _, _, _, .failed due requests,
          runEach_ended stepped ((congrArg (·[x]?) enumerations).trans there) rfl n⟩
      · have exhausted := (congrArg (·[x]?) enumerations).trans there
        obtain ⟨answers, others, last, progress, course, ran⟩ :=
          ih exhausted (stands_turned stands due requests)
        refine ⟨_, _, last, progress, .page due requests course, ?_⟩
        have turned : (cursor.turned page).pages route = .after route page := by cases cursor <;> rfl
        rw [turned] at ran
        rw [runIn_pure] at stepped
        rw [List.replicate_succ, runEach, stepped]
        dsimp only at ran ⊢
        rw [ran]

end Act

/-- The graph in which a paginated call is begun and has come so far. -/
def Graph.paginating (g : Graph) (progress : Progress) : Graph :=
  { g with enumerations := g.enumerations.push ⟨.responses, { caller := none }, progress⟩ }

theorem Graph.paginating_withProgress (g : Graph) (first second : Progress) :
    (g.paginating first).withProgress g.enumerations.size second = g.paginating second := by
  have same : (g.enumerations.push ⟨.responses, { caller := none }, first⟩).modify g.enumerations.size
      (fun e => { e with progress := second }) =
        g.enumerations.push ⟨.responses, { caller := none }, second⟩ := by
    refine Array.ext_getElem? fun i => ?_
    rw [Array.getElem?_modify, Array.getElem?_push, Array.getElem?_push]
    by_cases last : i = g.enumerations.size
    · simp [last]
    · rw [if_neg (Ne.symm last), if_neg last, if_neg last]
  unfold withProgress paginating
  rw [same]

/-- **A paginated call over HTTP gives the pages of its course.** To begin it sends nothing. Asked
for so many pages, it gives what the course of the given parameters gives, and has sent no other
requests than the course, at most one each time; and nothing that was there before has changed,
neither the given parameters nor any other data. -/
theorem Graph.pages_of_paginate {g : Graph} {client : ClientId} {method : String} {params : Datum}
    {c : HttpClient} {route : Route} {given : List (Datum × Datum)}
    (serves : g.clients[client]? = some (.http c)) (routed : c.route method = .ok route)
    (mapping : Value.entries g.store.opened params = .ok given) :
    let x := g.enumerations.size
    let start := g.paginating (.under { client, method, params } (.elements []))
    runIn (Act.paginate client method params) g = (.ok x, start) ∧
      ∀ n, ∃ answers requests last progress,
        runEach (List.replicate n (Act.next x)) start = (answers, last.withProgress x progress) ∧
          HttpCourse client method route given .start (g.paginating .exhausted) answers requests last ∧
          requests.length ≤ n ∧ (g.paginating .exhausted).Sends client requests last := by
  refine ⟨rfl, fun n => ?_⟩
  have there : (g.paginating .exhausted).enumerations[g.enumerations.size]? =
      some ⟨.responses, { caller := none }, .exhausted⟩ := Array.getElem?_push_size
  have begun := g.paginating_withProgress .exhausted (.under { client, method, params } (.elements []))
  have stands : Cursor.start.Stands client method route params given (g.paginating .exhausted) :=
    ⟨⟨c, serves, fun _ => routed⟩, fun _ => mapping, nofun⟩
  obtain ⟨answers, requests, last, progress, course, ran⟩ := Act.course_of_steps n there stands
  unfold Cursor.pages at ran
  rw [begun] at ran
  have all := length_runEach (List.replicate n (Act.next g.enumerations.size))
    (g.paginating (.under { client, method, params } (.elements [])))
  rw [ran, List.length_replicate] at all
  exact ⟨answers, requests, last, progress, ran, course, all ▸ course.length_requests, course.sends⟩

/-- Users by a path, page by page. -/
def Graph.paged : Graph where
  clients := #[.http {
    base := "https://api.example.com"
    routes := [("list_users", ⟨"get", "/users", some ⟨"Marker", "NextMarker"⟩⟩)]
    replies := [.answer 200 "\x7b\"NextMarker\": \"m1\"\x7d", .answer 200 "\x7b\"NextMarker\": \"\"\x7d",
      .answer 200 "\x7b\x7d"] }]

/-- The second page is the last one, and is requested with the token of the first. -/
theorem Graph.pages_of_paginate_paged :
    ∃ answers requests last, HttpCourse 0 "list_users" ⟨"get", "/users", some ⟨"Marker", "NextMarker"⟩⟩
        [(.str "PathPrefix", .str "/")] .start (paged.paginating .exhausted) answers requests last ∧
      requests.map (Exchange.http 0) = [
        .http 0 ⟨"GET", "https://api.example.com/users",
          some (.object [("PathPrefix", .str "/")]), none, []⟩,
        .http 0 ⟨"GET", "https://api.example.com/users",
          some (.object [("PathPrefix", .str "/"), ("Marker", .str "m1")]), none, []⟩] := by
  have lawful :=
    @pages_of_paginate paged 0 "list_users" (.object [("PathPrefix", .str "/")]) _ _ _ rfl rfl rfl
  obtain ⟨answers, requests, last, progress, ran, course, few, sends⟩ := lawful.2 4
  have all : (runEach (List.replicate 4 (Act.next 0))
      (paged.paginating (.under ⟨0, "list_users", .object [("PathPrefix", .str "/")], .unasked⟩
        (.elements [])))).2.exchanges.toList = requests.map (.http 0) := by
    rw [show paged.enumerations.size = 0 from rfl] at ran
    rw [ran]
    exact sends.exchanges
  refine ⟨answers, requests, last, course, ?_⟩
  rw [← all]
  decide +kernel

end ResourceGraph
