import ResourceGraph.Proofs.Passing

/-!
Building the parameters of a request again. What is built is made of a copy of the caller's
parameters, of the identifiers and the data of the resource, which lie in the store, and of what
paths find there. As long as no write passes through a container that was there before, or that a
path writes out, the same request builds the same parameters in every store that has all that the
first time left.
-/

namespace ResourceGraph

open ResourceGraph.Store ResourceGraph.Path

variable {identifiers : Keyed Datum} {data data' : Datum} {kept : Share → Prop} {m : Relocation}
    {origin s t : Store}

/-! ## Building on the store -/

namespace Projection

/-- The value of a projection, for a resource with these identifiers and this data. -/
def reading (p : Projection) (identifiers : Keyed Datum) (data : Datum) : Search Datum :=
  match p.source with
  | .text s => pure (.str s)
  | .integer n => pure (.int n)
  | .flag b => pure (.bool b)
  | .identifier (.str name) =>
    match Keyed.get? identifiers name with
    | some v => pure v
    | none => throw (.misuse .missingKey)
  | .identifier (.list _) | .identifier (.object _) => throw (.misuse .unhashable)
  | .identifier _ => throw (.misuse .missingKey)
  | .dataMember path =>
    match Act.pathText path with
    | .ok text => Path.search text data
    | .error f => throw f

/-- Writes the value of a projection into parameters. -/
def applying (p : Projection) (identifiers : Keyed Datum) (data : Datum) (params : Keyed Datum) :
    Search (Keyed Datum) := do
  let value ← p.reading identifiers data
  let edited ← (ExceptT.lift (Store.write p.target.address value params) : Search _)
  match edited.fault with
  | none => pure edited.after
  | some fault => throw (.write fault)

/-- Writes the values of projections into parameters. -/
def applyingAll (identifiers : Keyed Datum) (data : Datum) (projections : List Projection)
    (params : Keyed Datum) :
    Search (Keyed Datum) :=
  projections.foldlM (fun params p => p.applying identifiers data params) params

/-- What the path of a projection writes out when it is searched. -/
def WrittenOut (p : Projection) (s : Store) (share : Share) : Prop :=
  ∃ path, p.source = .dataMember (.str path) ∧ Store.WrittenOut path s share

end Projection

/-- The parameters that are kept at last: a table where there are entries whose keys are no texts. -/
def Act.paramsOf (built : Keyed Datum) (others : List (Datum × Datum)) : Datum :=
  if others.isEmpty then .object built else .table (built.map (fun (key, v) => (.str key, v)) ++ others)

/-- The parameters that are built, for a resource with these identifiers and this data. -/
def Request.building (request : Request) (identifiers : Keyed Datum) (data : Datum) (given : Json) :
    Search Datum :=
  match Act.copyParams given with
  | .error f => throw f
  | .ok (start, others) => do
    let built ← Projection.applyingAll identifiers data request.params start
    ExceptT.lift (Store.share (Act.paramsOf built others))

/-- No write of the projections passes through what is kept, to which belongs what their paths write
out. -/
def Projection.Spare (identifiers : Keyed Datum) (data : Datum) :
    (Share → Prop) → List Projection → Keyed Datum → Store → Prop
  | _, [], _, _ => True
  | kept, p :: rest, params, s =>
    let kept' := fun share => kept share ∨ p.WrittenOut s share
    ∀ value t, runIn (p.reading identifiers data) s = (.ok value, t) →
      (∀ share ∈ t.passed params p.target.address, ¬ kept' share) ∧
        ∀ next u, runIn (p.applying identifiers data params) s = (.ok next, u) →
          Spare identifiers data kept' rest next u

/-- To build the parameters writes only into what it makes itself: no write passes through a
container that was there before, or that a path writes out. -/
def Request.Spares (request : Request) (identifiers : Keyed Datum) (data : Datum) (s : Store)
    (given : Json) : Prop :=
  ∀ start others, Act.copyParams given = .ok (start, others) →
    Projection.Spare identifiers data s.Within request.params start s

/-! ## What building leaves alone -/

namespace Projection

variable {p : Projection} {params : Keyed Datum}

private theorem reading_extends (p : Projection) (identifiers : Keyed Datum) (data : Datum) :
    Keeps Extends (p.reading identifiers data) := by
  unfold reading
  split
  · exact .pure extends_lasting _
  · exact .pure extends_lasting _
  · exact .pure extends_lasting _
  · split
    · exact .pure extends_lasting _
    · exact .throw extends_lasting _
  · exact .throw extends_lasting _
  · exact .throw extends_lasting _
  · exact .throw extends_lasting _
  · split
    · exact search_extends _ _
    · exact .throw extends_lasting _

/-- How the writing of a projection goes: its value cannot be read, or it is written. -/
theorem runIn_applying (p : Projection) (identifiers : Keyed Datum) (data : Datum)
    (params : Keyed Datum) (s : Store) :
    runIn (p.applying identifiers data params) s =
      match runIn (p.reading identifiers data) s with
      | (.error f, t) => (.error f, t)
      | (.ok value, t) =>
        let written := (Store.write p.target.address value params).run t
        (match written.1.fault with
          | none => .ok written.1.after
          | some fault => .error (.write fault), written.2) := by
  unfold applying
  rw [runIn_bind]
  rcases runIn (p.reading identifiers data) s with ⟨f | value, t⟩
  · rfl
  · dsimp only
    have wrote : runIn (ExceptT.lift (Store.write p.target.address value params) : Search _) t =
        (.ok ((Store.write p.target.address value params).run t).1,
          ((Store.write p.target.address value params).run t).2) := rfl
    rw [runIn_bind_ok wrote]
    cases ((Store.write p.target.address value params).run t).1.fault <;> rfl

theorem runIn_applying_unread {f : Failure}
    (read : runIn (p.reading identifiers data) s = (.error f, t)) :
    runIn (p.applying identifiers data params) s = (.error f, t) := by
  rw [runIn_applying, read]

private theorem runIn_applying_read {value : Datum}
    (read : runIn (p.reading identifiers data) s = (.ok value, t)) :
    runIn (p.applying identifiers data params) s =
      (match ((Store.write p.target.address value params).run t).1.fault with
        | none => .ok ((Store.write p.target.address value params).run t).1.after
        | some fault =>
          .error (.write fault), ((Store.write p.target.address value params).run t).2) := by
  rw [runIn_applying, read]

/-- Writing a projection that spares what is kept retains it, from when its value was read. -/
theorem applying_retains {p : Projection} {rest : List Projection}
    (spare : Spare identifiers data kept (p :: rest) params s) :
    Retains (fun share => kept share ∨ p.WrittenOut s share) (runIn (p.reading identifiers data) s).2
      (runIn (p.applying identifiers data params) s).2 := by
  rcases read : runIn (p.reading identifiers data) s with ⟨f | value, t⟩
  · rw [runIn_applying_unread read]
    exact (retains_lasting _).refl t
  · rw [runIn_applying_read read]
    have alters := write_alters (s := t) p.target.address value params
    refine ⟨alters.size, fun share c within found => alters.cells share c (fun member => ?_) found,
      fun text asked known => by rw [alters.expressions, known]⟩
    exact (spare value t read).1 share member within

private theorem spare_rest {rest : List Projection} {next : Keyed Datum} {u : Store}
    (spare : Spare identifiers data kept (p :: rest) params s)
    (applied : runIn (p.applying identifiers data params) s = (.ok next, u)) :
    Spare identifiers data (fun share => kept share ∨ p.WrittenOut s share) rest next u := by
  rcases read : runIn (p.reading identifiers data) s with ⟨f | value, t⟩
  · rw [runIn_applying_unread read] at applied
    cases applied
  · exact (spare value t read).2 next u applied

/-- Writing projections that spare what is kept retains it. -/
theorem applyingAll_retains {projections : List Projection}
    (spare : Spare identifiers data kept projections params s) :
    Retains kept s (runIn (applyingAll identifiers data projections params) s).2 := by
  induction projections generalizing kept params s with
  | nil => exact (retains_lasting kept).refl s
  | cons p rest ih =>
    have read := (reading_extends p identifiers data s).retains kept
    have written : Retains kept _ _ := (applying_retains spare).mono fun _ => .inl
    have first := (retains_lasting kept).trans read written
    unfold applyingAll
    rw [List.foldlM_cons, runIn_bind]
    rcases ran : runIn (p.applying identifiers data params) s with ⟨f | next, u⟩
    · rw [ran] at first
      exact first
    · rw [ran] at first
      exact (retains_lasting kept).trans first ((ih (spare_rest spare ran)).mono fun _ => .inl)

end Projection

/-- Building is writing the values into a copy, and keeping what comes of it. -/
theorem Request.runIn_building {request : Request} {given : Json} {start : Keyed Datum}
    {others : List (Datum × Datum)} (copied : Act.copyParams given = .ok (start, others)) :
    runIn (request.building identifiers data given) s =
      match runIn (Projection.applyingAll identifiers data request.params start) s with
      | (.ok built, t) => runIn (ExceptT.lift (Store.share (Act.paramsOf built others)) : Search Datum) t
      | (.error f, t) => (.error f, t) := by
  unfold building
  rw [copied]
  dsimp only
  rw [runIn_bind]
  rcases runIn (Projection.applyingAll identifiers data request.params start) s with
    ⟨f | built, t⟩ <;> rfl

/-- Building parameters spares what there was: it is all as it was. -/
theorem Request.building_retains {request : Request} {given : Json}
    (spares : request.Spares identifiers data s given) :
    Retains s.Within s (runIn (request.building identifiers data given) s).2 := by
  cases copied : Act.copyParams given with
  | error f =>
    unfold building
    rw [copied]
    exact (retains_lasting _).refl s
  | ok parts =>
    obtain ⟨start, others⟩ := parts
    have first := Projection.applyingAll_retains (spares start others copied)
    rw [runIn_building copied]
    rcases ran : runIn (Projection.applyingAll identifiers data request.params start) s with
      ⟨f | built, t⟩
    · rw [ran] at first
      exact first
    · rw [ran] at first
      exact (retains_lasting _).trans first
        ((share_adds (Act.paramsOf built others) t).extends.retains _)

/-! ## Building again -/

namespace Relocation

/-- What only kept containers make up is found again as it is. -/
theorem Mirrors.gives {more : Share → Prop} {v : Datum} (mirrors : m.Mirrors kept origin s t)
    (none : ∀ share, ¬ more share) (held : v.Every kept) :
    m.Finds (fun share => kept share ∨ more share) origin s (.ok v, s) (.ok v, t) m := by
  refine ⟨rfl, fun _ _ => rfl, mirrors.also none, ?_, fun w gave => ?_⟩
  · exact congrArg Except.ok (m.moved_eq_self (held.mono mirrors.stays)).symm
  · cases gave
    exact held.mono mirrors.there

theorem Mirrors.fails {more : Share → Prop} (mirrors : m.Mirrors kept origin s t)
    (none : ∀ share, ¬ more share) (f : Failure) :
    m.Finds (fun share => kept share ∨ more share) origin s (.error f, s) (.error f, t) m :=
  ⟨rfl, fun _ _ => rfl, mirrors.also none, rfl, nofun⟩

end Relocation

namespace Projection

variable {p : Projection} {params : Keyed Datum}

/-- The value of a projection is read again the same, from the same data unless it reads none. -/
theorem reading_again (mirrors : m.Mirrors kept origin s t)
    (identified : ∀ entry ∈ identifiers, entry.2.Every kept) (held : data.Every kept)
    (same : data' = data ∨ p.source.kind ≠ .dataMember)
    (later : Retains (fun share => kept share ∨ p.WrittenOut s share)
      (runIn (p.reading identifiers data) s).2 origin)
    (room : (runIn (p.reading identifiers data) s).2.cells.size ≤ m.limit)
    (unread : ∀ text f, compile text = .error f → Keyed.get? origin.expressions text = none) :
    ∃ n, m.Finds (fun share => kept share ∨ p.WrittenOut s share) origin s
      (runIn (p.reading identifiers data) s)
      (runIn (p.reading identifiers data') t) n := by
  have plain : (∀ path, p.source ≠ .dataMember (.str path)) → ∀ share, ¬ p.WrittenOut s share := by
    rintro other share ⟨path, source, -⟩
    exact other path source
  unfold reading at later room ⊢
  cases source : p.source with
  | text text => exact ⟨m, mirrors.gives (plain fun path => by simp [source]) trivial⟩
  | integer n => exact ⟨m, mirrors.gives (plain fun path => by simp [source]) trivial⟩
  | flag b => exact ⟨m, mirrors.gives (plain fun path => by simp [source]) trivial⟩
  | identifier name =>
    have none := plain fun path => by simp [source]
    cases name with
    | str name =>
      dsimp only
      cases found : Keyed.get? identifiers name with
      | none => exact ⟨m, mirrors.fails none _⟩
      | some v => exact ⟨m, mirrors.gives none (identified _ (Keyed.mem_of_get? found))⟩
    | _ => exact ⟨m, mirrors.fails none _⟩
  | dataMember path =>
    obtain rfl := same.resolve_right fun other => other (by rw [source]; rfl)
    cases path with
    | str path =>
      rw [source] at later room
      have written : p.WrittenOut s = Store.WrittenOut path s := by
        funext share
        refine propext ⟨?_, fun there => ⟨path, source, there⟩⟩
        rintro ⟨other, known, there⟩
        rw [source] at known
        cases known
        exact there
      rw [written] at later ⊢
      have found := mirrors.search (held.mono mirrors.there) later room unread
      rwa [m.moved_eq_self (held.mono mirrors.stays)] at found
    | _ =>
      refine ⟨m, ?_⟩
      exact mirrors.fails (plain fun path => by simp [source]) _

/-- What writing values into parameters left in the first store, it leaves in the second one too. -/
structure Applied (m : Relocation) (kept : Share → Prop) (origin : Store)
    (x y : Except Failure (Keyed Datum) × Store)
    (n : Relocation) : Prop where
  limit : n.limit = m.limit
  mirrors : n.Mirrors kept origin x.2 y.2
  same : y.1 = x.1.map (List.map n.movedField)
  within : ∀ params, x.1 = .ok params → ∀ entry ∈ params, entry.2.Every x.2.Within

private theorem applying_again {rest : List Projection} (mirrors : m.Mirrors kept origin s t)
    (identified : ∀ entry ∈ identifiers, entry.2.Every kept) (held : data.Every kept)
    (same : data' = data ∨ p.source.kind ≠ .dataMember)
    (within : ∀ entry ∈ params, entry.2.Every s.Within)
    (spare : Spare identifiers data kept (p :: rest) params s)
    (later : Retains (fun share => kept share ∨ p.WrittenOut s share)
      (runIn (p.applying identifiers data params) s).2 origin)
    (room : (runIn (p.applying identifiers data params) s).2.cells.size ≤ m.limit)
    (unread : ∀ text f, compile text = .error f → Keyed.get? origin.expressions text = none) :
    ∃ n, Applied m (fun share => kept share ∨ p.WrittenOut s share) origin
      (runIn (p.applying identifiers data params) s)
      (runIn (p.applying identifiers data' (params.map m.movedField)) t) n := by
  have retains := applying_retains spare
  obtain ⟨n, finds⟩ :=
    reading_again mirrors identified held same ((retains_lasting _).trans retains later)
    (Nat.le_trans retains.size room) unread
  obtain ⟨limit, agrees, mirrored, found, inside⟩ := finds
  rcases read : runIn (p.reading identifiers data) s with ⟨f | value, mid⟩
  · rcases read' : runIn (p.reading identifiers data') t with ⟨result, mid'⟩
    rw [read, read'] at mirrored found
    dsimp only at mirrored
    change result = .error f at found
    subst found
    rw [runIn_applying_unread read, runIn_applying_unread read']
    exact ⟨n, limit, mirrored, rfl, nofun⟩
  · rcases read' : runIn (p.reading identifiers data') t with ⟨result, mid'⟩
    rw [read, read'] at mirrored found
    rw [read] at inside
    dsimp only at mirrored inside
    change result = .ok (n.moved value) at found
    subst found
    have grown : s.cells.size ≤ mid.cells.size := by
      have extended := reading_extends p identifiers data s
      rw [read] at extended
      exact extended.size_le
    have moved : params.map m.movedField = params.map n.movedField := by
      refine List.map_congr_left fun entry member => ?_
      exact congrArg (Prod.mk entry.1)
        (Relocation.moved_congr
          ((within entry member).mono fun share there => (agrees share there).symm))
    rw [runIn_applying_read read] at room ⊢
    rw [moved, runIn_applying_read read']
    obtain ⟨mirroring, wrote, left⟩ := mirrored.write p.target.address (inside value rfl)
      (fun entry member => (within entry member).mono (within_mono grown)) (limit ▸ room)
      (spare value mid read).1
    refine ⟨n, limit, mirroring, ?_, fun next gave => ?_⟩
    · dsimp only
      rw [wrote]
      unfold Edited.map
      cases ((Store.write p.target.address value params).run mid).1.fault <;> rfl
    · dsimp only at gave
      split at gave
      · cases gave
        exact left
      · cases gave

/-- Writing the values of projections again leaves what it left the first time. -/
theorem applyingAll_again {projections : List Projection} (mirrors : m.Mirrors kept origin s t)
    (identified : ∀ entry ∈ identifiers, entry.2.Every kept) (held : data.Every kept)
    (same : data' = data ∨ ∀ p ∈ projections, p.source.kind ≠ .dataMember)
    (within : ∀ entry ∈ params, entry.2.Every s.Within)
    (spare : Spare identifiers data kept projections params s)
    (later : Extends (runIn (applyingAll identifiers data projections params) s).2 origin)
    (room : (runIn (applyingAll identifiers data projections params) s).2.cells.size ≤ m.limit)
    (unread : ∀ text f, compile text = .error f → Keyed.get? origin.expressions text = none) :
    ∃ n kept', Applied m kept' origin (runIn (applyingAll identifiers data projections params) s)
      (runIn (applyingAll identifiers data' projections (params.map m.movedField)) t) n := by
  induction projections generalizing kept m params s t with
  | nil =>
    refine ⟨m, kept, rfl, mirrors, rfl, fun next gave => ?_⟩
    cases gave
    exact within
  | cons p rest ih =>
    unfold applyingAll at later room ⊢
    rw [List.foldlM_cons, runIn_bind] at later room ⊢
    rw [List.foldlM_cons, runIn_bind]
    have alike := same.imp_right fun others => others p List.mem_cons_self
    rcases ran : runIn (p.applying identifiers data params) s with ⟨f | next, u⟩
    · rw [ran] at later room
      have first := applying_again mirrors identified held alike within spare
        (ran ▸ later.retains _) (ran ▸ room)
        unread
      rw [ran] at first
      obtain ⟨n, applied⟩ := first
      rcases ran' : runIn (p.applying identifiers data' (params.map m.movedField)) t with ⟨result, u'⟩
      rw [ran'] at applied
      obtain rfl : result = .error f := applied.same
      exact ⟨n, _, applied.limit, applied.mirrors, rfl, nofun⟩
    · rw [ran] at later room
      dsimp only at later room
      have others := spare_rest spare ran
      have retained := applyingAll_retains others
      have first := applying_again mirrors identified held alike within spare
        (ran ▸ (retains_lasting _).trans retained (later.retains _))
        (ran ▸ Nat.le_trans retained.size room) unread
      rw [ran] at first
      obtain ⟨n, applied⟩ := first
      rcases ran' : runIn (p.applying identifiers data' (params.map m.movedField)) t with ⟨result, u'⟩
      rw [ran'] at applied
      obtain rfl : result = .ok (next.map n.movedField) := applied.same
      have more : ∀ v : Datum, v.Every kept → v.Every fun share => kept share ∨ p.WrittenOut s share :=
        fun v every => every.mono fun _ => .inl
      obtain ⟨n', kept', rest⟩ :=
        ih applied.mirrors (fun entry member => more _ (identified entry member))
        (more _ held) (same.imp_right fun others p member => others p (List.mem_cons_of_mem _ member))
        (applied.within next rfl) others later (applied.limit ▸ room)
      exact ⟨n', kept', rest.limit.trans applied.limit, rest.mirrors, rest.same, rest.within⟩

end Projection

/-! ## The same parameters -/

/-- Places from a number on are found so much further on. -/
def Relocation.shifted (first last limit : Nat) (later : first ≤ last) : Relocation where
  place share := if share.cell < first then share else ⟨share.cell - first + last⟩
  injective a b same := by
    dsimp only at same
    split at same <;> split at same
    · exact same
    · have := congrArg Share.cell same
      dsimp only at this
      omega
    · have := congrArg Share.cell same
      dsimp only at this
      omega
    · have := congrArg Share.cell same
      dsimp only at this
      cases a
      cases b
      simp only [Share.mk.injEq]
      simp only at *
      omega
  limit

theorem Relocation.mirrors_shifted (limit : Nat) (closed : s.Closed) (grows : Grows s t)
    (later : s.cells.size ≤ t.cells.size) :
    (shifted s.cells.size t.cells.size limit later).Mirrors s.Within t s t := by
  have stays : ∀ share, s.Within share →
      (shifted s.cells.size t.cells.size limit later).place share = share :=
    fun share within => if_pos within
  have far : ∀ share, ¬ s.Within share →
      (shifted s.cells.size t.cells.size limit later).place share =
        ⟨share.cell - s.cells.size + t.cells.size⟩ :=
    fun share beyond => if_neg beyond
  refine ⟨⟨fun share => ?_, fun share asked found => (closed.queries share asked found).mono stays,
    fun k below => ?_⟩,
    closed, fun _ within => within, stays, fun share within other => absurd within other,
    fun text asked known => (closed.expressions text asked known).mono stays, rfl, grows_lasting.refl t⟩
  · by_cases within : s.Within share
    · obtain ⟨c, found⟩ := cell?_of_within within
      rw [stays share within, found]
      refine (grows share.cell c found).trans ?_
      cases c with
      | query asked => rfl
      | data content =>
        have same := moved_eq_self _ ((closed.data share content found).mono stays)
        exact congrArg (fun content => some (Cell.data content)) same.symm
    · have none : s.cell? share = none := Array.getElem?_eq_none (Nat.le_of_not_lt within)
      rw [far share within, none]
      exact Array.getElem?_eq_none (Nat.le_add_left _ _)
  · rw [far _ (Nat.not_lt.mpr (Nat.le_add_right _ _))]
    exact congrArg Share.mk (by dsimp only; omega)

/-- What parameters spell out in a store, at every depth. -/
def Store.spelled (x : Except Failure Datum × Store) : Except Failure (Nat → Option Json) :=
  x.1.map fun v depth => x.2.treeTo depth v

/-- What is kept at last spells out the same where the stores fit. -/
theorem Relocation.Fits.spelled_share {v v' : Datum} (fits : m.Fits s t) (same : v' = m.moved v)
    (room : ((Store.share v).run s).2.cells.size ≤ m.limit) :
    Store.spelled (runIn (ExceptT.lift (Store.share v') : Search Datum) t) =
      Store.spelled (runIn (ExceptT.lift (Store.share v) : Search Datum) s) := by
  subst same
  obtain ⟨fitted, again⟩ :=
    (Even.share v : m.Even m.moved (ExceptT.lift _ : Search Datum) _).same s t fits room
  unfold Store.spelled
  rw [again]
  exact congrArg Except.ok (funext fun depth => fitted.treeTo depth _)

theorem Relocation.moved_paramsOf (m : Relocation) (built : Keyed Datum) {others : List (Datum × Datum)}
    (alone : ∀ entry ∈ others, m.movedEntry entry = entry) :
    Act.paramsOf (built.map m.movedField) others = m.moved (Act.paramsOf built others) := by
  unfold Act.paramsOf
  split
  · exact (m.moved_object built).symm
  · rw [moved_table, List.map_append, List.map_map, List.map_map]
    refine congrArg Value.table (congrArg₂ (· ++ ·) rfl ?_)
    exact ((List.map_congr_left alone).trans (List.map_id others)).symm

/-- In a store that has all that the first building left, the same parameters are built, for a
resource with the same identifiers and, if the request reads data, the same data. -/
theorem Request.building_again {request : Request} {given : Json} (closed : s.Closed)
    (unread : ∀ text f, compile text = .error f → Keyed.get? t.expressions text = none)
    (identified : ∀ entry ∈ identifiers, entry.2.Every s.Within) (held : data.Every s.Within)
    (same : data' = data ∨ ∀ p ∈ request.params, p.source.kind ≠ .dataMember)
    (spares : request.Spares identifiers data s given)
    (later : Extends (runIn (request.building identifiers data given) s).2 t) :
    spelled (runIn (request.building identifiers data' given) t) =
      spelled (runIn (request.building identifiers data given) s) := by
  have retains := building_retains spares
  have grows : Grows s t := fun i c found =>
    later.cells i c (retains.cells ⟨i⟩ c (Array.getElem?_eq_some_iff.mp found).1 found)
  cases copied : Act.copyParams given with
  | error f =>
    unfold building
    rw [copied]
    rfl
  | ok parts =>
    obtain ⟨start, others⟩ := parts
    let limit := (runIn (request.building identifiers data given) s).2.cells.size
    have mirrors :=
      Relocation.mirrors_shifted limit closed grows (Nat.le_trans retains.size later.size_le)
    set m := Relocation.shifted s.cells.size t.cells.size limit (Nat.le_trans retains.size later.size_le)
    have fresh : start.map m.movedField = start := by
      have alone := (Act.every_of_copyParams (fun share => m.place share = share) copied).1
      refine (List.map_congr_left fun entry member => ?_).trans (List.map_id start)
      exact congrArg (Prod.mk entry.1) (m.moved_eq_self (alone entry member))
    have room : (runIn (request.building identifiers data given) s).2.cells.size ≤ m.limit :=
      Nat.le_refl _
    rw [runIn_building copied] at later room ⊢
    rw [runIn_building copied]
    have inside := (Act.every_of_copyParams s.Within copied).1
    rcases ran : runIn (Projection.applyingAll identifiers data request.params start) s with
      ⟨f | built, u⟩
    · rw [ran] at later room
      obtain ⟨n, kept', applied⟩ := Projection.applyingAll_again mirrors identified held same inside
        (spares start others copied) (ran ▸ later) (ran ▸ room) unread
      rw [ran, fresh] at applied
      rcases ran' : runIn (Projection.applyingAll identifiers data' request.params start) t with
        ⟨result, u'⟩
      rw [ran'] at applied
      obtain rfl : result = .error f := applied.same
      rfl
    · rw [ran] at later room
      have adds := share_adds (Act.paramsOf built others) u
      obtain ⟨n, kept', applied⟩ := Projection.applyingAll_again mirrors identified held same inside
        (spares start others copied) (ran ▸ extends_lasting.trans adds.extends later)
        (ran ▸ Nat.le_trans adds.size_le room) unread
      rw [ran, fresh] at applied
      rcases ran' : runIn (Projection.applyingAll identifiers data' request.params start) t with
        ⟨result, u'⟩
      rw [ran'] at applied
      obtain rfl : result = .ok (built.map n.movedField) := applied.same
      refine applied.mirrors.fits.spelled_share (n.moved_paramsOf built fun entry member => ?_)
        (applied.limit ▸ room)
      have alone := (Act.every_of_copyParams (fun share => n.place share = share) copied).2 entry member
      exact Prod.ext (n.moved_eq_self alone.1) (n.moved_eq_self alone.2)

end ResourceGraph
