import ResourceGraph.Graph.Handle
import ResourceGraph.Proofs.Change
import ResourceGraph.Proofs.Digests
import ResourceGraph.Proofs.Spreading

/-!
Equal resources and their keys. Two resources are equal when their types have one name and their
identifiers are the same under every name, in whatever order; the key of a resource lists them in
the order of its type. So equal resources have one key, and are found by one digest, exactly if
their types list the identifiers in one order, as a type does with itself. Types of one name that
list the same identifiers in another order have equal resources with different keys.
-/

namespace ResourceGraph

/-- The value can be part of a key: it is no container, and what is kept for it at a place of its
own is a query or the undefined number. -/
def Store.Hashable (s : Store) : Datum → Prop
  | .shared share =>
    ∀ content, s.cell? share = some (.data content) → ∃ x : Float, content = .float x ∧
      x.isNaN = true
  | v => v.isContainer = false

/-- All identifiers of the resource can be part of a key. -/
structure Resource.Hashable (s : Store) (r : Resource) : Prop where
  distinct : (Keyed.keys r.identifiers).Nodup
  values : ∀ entry ∈ r.identifiers, s.Hashable entry.2

/-- What the resource is found by in sets and maps. -/
def Resource.key (r : Resource) : ResourceKey := ⟨r.type.name, r.identifiers⟩

/-- The maps have as many entries, and the second has the same value as the first under each of its
keys. -/
structure Keyed.Alike (xs ys : Keyed Datum) : Prop where
  size : xs.length = ys.length
  found : ∀ entry ∈ xs, ∃ w, Keyed.get? ys entry.1 = some w ∧ Value.sameKey entry.2 w = true

namespace Store

variable {s : Store} {v w : Datum}

/-- A value that can be part of a key is what it is kept as, unless the undefined number is kept for
it. -/
theorem Hashable.cases (hashable : s.Hashable v) :
    (s.opened v = v ∧ v.isContainer = false) ∨
      ∃ share x, v = .shared share ∧ s.opened v = .float x ∧ x.isNaN = true := by
  cases v with
  | shared share =>
    rw [opened]
    split
    · next content found =>
      obtain ⟨x, rfl, undefined⟩ := hashable content found
      exact .inr ⟨share, x, rfl, rfl, undefined⟩
    · exact .inl ⟨rfl, rfl⟩
  | _ => exact .inl ⟨rfl, hashable⟩

theorem Hashable.bare (hashable : s.Hashable v) : (s.opened v).isContainer = false := by
  rcases hashable.cases with ⟨same, plain⟩ | ⟨_, x, _, number, _⟩
  · rw [same, plain]
  · rw [number]
    rfl

/-- The undefined number equals nothing. -/
theorem sameScalar_undefined {x : Float} (undefined : x.isNaN = true) (v : Datum) :
    Value.sameScalar (.float x) v = false ∧ Value.sameScalar v (.float x) = false := by
  cases v <;> simp [Value.sameScalar, Value.countsAs?, Value.num?, Num.same_undefined undefined]

/-- A share is no scalar that equals another. -/
theorem sameScalar_shared (share : Share) (v : Datum) :
    Value.sameScalar (.shared share) v = false ∧ Value.sameScalar v (.shared share) = false := by
  cases v <;> simp [Value.sameScalar, Value.countsAs?, Value.num?]

private theorem sameTo_left (depth : Nat) (bare : (s.opened v).isContainer = false)
    (scalar : ∀ share, s.opened v ≠ .shared share) :
    s.sameTo (depth + 1) v w = some (Value.sameScalar (s.opened v) (s.opened w)) := by
  rw [sameTo]
  split
  · next container _ => rw [container] at bare; cases bare
  · next container _ => rw [container] at bare; cases bare
  · next container _ => rw [container] at bare; cases bare
  · next shared _ => exact absurd shared (scalar _)
  · rfl

private theorem sameTo_right (depth : Nat) (bare : (s.opened w).isContainer = false)
    (scalar : ∀ share, s.opened w ≠ .shared share) :
    s.sameTo (depth + 1) v w = some (Value.sameScalar (s.opened v) (s.opened w)) := by
  rw [sameTo]
  split
  · next container => rw [container] at bare; cases bare
  · next container => rw [container] at bare; cases bare
  · next container => rw [container] at bare; cases bare
  · next shared => exact absurd shared (scalar _)
  · rfl

/-- Inside a container, values that can be part of a key are equal exactly if they are one key. -/
theorem inside_hashable (one : s.Hashable v) (other : s.Hashable w) (depth : Nat) :
    (if Value.identical v w then some true else s.sameTo (depth + 1) v w) =
      some (Value.sameKey v w) := by
  rw [Value.sameKey]
  cases apart : Value.identical v w with
  | true => rfl
  | false =>
    rw [if_neg Bool.false_ne_true, Bool.false_or]
    rcases one.cases with ⟨same, plain⟩ | ⟨share, x, rfl, number, undefined⟩
    · rcases other.cases with ⟨same', plain'⟩ | ⟨share, x, rfl, number, undefined⟩
      · by_cases left : ∀ share, s.opened v ≠ .shared share
        · rw [sameTo_left depth one.bare left, same, same']
        · by_cases right : ∀ share, s.opened w ≠ .shared share
          · rw [sameTo_right depth other.bare right, same, same']
          · -- Two queries are equal only as one thing, which they are not.
            push Not at left right
            obtain ⟨a, first⟩ := left
            obtain ⟨b, second⟩ := right
            rw [sameTo, first, second]
            rw [same] at first
            rw [same'] at second
            subst first second
            exact congrArg some (apart.trans (sameScalar_shared a _).1.symm)
      · rw [sameTo_right depth other.bare (by simp [number]), number,
          (sameScalar_undefined undefined _).2,
          (sameScalar_shared share v).2]
    · rw [sameTo_left depth one.bare (by simp [number]), number, (sameScalar_undefined undefined _).1,
        (sameScalar_shared share w).1]

/-- A test holds for all members exactly if it does for each of them. -/
theorem allMembers?_eq_true {test : Datum → Datum → Option Bool} {other members : Keyed Datum} :
    allMembers? test other members = some true ↔
      ∀ entry ∈ members, ∃ w, Keyed.get? other entry.1 = some w ∧ test entry.2 w = some true := by
  induction members with
  | nil => simp [allMembers?]
  | cons entry rest ih =>
    obtain ⟨key, v⟩ := entry
    rw [allMembers?, List.forall_mem_cons, ← ih]
    cases there : Keyed.get? other key with
    | none => simp
    | some w =>
      rcases tested : test v w with _ | _ | _ <;> simp [tested]

/-- Identifiers that can be part of a key are equal by content exactly if they are alike. -/
theorem same?_identifiers {xs ys : Keyed Datum} (one : ∀ entry ∈ xs, s.Hashable entry.2)
    (other : ∀ entry ∈ ys, s.Hashable entry.2) :
    s.same? (.object xs) (.object ys) = some true ↔ Keyed.Alike xs ys := by
  have inside : allMembers? (fun x y =>
      if Value.identical x y then some true else
        s.sameTo (comparedDepth - 2 + 1) x y) ys xs = some true ↔
      ∀ entry ∈ xs, ∃ w, Keyed.get? ys entry.1 = some w ∧ Value.sameKey entry.2 w = true := by
    rw [allMembers?_eq_true]
    refine forall₂_congr fun entry member => exists_congr fun w => and_congr_right fun found => ?_
    rw [inside_hashable (one entry member) (other _ (Keyed.mem_of_get? found)), Option.some.injEq]
  change (if xs.length == ys.length then _ else some false) = some true ↔ _
  by_cases size : xs.length = ys.length
  · rw [if_pos (beq_iff_eq.mpr size)]
    exact inside.trans ⟨fun found => ⟨size, found⟩, Keyed.Alike.found⟩
  · rw [if_neg (mt beq_iff_eq.mp size)]
    exact ⟨nofun, fun alike => absurd alike.size size⟩

end Store

namespace Keyed

variable {xs ys : Keyed Datum}

/-- Maps that are alike have the same keys. -/
theorem Alike.perm (alike : Alike xs ys) (distinct : (keys xs).Nodup) : (keys xs).Perm (keys ys) := by
  have within : keys xs ⊆ keys ys := by
    intro name listed
    obtain ⟨entry, member, rfl⟩ := List.mem_map.mp listed
    obtain ⟨w, found, _⟩ := alike.found entry member
    exact List.mem_map.mpr ⟨_, mem_of_get? found, rfl⟩
  refine (distinct.subperm within).perm_of_length_le ?_
  rw [keys, keys, List.length_map, List.length_map, alike.size]

/-- Maps that are alike and list their keys in one order are alike entry by entry. -/
theorem Alike.paired (alike : Alike xs ys) (distinct : (keys ys).Nodup) (order : keys xs = keys ys) :
    List.Forall₂ (fun x y => x.1 = y.1 ∧ Value.sameKey x.2 y.2 = true) xs ys := by
  refine List.forall₂_iff_get.mpr ⟨alike.size, fun i inside inside' => ?_⟩
  have name : xs[i].1 = ys[i].1 := by
    have listed : (keys xs)[i]? = (keys ys)[i]? := by rw [order]
    simpa [keys, inside, inside'] using listed
  obtain ⟨w, found, same⟩ := alike.found xs[i] (List.getElem_mem inside)
  have there : get? ys ys[i].1 = some ys[i].2 := get?_of_mem distinct (List.getElem_mem inside')
  rw [name, there] at found
  cases found
  exact ⟨name, same⟩

end Keyed

namespace ResourceKey

variable {k l : ResourceKey}

/-- Two keys are one key when they agree entry by entry. -/
theorem same_iff : k.same l = true ↔
    k.type = l.type ∧ List.Forall₂ (fun x y => x.1 = y.1 ∧ Value.sameKey x.2 y.2 = true) k.members
      l.members := by
  simp [same, List.forall₂_iff_zip, and_assoc]

/-- One key has one digest. -/
theorem digest_of_same (same : k.same l = true) : k.digest = l.digest := by
  obtain ⟨type, paired⟩ := same_iff.mp same
  refine Prod.ext type ?_
  change k.members.map _ = l.members.map _
  generalize k.members = xs, l.members = ys at paired
  induction paired with
  | nil => rfl
  | cons first _ ih =>
    exact congrArg₂ List.cons (Prod.ext first.1 (Digest.ofScalar_of_sameKey first.2)) ih

/-- A digest tells the names of the key, in their order. -/
theorem keys_of_digest (same : k.digest = l.digest) : Keyed.keys k.members = Keyed.keys l.members := by
  have names := congrArg (fun digest => digest.2.map Prod.fst) same
  simpa [digest, Keyed.keys, Function.comp_def] using names

/-- Keys that hold the same are one key, and have one digest, exactly if they hold it in one order. -/
theorem same_iff_order (type : k.type = l.type) (alike : Keyed.Alike k.members l.members)
    (distinct : (Keyed.keys l.members).Nodup) :
    (k.same l = true ↔ Keyed.keys k.members = Keyed.keys l.members) ∧
      (k.digest = l.digest ↔ Keyed.keys k.members = Keyed.keys l.members) := by
  have same_of_order (order : Keyed.keys k.members = Keyed.keys l.members) : k.same l = true :=
    same_iff.mpr ⟨type, alike.paired distinct order⟩
  exact ⟨⟨fun same => keys_of_digest (digest_of_same same), same_of_order⟩,
    ⟨keys_of_digest, fun order => digest_of_same (same_of_order order)⟩⟩

end ResourceKey

namespace Act

variable {g : Graph} {x y : ResourceId} {a b : Resource}

private theorem runIn_key (hashable : a.Hashable g.store) : runIn (key a) g = (.ok a.key, g) := by
  have plain : (a.identifiers.any fun entry => (g.store.opened entry.2).isContainer) = false :=
    List.any_eq_false.mpr fun entry member => by simp [(hashable.values entry member).bare]
  unfold key
  rw [runIn_bind, runIn_get]
  dsimp only
  rw [plain]
  rfl

private theorem runIn_equalHandles (one : g.resources[x]? = some a) (other : g.resources[y]? = some b) :
    runIn (equalHandles (.built (.one x)) (.built (.one y))) g = runIn (equal a b) g := by
  have first : runIn (resource x) g = (.ok a, g) := resource_runs one
  have second : runIn (resource y) g = (.ok b, g) := resource_runs other
  change runIn (resource x >>= fun r => resource y >>= fun s => equal r s) g = _
  rw [runIn_bind_ok first, runIn_bind_ok second]

private theorem runIn_contentOf? (there : g.resources[x]? = some a) (hashable : a.Hashable g.store) :
    runIn (contentOf? (.built (.one x))) g =
      (.ok (some (.resource a.key.digest.1 a.key.digest.2)), g) := by
  have found : runIn (resource x) g = (.ok a, g) := resource_runs there
  unfold contentOf?
  dsimp only
  rw [runIn_bind_ok found, runIn_bind_ok (runIn_key hashable)]
  rfl

/-- Two resources have one digest exactly if their keys have. -/
theorem runIn_sameDigest (one : g.resources[x]? = some a) (other : g.resources[y]? = some b)
    (first : a.Hashable g.store) (second : b.Hashable g.store) :
    runIn (sameDigest (.built (.one x)) (.built (.one y))) g =
      (.ok (decide (a.key.digest = b.key.digest)), g) := by
  unfold sameDigest
  rw [runIn_bind_ok (runIn_contentOf? one first), runIn_bind_ok (runIn_contentOf? other second)]
  refine congrArg (fun same => (Except.ok same, g)) (Bool.eq_iff_iff.mpr ?_)
  rw [beq_iff_eq, decide_eq_true_iff, Handle.Content.resource.injEq, Prod.ext_iff]

/-- Equal resources have types of one name, and identifiers that are alike. -/
theorem alike_of_equal (first : a.Hashable g.store) (second : b.Hashable g.store)
    (equal : (runIn (equal a b) g).1 = .ok true) :
    a.type.name = b.type.name ∧ Keyed.Alike a.identifiers b.identifiers := by
  unfold Act.equal at equal
  split at equal
  · cases equal
  · next one =>
    refine ⟨by simpa using one, (Store.same?_identifiers first.values second.values).mp ?_⟩
    unfold Act.same at equal
    rw [runIn_bind, runIn_get] at equal
    dsimp only at equal
    split at equal
    · next outcome compared =>
      cases equal
      exact compared
    · cases equal

/-- Equal resources have types of one name and the same identifiers, in value and so in digest.
Their keys are one key, and their digests one digest, exactly if the identifiers stand in one order. -/
theorem keys_of_equal (one : g.resources[x]? = some a) (other : g.resources[y]? = some b)
    (first : a.Hashable g.store) (second : b.Hashable g.store)
    (equal : (runIn (equalHandles (.built (.one x)) (.built (.one y))) g).1 = .ok true) :
    runIn (key a) g = (.ok a.key, g) ∧ runIn (key b) g = (.ok b.key, g) ∧ a.key.type = b.key.type ∧
      (Keyed.keys a.identifiers).Perm (Keyed.keys b.identifiers) ∧
      (∀ name v w, Keyed.get? a.identifiers name = some v → Keyed.get? b.identifiers name = some w →
        Value.sameKey v w = true ∧ Digest.ofScalar v = Digest.ofScalar w) ∧
      (a.key.same b.key = true ↔ Keyed.keys a.identifiers = Keyed.keys b.identifiers) ∧
      runIn (sameDigest (.built (.one x)) (.built (.one y))) g =
        (.ok (decide (Keyed.keys a.identifiers = Keyed.keys b.identifiers)), g) := by
  rw [runIn_equalHandles one other] at equal
  obtain ⟨type, alike⟩ := alike_of_equal first second equal
  obtain ⟨same, digest⟩ :=
    ResourceKey.same_iff_order (k := a.key) (l := b.key) type alike second.distinct
  refine ⟨runIn_key first, runIn_key second, type, alike.perm first.distinct,
    fun name v w found found' => ?_, same, ?_⟩
  · obtain ⟨w', there, one⟩ := alike.found (name, v) (Keyed.mem_of_get? found)
    cases found'.symm.trans there
    exact ⟨one, Digest.ofScalar_of_sameKey one⟩
  · rw [runIn_sameDigest one other first second]
    exact congrArg (fun same => (Except.ok same, g)) (decide_eq_decide.mpr digest)

/-- Three users of types of that name. The last type lists the identifiers in another order. -/
def namesakes : Graph where
  types :=
    #[{ name := "User", identifiers := ["id", "org"] },
    { name := "User", identifiers := ["id", "org"] },
    { name := "User", identifiers := ["org", "id"] }]
  resources := #[
    { type := ⟨0, "User"⟩, identifiers := [("id", .int 1), ("org", .str "acme")], client := 0 },
    { type := ⟨1, "User"⟩, identifiers := [("id", .float 1), ("org", .str "acme")], client := 0 },
    { type := ⟨2, "User"⟩, identifiers := [("org", .str "acme"), ("id", .int 1)], client := 0 }]

private theorem hashable_namesakes : ∀ r ∈ namesakes.resources, r.Hashable namesakes.store := by
  intro r member
  simp only [namesakes, List.mem_toArray, List.mem_cons, List.not_mem_nil, or_false] at member
  rcases member with rfl | rfl | rfl <;>
    exact ⟨by decide, by simp [Store.Hashable, Value.isContainer]⟩

/-- A whole number and the float that equals it: the users are equal, and found by one digest. -/
theorem keys_of_equal_numbers :
    (runIn (equalHandles (.built (.one 0)) (.built (.one 1))) namesakes).1 = .ok true ∧
      runIn (sameDigest (.built (.one 0)) (.built (.one 1))) namesakes = (.ok true, namesakes) := by
  have hashable := hashable_namesakes
  have equal : (runIn (equalHandles (.built (.one 0)) (.built (.one 1))) namesakes).1 =
      .ok true := by decide +kernel
  have law := keys_of_equal rfl rfl (hashable _ (by simp [namesakes]))
    (hashable _ (by simp [namesakes])) equal
  obtain ⟨-, -, -, -, -, -, digest⟩ := law
  exact ⟨equal, digest⟩

/-- The same identifiers in another order: the users are equal, and have two keys and two digests. -/
theorem equal_under_two_keys :
    ∃ a b, namesakes.resources[0]? = some a ∧ namesakes.resources[2]? = some b ∧
      a.Hashable namesakes.store ∧ b.Hashable namesakes.store ∧
      (runIn (equalHandles (.built (.one 0)) (.built (.one 2))) namesakes).1 = .ok true ∧
      a.key.same b.key = false ∧
      (runIn (sameDigest (.built (.one 0)) (.built (.one 2))) namesakes).1 = .ok false := by
  have hashable := hashable_namesakes
  exact ⟨_, _, rfl, rfl, hashable _ (by simp [namesakes]),
    hashable _ (by simp [namesakes]), by decide +kernel,
    by decide +kernel, by decide +kernel⟩

end Act

end ResourceGraph
