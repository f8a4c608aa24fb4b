import CallDebugger.Proofs.Format.Faithful
import CallDebugger.Proofs.Format.Records
import CallDebugger.Proofs.Object.Keyed

/-!
# Each object once

Names of one object are equal whatever their targets, so a set has room for one of them. Which one
it is depends on how the set was made: inserting keeps the first, collecting the last. This holds of
ordered sets, which go by `ObjectName.order`, and of hash tables, which go by `==` and
`ObjectName.hashWith`.

Main fact: `ObjectName.one_of_each`.
-/

namespace CallDebugger.ObjectName

variable {h : Hasher} {a b n : ObjectName} {names members : List ObjectName}

/-! ## What is to hold -/

/-- There is one name of each object that is named. -/
structure OneEach (names members : List ObjectName) : Prop where
  once : (members.map object).Nodup
  all : ∀ o, o ∈ members.map object ↔ o ∈ names.map object

/-- Insertions of the names one by one tell which of them are the first of their objects. -/
structure TellsFirst (names : List ObjectName) (told : List Bool) : Prop where
  length : told.length = names.length
  first : ∀ k n, names[k]? = some n →
    (told[k]? = some true ↔ ∀ m ∈ names.take k, m.object ≠ n.object)

/-- The names stand in order, and those of one object as they stood before. -/
structure SortedStably (names sorted : List ObjectName) : Prop where
  perm : sorted.Perm names
  ordered : sorted.Pairwise fun a b => ¬ Precedes b.object a.object
  stable : ∀ o, sorted.filter (·.object = o) = names.filter (·.object = o)

/-! ## Hash tables -/

instance : EquivBEq ObjectName where
  symm same := beq_iff.2 (beq_iff.1 same).symm
  trans same same' := beq_iff.2 ((beq_iff.1 same).trans (beq_iff.1 same'))
  rfl := beq_iff.2 rfl

/-- Names are hashed by a hasher. -/
@[reducible] def hashing (h : Hasher) : Hashable ObjectName := ⟨hashWith h⟩

/-- Names of one object have one hash. -/
theorem hashWith_congr (same : a.object = b.object) : hashWith h a = hashWith h b := by
  obtain ⟨context, name⟩ := Prod.mk.inj same
  rw [hashWith, hashWith, feed, feed, context, name]

instance (h : Hasher) : @LawfulHashable ObjectName _ (hashing h) :=
  @LawfulHashable.mk _ _ (hashing h) fun _ _ same => hashWith_congr (beq_iff.1 same)

/-- A set of names in a hash table. -/
abbrev Table (h : Hasher) := @Std.HashSet ObjectName _ (hashing h)

namespace Table

/-- Adds a name unless one of its object is there: whether it was added, and the table. -/
def enter (t : Table h) (n : ObjectName) : Bool × Table h :=
  let p := t.containsThenInsert n
  (!p.1, p.2)

theorem inserts_enter : Inserts (enter (h := h)) fun t n => t.contains n where
  tells t n := by rw [enter, Std.HashSet.containsThenInsert_fst]
  adds t a b := by
    have same : (a == b) = (key a == key b) := by
      rw [key_beq, Bool.eq_iff_iff, beq_iff, decide_eq_true_iff]
    dsimp only [enter]
    rw [Std.HashSet.containsThenInsert_snd, Std.HashSet.contains_insert, same, Bool.or_comm]

/-- The table of the names. -/
def ofNames (h : Hasher) (names : List ObjectName) : Table h := (insertEach enter ∅ names).2

theorem contains_ofNames (h : Hasher) (names : List ObjectName) (n : ObjectName) :
    (ofNames h names).contains n = names.any (key · == key n) := by
  rw [ofNames, inserts_enter.has_insertEach, Std.HashSet.contains_empty, Bool.false_or]

/-- A table holds the first name of each object. -/
theorem perm_distinctByKey (h : Hasher) (names : List ObjectName) :
    (ofNames h names).toList.Perm (distinctByKey names) := by
  induction names using List.reverseRecOn with
  | nil =>
    rw [ofNames, insertEach, Std.HashSet.toList_empty]
    exact .nil
  | append_singleton names n ih =>
    have there : n ∈ ofNames h names ↔ names.any (key · == key n) = true := by
      rw [Std.HashSet.mem_iff_contains, contains_ofNames]
    have added : ofNames h (names ++ [n]) = (ofNames h names).insert n := by
      rw [ofNames, insertEach_concat, enter, Std.HashSet.containsThenInsert_snd]
      rfl
    rw [added, distinctByKey_concat]
    refine Std.HashSet.toList_insert_perm.trans ?_
    by_cases met : names.any (key · == key n) = true
    · rw [if_pos (there.2 met), if_pos met]
      exact ih
    · rw [if_neg (mt there.1 met), if_neg met]
      exact (ih.cons n).trans (List.perm_append_singleton n _).symm

end Table

/-! ## One of each -/

theorem any_key_iff : members.any (key · == key n) = true ↔ n.object ∈ members.map object := by
  simp [key_beq]

theorem OneEach.of_objects (once : (members.map object).Nodup)
    (all : ∀ n : ObjectName, n.object ∈ members.map object ↔ names.any (key · == key n) = true) :
    OneEach names members where
  once := once
  all o := (all (plain o.1 o.2)).trans any_key_iff

theorem oneEach_of_contains {s : NameSet} (h : ∀ n, s.contains n = names.any (key · == key n)) :
    OneEach names s.items := by
  refine .of_objects (List.pairwise_map.2 (s.ascending.imp ?_)) fun n => ?_
  · exact fun below same => Nat.ne_of_lt below (place_eq_iff.2 same)
  · rw [← h, ← any_key_iff]
    rfl

theorem oneEach_table (h : Hasher) (names : List ObjectName) :
    OneEach names (Table.ofNames h names).toList := by
  refine .of_objects (List.pairwise_map.2 (Std.HashSet.distinct_toList.imp ?_)) fun n => ?_
  · intro a b other same
    rw [beq_iff.2 same] at other
    cases other
  · rw [← Table.contains_ofNames h, ← Std.HashSet.contains_toList,
      List.contains_iff_exists_mem_beq, List.mem_map]
    simp only [beq_iff, eq_comm (a := n.object)]

theorem precedes_items (s : NameSet) : (s.items.map object).Pairwise Precedes :=
  List.pairwise_map.2 (s.ascending.imp place_lt_iff.1)

/-- Sets with one name of each object list the objects in one order. -/
theorem objects_eq {s t : NameSet} (hs : OneEach names s.items) (ht : OneEach names t.items) :
    s.items.map object = t.items.map object := by
  have perm : (s.items.map object).Perm (t.items.map object) :=
    (List.perm_ext_iff_of_nodup hs.once ht.once).2 fun o => (hs.all o).trans (ht.all o).symm
  refine perm.eq_of_pairwise (fun o p _ _ before after => ?_) (precedes_items s) (precedes_items t)
  exact absurd after before.asymm

theorem tellsFirst_of_inserts {σ : Type} {insert : σ → ObjectName → Bool × σ}
    {has : σ → ObjectName → Bool} (h : Inserts insert has) {s : σ} (empty : ∀ n, has s n = false)
    (names : List ObjectName) : TellsFirst names (insertEach insert s names).1 where
  length := length_insertEach s names
  first k n place := by
    rw [h.told s place, empty, Bool.false_or]
    simp [key_beq]

/-! ## Sorting -/

theorem sortByKey_eq (names : List ObjectName) :
    sortByKey names = names.mergeSort fun a b => (a.order b).isLE := by
  simp only [sortByKey, isLE_order]

theorem sortedStably (names : List ObjectName) : SortedStably names (sortByKey names) where
  perm := List.mergeSort_perm names _
  ordered := (pairwise_sortByKey names).imp fun below after =>
    Nat.not_lt.2 below (place_lt_iff.2 after)
  stable o := by
    have kept := filter_sortByKey names (key (plain o.1 o.2))
    simp only [key_beq] at kept
    exact kept

/-- Names that are inserted into an ordered set one by one, as the wire's format does, names that
are collected into one, and names in a hash table: there is one of each object. The ordered sets
list the objects in one ascending order. Inserting keeps the first name of an object and tells
whether it is the first. Collecting sorts stably, so that the names of an object keep their order,
and keeps the last. -/
theorem one_of_each (h : Hasher) (names : List ObjectName) :
    let inserted := insertEach KeySet.enter (KeySet.empty : NameSet) names
    let hashed := insertEach Table.enter (∅ : Table h) names
    let collected : NameSet := KeySet.collect names
    let sorted := names.mergeSort fun a b => (a.order b).isLE
    (OneEach names inserted.2.items ∧ OneEach names collected.items ∧
      OneEach names hashed.2.toList) ∧
    (collected.items.map object = inserted.2.items.map object ∧
      (inserted.2.items.map object).Pairwise Precedes) ∧
    (∀ n, n ∈ inserted.2.items ↔ names.find? (·.object = n.object) = some n) ∧
    (∀ n, n ∈ collected.items ↔ names.reverse.find? (·.object = n.object) = some n) ∧
    (TellsFirst names inserted.1 ∧ TellsFirst names hashed.1) ∧
    SortedStably names sorted ∧ collected.items = lastOfRuns sorted ∧
    hashed.2.toList.Perm (distinctByKey names) ∧
    ∀ bytes rest, ObjectName.codec.list.decode bytes = .ok (names, rest) →
      NameSet.codec.decode bytes = .ok (inserted.2, rest) := by
  intro inserted hashed collected sorted
  have made : inserted.2 = KeySet.ofList names := (KeySet.ofList_eq_insertEach names).symm
  have sort : sorted = sortByKey names := (sortByKey_eq names).symm
  have once := oneEach_of_contains (KeySet.contains_ofList names)
  have onceCollected := oneEach_of_contains (KeySet.contains_collect names)
  rw [made, sort]
  refine ⟨⟨once, onceCollected, oneEach_table h names⟩,
    ⟨objects_eq onceCollected once, precedes_items _⟩, fun n => ?_, fun n => ?_, ⟨?_, ?_⟩,
    sortedStably names, KeySet.items_collect names, Table.perm_distinctByKey h names, ?_⟩
  · rw [KeySet.mem_ofList]
    simp only [key_beq]
  · rw [KeySet.mem_collect]
    simp only [key_beq]
  · exact tellsFirst_of_inserts KeySet.inserts_enter (fun _ => rfl) names
  · exact tellsFirst_of_inserts Table.inserts_enter (fun _ => Std.HashSet.contains_empty) names
  · intro bytes rest listed
    simp only [NameSet.codec, Codec.keySet, Codec.imap, listed]

/-- Two names of one object, and one of another that has the same hash. -/
theorem one_of_each_two_targets :
    let sum : Hasher := ⟨UInt64, 0, fun s w => s + w.toUInt64, fun s w => s + w, id⟩
    let names : List ObjectName := [⟨2, 4, 0⟩, ⟨1, 5, 1⟩, ⟨1, 5, 2⟩]
    let inserted := insertEach KeySet.enter (KeySet.empty : NameSet) names
    let hashed := insertEach Table.enter (∅ : Table sum) names
    (⟨1, 5, 1⟩ ∈ inserted.2.items ∧ ⟨1, 5, 2⟩ ∈ (KeySet.collect names : NameSet).items) ∧
      (hashed.1[1]? = some true ∧ hashed.1[2]? ≠ some true ∧
        hashed.2.toList.Perm [⟨2, 4, 0⟩, ⟨1, 5, 1⟩]) ∧
      NameSet.codec.decode (ObjectName.codec.list.encode names) = .ok (inserted.2, []) := by
  intro sum names inserted hashed
  obtain ⟨-, -, first, last, ⟨-, tells⟩, -, -, perm, wire⟩ := one_of_each sum names
  have faithful : Codec.Faithful ObjectName.codec.list :=
    (@ObjectName.built True).faithful.list ((Codec.solid_uint64.pair _).record _)
  have small : ObjectName.codec.list.size names < UInt64.size := by
    have size : ObjectName.codec.list.size names = 56 := rfl
    rw [size]
    decide
  have listed := faithful.decode_encode_self small
  have kept : distinctByKey names = [⟨2, 4, 0⟩, ⟨1, 5, 1⟩] := by
    simp [names, distinctByKey, key_beq, object]
  refine ⟨⟨(first _).2 rfl, (last _).2 rfl⟩, ⟨?_, ?_, kept ▸ perm⟩, wire _ _ listed⟩
  · refine (tells.first 1 _ rfl).2 fun m earlier => ?_
    obtain rfl := List.mem_singleton.1 earlier
    decide
  · intro new
    exact (tells.first 2 _ rfl).1 new ⟨1, 5, 1⟩ (.tail _ (.head _)) rfl

end CallDebugger.ObjectName
