import CallDebugger.Object.Name
import Mathlib.Data.List.Induction
import Mathlib.Data.List.Nodup

/-!
# Which element of a key stays

Where elements have one key, a set made by inserting them keeps the first (`KeySet.mem_ofList`), and
a collected one the last (`KeySet.mem_collect`); collecting comes to sorting stably and keeping the
last of each run (`KeySet.items_collect`). An insertion tells whether the key is new
(`Inserts.told`).
-/

namespace CallDebugger

/-! ## Inserting one by one -/

section Inserting

variable {α σ : Type} {insert : σ → α → Bool × σ}

/-- Inserts elements one by one: what each insertion tells, and what there is in the end. -/
def insertEach (insert : σ → α → Bool × σ) (s : σ) : List α → List Bool × σ
  | [] => ([], s)
  | a :: as =>
    let rest := insertEach insert (insert s a).2 as
    ((insert s a).1 :: rest.1, rest.2)

theorem insertEach_snd (s : σ) (as : List α) :
    (insertEach insert s as).2 = as.foldl (fun s a => (insert s a).2) s := by
  induction as generalizing s with
  | nil => rfl
  | cons a as ih => exact ih _

theorem insertEach_concat (s : σ) (as : List α) (a : α) :
    (insertEach insert s (as ++ [a])).2 = (insert (insertEach insert s as).2 a).2 := by
  rw [insertEach_snd, List.foldl_concat, ← insertEach_snd]

theorem length_insertEach (s : σ) (as : List α) :
    (insertEach insert s as).1.length = as.length := by
  induction as generalizing s with
  | nil => rfl
  | cons a as ih => exact congrArg (· + 1) (ih _)

/-- An insertion adds a key, and tells whether it is new. -/
structure Inserts [Keyed α] (insert : σ → α → Bool × σ) (has : σ → α → Bool) : Prop where
  tells (s : σ) (a : α) : (insert s a).1 = !has s a
  adds (s : σ) (a b : α) : has (insert s a).2 b = (has s b || key a == key b)

theorem Inserts.has_insertEach [Keyed α] {has : σ → α → Bool} (h : Inserts insert has) (s : σ)
    (as : List α) (b : α) :
    has (insertEach insert s as).2 b = (has s b || as.any (key · == key b)) := by
  induction as generalizing s with
  | nil => exact (Bool.or_false _).symm
  | cons a as ih =>
    have later := ih (insert s a).2
    rw [h.adds, Bool.or_assoc] at later
    exact later

/-- An insertion tells whether the key was not there and no element before it had it. -/
theorem Inserts.told [Keyed α] {has : σ → α → Bool} (h : Inserts insert has) (s : σ) {as : List α}
    {k : Nat} {a : α} (place : as[k]? = some a) : (insertEach insert s as).1[k]? =
      some !(has s a || (as.take k).any (key · == key a)) := by
  induction as generalizing s k with
  | nil => cases place
  | cons b as ih =>
    cases k with
    | zero =>
      cases place
      simp [insertEach, h.tells]
    | succ k =>
      have later := ih (insert s b).2 place
      rw [h.adds, Bool.or_assoc] at later
      exact later

end Inserting

variable {α : Type} [Keyed α]

namespace KeySet

/-! ## Members -/

theorem any_insertItem (a : α) (bs : List α) (k : Nat) :
    (insertItem a bs).any (key · == k) = (key a == k || bs.any (key · == k)) := by
  induction bs with
  | nil => rfl
  | cons b bs ih =>
    simp only [insertItem]
    split
    · rfl
    · split
      · next same => simp [same]
      · rw [List.any_cons, ih, List.any_cons, Bool.or_left_comm]

theorem contains_insert (s : KeySet α) (a b : α) :
    (s.insert a).contains b = (key a == key b || s.contains b) :=
  any_insertItem a s.items (key b)

/-- Adds `a` unless a member has its key: whether it was added, and the set. -/
def enter (s : KeySet α) (a : α) : Bool × KeySet α := (!s.contains a, s.insert a)

theorem inserts_enter : Inserts (enter : KeySet α → α → Bool × KeySet α) contains where
  tells _ _ := rfl
  adds s a b := (contains_insert s a b).trans (Bool.or_comm _ _)

theorem ofList_eq_insertEach (as : List α) : ofList as = (insertEach enter empty as).2 :=
  Eq.symm (@insertEach_snd _ _ enter empty as)

/-- A set has the keys of the elements that it was made of. -/
theorem contains_ofList (as : List α) (b : α) :
    (ofList as).contains b = as.any (key · == key b) := by
  rw [ofList_eq_insertEach, inserts_enter.has_insertEach]
  exact Bool.false_or _

theorem contains_collect (as : List α) (b : α) :
    (collect as).contains b = as.any (key · == key b) := by
  rw [collect, contains_ofList, List.any_reverse]

theorem nodup_keys (s : KeySet α) : (s.items.map key).Nodup :=
  (List.pairwise_map.2 s.ascending).imp Nat.ne_of_lt

/-- A set has one member of a key. -/
theorem mem_items_iff {s : KeySet α} {a : α} :
    a ∈ s.items ↔ s.items.find? (key · == key a) = some a := by
  constructor
  · intro mem
    have some : (s.items.find? (key · == key a)).isSome :=
      List.find?_isSome.2 ⟨a, mem, beq_self_eq_true (key a)⟩
    obtain ⟨b, found⟩ := Option.isSome_iff_exists.1 some
    have same : key b = key a := by simpa using List.find?_some found
    rw [found, List.inj_on_of_nodup_map s.nodup_keys (List.mem_of_find?_eq_some found) mem same]
  · exact List.mem_of_find?_eq_some

/-- Sets with the same member of each key are the same. -/
theorem ext_find? {s t : KeySet α}
    (h : ∀ k, s.items.find? (key · == k) = t.items.find? (key · == k)) : s = t := by
  have members : ∀ a, a ∈ s.items ↔ a ∈ t.items := fun a => by
    rw [mem_items_iff, mem_items_iff, h]
  -- Two ascending lists of the same members are one list.
  have perm : s.items.Perm t.items :=
    (List.perm_ext_iff_of_nodup s.nodup_keys.of_map t.nodup_keys.of_map).2 members
  refine ext (perm.eq_of_pairwise (fun a b _ _ below above => ?_) s.ascending t.ascending)
  exact absurd below (Nat.lt_asymm above)

/-! ## The first and the last of a key -/

theorem find?_key_cons (a : α) (as : List α) (k : Nat) : (a :: as).find? (key · == k) =
    if key a = k then some a else as.find? (key · == k) := by
  rw [List.find?_cons]
  by_cases same : key a = k
  · rw [if_pos same, beq_iff_eq.2 same]
  · rw [if_neg same, beq_false_of_ne same]

theorem find?_eq_none_of_above {a : α} {as : List α} (above : ∀ b ∈ as, key a < key b) :
    as.find? (key · == key a) = none := by
  refine List.find?_eq_none.2 fun b mem => ?_
  rw [beq_iff_eq]
  exact Nat.ne_of_gt (above b mem)

/-- Inserting keeps the member that is there. -/
theorem find?_insertItem {a : α} {bs : List α} (h : bs.Pairwise fun x y => key x < key y)
    (k : Nat) : (insertItem a bs).find? (key · == k) =
      (bs.find? (key · == k)).or (if key a = k then some a else none) := by
  induction bs with
  | nil => exact find?_key_cons a [] k
  | cons b bs ih =>
    obtain ⟨above, ascending⟩ := List.pairwise_cons.1 h
    simp only [insertItem]
    split
    · next below =>
      by_cases same : key a = k
      · subst same
        have absent : (b :: bs).find? (key · == key a) = none :=
          find?_eq_none_of_above (List.forall_mem_cons.2
            ⟨below, fun c mem => Nat.lt_trans below (above c mem)⟩)
        rw [absent, Option.none_or, find?_key_cons, if_pos rfl, if_pos rfl]
      · rw [if_neg same, Option.or_none, find?_key_cons, if_neg same]
    · split
      · next same =>
        rw [find?_key_cons, same]
        split
        · rfl
        · exact Option.or_none.symm
      · rw [find?_key_cons, find?_key_cons, ih ascending]
        split
        · rfl
        · rfl

theorem find?_foldl_insert (s : KeySet α) (as : List α) (k : Nat) :
    (as.foldl insert s).items.find? (key · == k) =
      (s.items.find? (key · == k)).or (as.find? (key · == k)) := by
  induction as generalizing s with
  | nil => exact (Option.or_none).symm
  | cons a as ih =>
    rw [List.foldl_cons, ih, insert, find?_insertItem s.ascending, Option.or_assoc, find?_key_cons]
    split
    · rfl
    · rfl

theorem find?_ofList (as : List α) (k : Nat) :
    (ofList as).items.find? (key · == k) = as.find? (key · == k) :=
  (find?_foldl_insert empty as k).trans Option.none_or

/-- What was inserted first stays. -/
theorem mem_ofList {as : List α} {a : α} :
    a ∈ (ofList as).items ↔ as.find? (key · == key a) = some a := by
  rw [mem_items_iff, find?_ofList]

/-- What comes last is collected. -/
theorem mem_collect {as : List α} {a : α} :
    a ∈ (collect as).items ↔ as.reverse.find? (key · == key a) = some a :=
  mem_ofList

end KeySet

/-! ## Sorting -/

theorem key_le_trans (a b c : α) (h : decide (key a ≤ key b) = true)
    (h' : decide (key b ≤ key c) = true) : decide (key a ≤ key c) = true :=
  decide_eq_true (Nat.le_trans (of_decide_eq_true h) (of_decide_eq_true h'))

theorem key_le_total (a b : α) : (decide (key a ≤ key b) || decide (key b ≤ key a)) = true := by
  simpa using Nat.le_total (key a) (key b)

theorem pairwise_sortByKey (as : List α) :
    (sortByKey as).Pairwise fun a b => key a ≤ key b := by
  have sorted := List.pairwise_mergeSort key_le_trans key_le_total as
  exact sorted.imp of_decide_eq_true

/-- Elements with one key keep their order. -/
theorem filter_sortByKey (as : List α) (k : Nat) :
    (sortByKey as).filter (key · == k) = as.filter (key · == k) := by
  -- The elements of a key are in order as they are, so a stable sort keeps them as a sublist;
  -- and it has no more of them.
  have tied : (as.filter (key · == k)).Pairwise fun a b => decide (key a ≤ key b) = true := by
    refine List.pairwise_of_forall_mem_list fun a ha b hb => decide_eq_true ?_
    exact Nat.le_of_eq ((eq_of_beq (List.mem_filter.1 ha).2).trans
      (eq_of_beq (List.mem_filter.1 hb).2).symm)
  have kept : (as.filter (key · == k)).Sublist (sortByKey as) :=
    List.sublist_mergeSort key_le_trans key_le_total tied List.filter_sublist
  have further : (as.filter (key · == k)).Sublist ((sortByKey as).filter (key · == k)) := by
    have both := kept.filter (key · == k)
    rwa [List.filter_filter, funext fun a => Bool.and_self (key a == k)] at both
  have same : ((sortByKey as).filter (key · == k)).length = (as.filter (key · == k)).length :=
    ((List.mergeSort_perm as _).filter _).length_eq
  exact (further.eq_of_length same.symm).symm

/-- Of each run of elements with one key, the last. -/
def lastOfRuns : List α → List α
  | [] => []
  | a :: as => if as.head?.any (key · == key a) then lastOfRuns as else a :: lastOfRuns as

theorem lastOfRuns_sublist (as : List α) : (lastOfRuns as).Sublist as := by
  induction as with
  | nil => exact .slnil
  | cons a as ih =>
    rw [lastOfRuns]
    split
    · exact ih.cons a
    · exact ih.cons_cons a

/-- Where a sorted list goes on with another key, that key is not met again. -/
theorem above_of_head {a : α} {as : List α} (h : (a :: as).Pairwise fun x y => key x ≤ key y)
    (other : ¬ as.head?.any (key · == key a)) : ∀ b ∈ as, key a < key b := by
  obtain ⟨least, sorted⟩ := List.pairwise_cons.1 h
  intro b mem
  cases as with
  | nil => cases mem
  | cons c as =>
    have first : key a ≤ key c := least c List.mem_cons_self
    have differs : key c ≠ key a := by simpa using other
    rcases List.mem_cons.1 mem with rfl | mem
    · omega
    · have := (List.pairwise_cons.1 sorted).1 b mem
      omega

theorem ascending_lastOfRuns {as : List α} (h : as.Pairwise fun a b => key a ≤ key b) :
    (lastOfRuns as).Pairwise fun a b => key a < key b := by
  induction as with
  | nil => exact .nil
  | cons a as ih =>
    have ascending := ih (List.pairwise_cons.1 h).2
    rw [lastOfRuns]
    split
    · exact ascending
    · next other =>
      exact List.pairwise_cons.2
        ⟨fun b mem => above_of_head h other b ((lastOfRuns_sublist as).subset mem), ascending⟩

theorem find?_lastOfRuns {as : List α} (h : as.Pairwise fun a b => key a ≤ key b) (k : Nat) :
    (lastOfRuns as).find? (key · == k) = as.reverse.find? (key · == k) := by
  induction as with
  | nil => rfl
  | cons a as ih =>
    have further := ih (List.pairwise_cons.1 h).2
    rw [List.reverse_cons, List.find?_append, KeySet.find?_key_cons, ← further, lastOfRuns]
    by_cases same : key a = k
    · -- `a` counts only if no later element has its key, and then the run ends with it.
      subst same
      rw [if_pos rfl]
      split
      · next run =>
        obtain ⟨b, first, tied⟩ := (Option.any_eq_true _ _).1 run
        have there : (as.reverse.find? (key · == key a)).isSome :=
          List.find?_isSome.2 ⟨b, List.mem_reverse.2 (List.mem_of_mem_head? first), tied⟩
        rw [further, Option.or_of_isSome there]
      · next other =>
        have absent : (lastOfRuns as).find? (key · == key a) = none :=
          KeySet.find?_eq_none_of_above fun b mem =>
            above_of_head h other b ((lastOfRuns_sublist as).subset mem)
        rw [absent, Option.none_or, KeySet.find?_key_cons, if_pos rfl]
    · rw [if_neg same, List.find?_nil, Option.or_none]
      split
      · rfl
      · rw [KeySet.find?_key_cons, if_neg same]

namespace KeySet

/-- Collecting is sorting and keeping the last of each run. -/
theorem items_collect (as : List α) : (collect as).items = lastOfRuns (sortByKey as) := by
  have sorted := pairwise_sortByKey as
  let whole : KeySet α := ⟨lastOfRuns (sortByKey as), ascending_lastOfRuns sorted⟩
  refine congrArg items (ext_find? fun k => ?_ : collect as = whole)
  have reversed (bs : List α) :
      bs.reverse.find? (key · == k) = (bs.filter (key · == k)).reverse.head? := by
    rw [← List.head?_filter, List.filter_reverse]
  rw [find?_lastOfRuns sorted, collect, find?_ofList, reversed, reversed, filter_sortByKey]

end KeySet

/-! ## Keys that are met for the first time -/

theorem any_distinctByKey (as : List α) (k : Nat) :
    (distinctByKey as).any (key · == k) = as.any (key · == k) := by
  unfold distinctByKey
  induction as using List.reverseRecOn generalizing k with
  | nil => rfl
  | append_singleton as a ih =>
    rw [List.foldl_concat, List.any_append, ← ih, List.any_cons, List.any_nil, Bool.or_false]
    split
    · next met =>
      by_cases same : key a = k
      · rw [same] at met
        rw [met, Bool.true_or]
      · rw [beq_false_of_ne same, Bool.or_false]
    · rw [List.any_append, List.any_cons, List.any_nil, Bool.or_false]

/-- Another element counts if its key is new. -/
theorem distinctByKey_concat (as : List α) (a : α) : distinctByKey (as ++ [a]) =
    if as.any (key · == key a) then distinctByKey as else distinctByKey as ++ [a] := by
  rw [← any_distinctByKey]
  exact List.foldl_concat ..

/-! ## Names -/

namespace ObjectName

variable {a b : ObjectName}

/-- One object stands before another: its context does, or it has the lower number in the same. -/
def Precedes (o p : ContextId × ObjectNumber) : Prop := o.1 < p.1 ∨ o.1 = p.1 ∧ o.2 < p.2

theorem Precedes.asymm {o p : ContextId × ObjectNumber} (h : Precedes o p) : ¬ Precedes p o := by
  simp only [Precedes, UInt64.lt_iff_toNat_lt, UInt32.lt_iff_toNat_lt, ← UInt64.toNat_inj] at h ⊢
  omega

/-- Names have one place if they name one object. -/
theorem place_eq_iff : a.place = b.place ↔ a.object = b.object := by
  have ha : a.name.toNat < UInt32.size := a.name.toNat_lt
  have hb : b.name.toNat < UInt32.size := b.name.toNat_lt
  rw [object, object, Prod.mk.injEq, ← UInt64.toNat_inj, ← UInt32.toNat_inj]
  unfold place
  unfold UInt32.size at *
  omega

theorem place_lt_iff : a.place < b.place ↔ Precedes a.object b.object := by
  have ha : a.name.toNat < UInt32.size := a.name.toNat_lt
  have hb : b.name.toNat < UInt32.size := b.name.toNat_lt
  simp only [Precedes, object, UInt64.lt_iff_toNat_lt, UInt32.lt_iff_toNat_lt, ← UInt64.toNat_inj]
  unfold place
  unfold UInt32.size at *
  omega

theorem key_beq : (key a == key b) = decide (a.object = b.object) :=
  decide_eq_decide.2 place_eq_iff

theorem beq_iff : (a == b) = true ↔ a.object = b.object := by
  have both : (a == b) = (a.context == b.context && a.name == b.name) := rfl
  rw [both, Bool.and_eq_true, beq_iff_eq, beq_iff_eq, object, object, Prod.mk.injEq]

theorem order_eq_lt_iff : a.order b = .lt ↔ Precedes a.object b.object := by
  rw [order, Ordering.then_eq_lt, Std.compare_eq_lt, Std.compare_eq_lt, Std.compare_eq_iff_eq]
  rfl

theorem order_eq_eq_iff : a.order b = .eq ↔ a.object = b.object := by
  rw [order, Ordering.then_eq_eq, Std.compare_eq_iff_eq, Std.compare_eq_iff_eq, object, object,
    Prod.mk.injEq]

theorem key_lt_iff : key a < key b ↔ a.order b = .lt := place_lt_iff.trans order_eq_lt_iff.symm

theorem key_eq_iff : key a = key b ↔ a.order b = .eq := place_eq_iff.trans order_eq_eq_iff.symm

/-- Sets of names go by the order of names. -/
theorem insertItem_cons (a b : ObjectName) (bs : List ObjectName) :
    KeySet.insertItem a (b :: bs) =
      if a.order b = .lt then a :: b :: bs
      else if a.order b = .eq then b :: bs
      else b :: KeySet.insertItem a bs := by
  simp only [KeySet.insertItem, key_lt_iff, key_eq_iff]

/-- Names are sorted by their order. -/
theorem isLE_order (a b : ObjectName) : (a.order b).isLE = decide (key a ≤ key b) := by
  have below : key a ≤ key b ↔ a.order b = .lt ∨ a.order b = .eq := by
    rw [← key_lt_iff, ← key_eq_iff]
    exact Nat.le_iff_lt_or_eq
  rw [Bool.eq_iff_iff, Ordering.isLE_iff_eq_lt_or_eq_eq, decide_eq_true_iff, below]

end ObjectName

end CallDebugger
