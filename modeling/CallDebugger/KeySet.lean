/-!
# Sets ordered by a key

A `KeySet` lists its members in strictly ascending order of a numeric key, so a key occurs once.
Inserting keeps the member that is there; `ofList` inserts one by one, so the first of the
elements with one key stays, and `collect` keeps the last.
-/

namespace CallDebugger

/-- What identifies an element, and where it stands in the order. -/
class Keyed (α : Type) where
  key : α → Nat

export Keyed (key)

instance : Keyed UInt32 where
  key := UInt32.toNat

/-- Elements in strictly ascending order of their keys. -/
structure KeySet (α : Type) [Keyed α] where
  items : List α
  ascending : items.Pairwise fun a b => key a < key b

namespace KeySet

variable {α : Type} [Keyed α]

@[ext] theorem ext {s t : KeySet α} (h : s.items = t.items) : s = t := by
  cases s; cases t; cases h; rfl

/-- The set without members. -/
def empty : KeySet α := ⟨[], .nil⟩

instance : Inhabited (KeySet α) := ⟨empty⟩

instance [BEq α] : BEq (KeySet α) where
  beq s t := s.items == t.items

/-- How many members there are. -/
def size (s : KeySet α) : Nat := s.items.length

/-- Whether there is no member. -/
def isEmpty (s : KeySet α) : Bool := s.items.isEmpty

/-- Whether a member has the key of `a`. -/
def contains (s : KeySet α) (a : α) : Bool := s.items.any fun b => key b == key a

/-- Puts `a` before the first element with a larger key, unless one with its key is there. -/
def insertItem (a : α) : List α → List α
  | [] => [a]
  | b :: bs =>
    if key a < key b then a :: b :: bs
    else if key a = key b then b :: bs
    else b :: insertItem a bs

theorem mem_insertItem {a c : α} {bs : List α} (h : c ∈ insertItem a bs) : c = a ∨ c ∈ bs := by
  induction bs with
  | nil => simpa [insertItem] using h
  | cons b bs ih =>
    simp only [insertItem] at h
    split at h
    · simpa using h
    · split at h
      · exact .inr h
      · rcases List.mem_cons.1 h with h | h
        · exact .inr (h ▸ List.mem_cons_self)
        · exact (ih h).imp_right (List.mem_cons_of_mem _)

theorem ascending_insertItem {a : α} {bs : List α} (h : bs.Pairwise fun x y => key x < key y) :
    (insertItem a bs).Pairwise fun x y => key x < key y := by
  induction bs with
  | nil => exact List.pairwise_singleton ..
  | cons b bs ih =>
    obtain ⟨hb, hbs⟩ := List.pairwise_cons.1 h
    simp only [insertItem]
    split
    · refine List.pairwise_cons.2 ⟨fun c hc => ?_, h⟩
      rcases List.mem_cons.1 hc with rfl | hc
      · assumption
      · exact Nat.lt_trans ‹_› (hb c hc)
    · split
      · exact h
      · refine List.pairwise_cons.2 ⟨fun c hc => ?_, ih hbs⟩
        rcases mem_insertItem hc with rfl | hc
        · omega
        · exact hb c hc

/-- Adds `a` unless a member has its key. -/
def insert (s : KeySet α) (a : α) : KeySet α :=
  ⟨insertItem a s.items, ascending_insertItem s.ascending⟩

/-- Removes the member with the key of `a`. -/
def erase (s : KeySet α) (a : α) : KeySet α :=
  ⟨s.items.filter fun b => key b != key a, s.ascending.sublist List.filter_sublist⟩

/-- Inserts the elements one by one: of those with one key the first stays. -/
def ofList (as : List α) : KeySet α := as.foldl insert empty

/-- Collects the elements so that of those with one key the last stays. -/
def collect (as : List α) : KeySet α := ofList as.reverse

end KeySet

/-- One element of each key, in the order in which the keys first occur. -/
def distinctByKey {α : Type} [Keyed α] (as : List α) : List α :=
  as.foldl (fun seen a => if seen.any fun b => key b == key a then seen else seen ++ [a]) []

/-- Sorts by key; elements with one key keep their order. -/
def sortByKey {α : Type} [Keyed α] (as : List α) : List α :=
  as.mergeSort fun a b => decide (key a ≤ key b)

end CallDebugger
