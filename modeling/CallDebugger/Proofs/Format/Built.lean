import CallDebugger.Protocol.Format

/-!
# How the formats are built

`Codec.Built` says of a format that it is made of the primitives of the wire by pairing, tagging,
listing and renaming, with what each of these asks of its parts: a renaming loses nothing, the
alternatives are all listed, an item of a list takes at least one byte. It also says whether sets
may be among the parts. A law of formats is proved by one induction on it, one case for each way of
building, and then holds of every format here, that of messages (`Message.built`) included.
-/

namespace CallDebugger

variable {α β κ : Type}

/-- A record is exactly its fields. -/
structure Fields.Exact (f : Fields α β) : Prop where
  build_parts : ∀ b, f.build (f.parts b) = b
  parts_build : ∀ a, f.parts (f.build a) = a

/-- Alternatives, each listed once, few enough for a 32-bit word. -/
structure Listing (all : List κ) : Prop where
  complete : ∀ k, k ∈ all
  nodup : all.Nodup
  short : all.length < UInt32.size

/-- Every value takes at least one byte. -/
def Codec.Solid (c : Codec α) : Prop := ∀ a, 0 < c.size a

/-- The formats that are not made of others. -/
inductive Codec.Primitive : {α : Type} → Codec α → Prop where
  | unit : Primitive unit
  | word (width : Nat) : Primitive (word width)
  | bool : Primitive bool
  | text : Primitive text
  | bytes : Primitive bytes
  | ordinal {κ : Type} [BEq κ] [LawfulBEq κ] {all : List κ} (refuse : Nat → Fault)
      (l : Listing all) : Primitive (ordinal all refuse)
  | keyword {κ : Type} {all : List κ} {tag : κ → String} (l : Listing all)
      (distinct : ∀ k k', tag k = tag k' → k = k') : Primitive (keyword all tag)

/-- Formats made of the primitives. `sets` tells whether there may be sets among their parts. -/
inductive Codec.Built (sets : Prop) : {α : Type} → Codec α → Prop where
  | primitive {α : Type} {c : Codec α} (h : Primitive c) : Built sets c
  | record {α β : Type} {c : Codec α} {f : Fields α β} (h : Built sets c) (exact : f.Exact) :
      Built sets (c.record f)
  | pair {α β : Type} {c : Codec α} {d : Codec β} (hc : Built sets c) (hd : Built sets d) :
      Built sets (c.pair d)
  | tagged {κ : Type} {body : κ → Type} {tag : Codec κ} {format : (k : κ) → Codec (body k)}
      (ht : Built sets tag) (hf : ∀ k, Built sets (format k)) : Built sets (tagged tag format)
  | option {α : Type} {c : Codec α} (h : Built sets c) : Built sets c.option
  | list {α : Type} {c : Codec α} (h : Built sets c) (solid : c.Solid) : Built sets c.list
  | keySet {α : Type} [Keyed α] {c : Codec α} (allowed : sets) (h : Built sets c)
      (solid : c.Solid) : Built sets c.keySet

namespace Codec

namespace Built

variable {sets sets' : Prop}

theorem unit : Built sets unit := .primitive .unit

theorem word (width : Nat) : Built sets (word width) := .primitive (.word width)

theorem bool : Built sets bool := .primitive .bool

theorem text : Built sets text := .primitive .text

theorem bytes : Built sets bytes := .primitive .bytes

theorem ordinal [BEq κ] [LawfulBEq κ] {all : List κ} (refuse : Nat → Fault) (l : Listing all) :
    Built sets (ordinal all refuse) := .primitive (.ordinal refuse l)

theorem keyword {all : List κ} {tag : κ → String} (l : Listing all)
    (distinct : ∀ k k', tag k = tag k' → k = k') : Built sets (keyword all tag) :=
  .primitive (.keyword l distinct)

/-- A format without sets is one in which sets are allowed. -/
theorem mono {c : Codec α} (h : Built sets c) (allowed : sets → sets') : Built sets' c := by
  induction h with
  | primitive h => exact .primitive h
  | record _ exact ih => exact .record ih exact
  | pair _ _ ihc ihd => exact .pair ihc ihd
  | tagged _ _ iht ihf => exact .tagged iht ihf
  | option _ ih => exact .option ih
  | list _ solid ih => exact .list ih solid
  | keySet has _ solid ih => exact .keySet (allowed has) ih solid

end Built

end Codec

namespace Codec

/-! ## Sizes -/

@[simp] theorem size_pair (c : Codec α) (d : Codec β) (p : α × β) :
    (c.pair d).size p = c.size p.1 + d.size p.2 := rfl

@[simp] theorem size_tagged {body : κ → Type} (tag : Codec κ) (format : (k : κ) → Codec (body k))
    (p : (k : κ) × body k) :
    (tagged tag format).size p = tag.size p.1 + (format p.1).size p.2 := rfl

@[simp] theorem size_option_some (c : Codec α) (a : α) :
    c.option.size (some a) = 1 + c.size a := rfl

@[simp] theorem size_bytes (front : Bytes) : bytes.size front = 8 + front.length := rfl

@[simp] theorem size_text (t : String) : text.size t = 8 + t.utf8ByteSize := rfl

theorem size_list (c : Codec α) (as : List α) :
    c.list.size as = as.foldl (fun n a => n + c.size a) 8 := rfl

/-- A list takes its count and what its items take. -/
theorem size_list_cons (c : Codec α) (a : α) (as : List α) :
    c.list.size (a :: as) = c.size a + c.list.size as := by
  have shift : ∀ (as : List α) (n m : Nat),
      as.foldl (fun n a => n + c.size a) (n + m) = n + as.foldl (fun n a => n + c.size a) m := by
    intro as
    induction as with
    | nil => intro n m; rfl
    | cons b bs ih =>
      intro n m
      rw [List.foldl_cons, List.foldl_cons, Nat.add_assoc, ih]
  rw [size_list, List.foldl_cons, Nat.add_comm 8, shift, size_list]

/-- A list takes more bytes than it has items, if each item takes one. -/
theorem Solid.length_lt_size_list {c : Codec α} (h : c.Solid) (as : List α) :
    as.length < c.list.size as := by
  induction as with
  | nil => exact Nat.succ_pos 7
  | cons a as ih =>
    have := h a
    rw [size_list_cons, List.length_cons]
    omega

/-- An item takes no more bytes than its list. -/
theorem size_le_size_list (c : Codec α) {a : α} {as : List α} (h : a ∈ as) :
    c.size a ≤ c.list.size as := by
  induction as with
  | nil => exact absurd h List.not_mem_nil
  | cons b bs ih =>
    rw [size_list_cons]
    rcases List.mem_cons.1 h with rfl | h
    · omega
    · have := ih h
      omega

/-! ## Formats that take at least one byte -/

theorem solid_ordinal [BEq κ] (all : List κ) (refuse : Nat → Fault) : (ordinal all refuse).Solid :=
  fun _ => Nat.succ_pos 3

theorem solid_uint32 : uint32.Solid := fun _ => Nat.succ_pos 3

theorem solid_uint64 : uint64.Solid := fun _ => Nat.succ_pos 7

theorem solid_text : text.Solid := fun t => by rw [size_text]; omega

theorem solid_list (c : Codec α) : c.list.Solid := by
  intro as
  induction as with
  | nil => exact Nat.succ_pos 7
  | cons a as ih => rw [size_list_cons]; omega

theorem solid_keySet [Keyed α] (c : Codec α) : c.keySet.Solid := fun s => solid_list c s.items

theorem Solid.record {c : Codec α} (h : c.Solid) (f : Fields α β) : (c.record f).Solid :=
  fun b => h (f.parts b)

theorem Solid.pair {c : Codec α} (h : c.Solid) (d : Codec β) : (c.pair d).Solid := by
  intro p
  have := h p.1
  rw [size_pair]
  omega

theorem Solid.tagged {body : κ → Type} {tag : Codec κ} (h : tag.Solid)
    (format : (k : κ) → Codec (body k)) : (tagged tag format).Solid := by
  intro p
  have := h p.1
  rw [size_tagged]
  omega

end Codec

end CallDebugger
