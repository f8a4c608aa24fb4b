import CallDebugger.Proofs.Format.Built
import CallDebugger.Proofs.Format.Words

/-!
# Values are spelled in one way

A format is canonical if whatever it reads is what it writes: the bytes that were taken are the
encoding of the value that was read. The members of a set may be written in any order, so this is
not true of sets, but it is true of every format that is built without them
(`Codec.Built.canonical`).
-/

namespace CallDebugger

variable {α β κ : Type}

/-- What is read is what would be written. -/
def Codec.Canonical (c : Codec α) : Prop :=
  ∀ bytes a rest, c.decode bytes = .ok (a, rest) → bytes = c.encode a ++ rest

namespace Codec

/-! ## What reading reads -/

theorem decode_word {width : Nat} {bytes rest : Bytes} {n : BitVec (8 * width)}
    (h : (word width).decode bytes = .ok (n, rest)) :
    ∃ front, splitBytes? width bytes = some (front, rest) ∧
      BitVec.ofNat _ (ofLittleEndian front) = n := by
  simp only [word] at h
  cases split : splitBytes? width bytes with
  | none => simp [split] at h
  | some p =>
    simp only [split, Except.ok.injEq, Prod.mk.injEq] at h
    obtain ⟨rfl, rfl⟩ := h
    exact ⟨p.1, rfl, rfl⟩

theorem decode_bool {bytes rest : Bytes} {b : Bool} (h : bool.decode bytes = .ok (b, rest)) :
    bytes = (if b then 1 else 0) :: rest := by
  cases bytes with
  | nil => simp [bool] at h
  | cons byte bytes =>
    simp only [bool] at h
    split at h
    · cases h
      simp [*]
    · split at h
      · cases h
        simp [*]
      · simp at h

theorem counts_of_decode {refuse : Fault} {bytes front rest : Bytes}
    (h : (counted refuse).decode bytes = .ok (front, rest)) :
    ∃ count middle, uint64.decode bytes = .ok (count, middle) ∧
      splitBytes? count.toNat middle = some (front, rest) := by
  simp only [counted] at h
  cases count : uint64.decode bytes with
  | error fault => simp [count] at h
  | ok read =>
    simp only [count] at h
    cases split : splitBytes? read.1.toNat read.2 with
    | none => simp [split] at h
    | some p =>
      simp only [split, Except.ok.injEq] at h
      exact ⟨read.1, read.2, rfl, h ▸ split⟩

theorem decode_text {bytes rest : Bytes} {t : String} (h : text.decode bytes = .ok (t, rest)) :
    ∃ front, (counted .textCutOff).decode bytes = .ok (front, rest) ∧
      Utf8.decode front = .ok t := by
  simp only [text] at h
  cases front : (counted .textCutOff).decode bytes with
  | error fault => simp [front] at h
  | ok read =>
    simp only [front] at h
    cases spelled : Utf8.decode read.1 with
    | error fault => simp [spelled] at h
    | ok t' =>
      simp only [spelled, Except.ok.injEq, Prod.mk.injEq] at h
      obtain ⟨rfl, rfl⟩ := h
      exact ⟨read.1, rfl, spelled⟩

theorem decode_ordinal [BEq κ] {all : List κ} {refuse : Nat → Fault} {bytes rest : Bytes} {k : κ}
    (h : (ordinal all refuse).decode bytes = .ok (k, rest)) :
    ∃ index, uint32.decode bytes = .ok (index, rest) ∧ all[index.toNat]? = some k := by
  simp only [ordinal] at h
  cases index : uint32.decode bytes with
  | error fault => simp [index] at h
  | ok read =>
    simp only [index] at h
    cases found : all[read.1.toNat]? with
    | none => simp [found] at h
    | some k' =>
      simp only [found, Except.ok.injEq, Prod.mk.injEq] at h
      obtain ⟨rfl, rfl⟩ := h
      exact ⟨read.1, rfl, found⟩

theorem decode_keyword {all : List κ} {tag : κ → String} {bytes rest : Bytes} {k : κ}
    (h : (keyword all tag).decode bytes = .ok (k, rest)) :
    ∃ t, text.decode bytes = .ok (t, rest) ∧ all.find? (fun k => tag k == t) = some k := by
  simp only [keyword] at h
  cases word : text.decode bytes with
  | error fault => simp [word] at h
  | ok read =>
    simp only [word] at h
    cases found : all.find? fun k => tag k == read.1 with
    | none => simp [found] at h
    | some k' =>
      simp only [found, Except.ok.injEq, Prod.mk.injEq] at h
      obtain ⟨rfl, rfl⟩ := h
      exact ⟨read.1, rfl, found⟩

theorem decode_imap {c : Codec α} {f : α → β} {g : β → α} {bytes rest : Bytes} {b : β}
    (h : (c.imap f g).decode bytes = .ok (b, rest)) :
    ∃ a, c.decode bytes = .ok (a, rest) ∧ f a = b := by
  simp only [Codec.imap] at h
  cases read : c.decode bytes with
  | error fault => simp [read] at h
  | ok p =>
    simp only [read, Except.ok.injEq, Prod.mk.injEq] at h
    obtain ⟨rfl, rfl⟩ := h
    exact ⟨p.1, rfl, rfl⟩

theorem decode_pair {c : Codec α} {d : Codec β} {bytes rest : Bytes} {p : α × β}
    (h : (c.pair d).decode bytes = .ok (p, rest)) :
    ∃ middle, c.decode bytes = .ok (p.1, middle) ∧ d.decode middle = .ok (p.2, rest) := by
  simp only [Codec.pair] at h
  cases first : c.decode bytes with
  | error fault => simp [first] at h
  | ok p' =>
    cases second : d.decode p'.2 with
    | error fault => simp [first, second] at h
    | ok q =>
      simp only [first, second, Except.ok.injEq, Prod.mk.injEq] at h
      obtain ⟨rfl, rfl⟩ := h
      exact ⟨p'.2, rfl, second⟩

theorem decode_tagged {body : κ → Type} {tag : Codec κ} {format : (k : κ) → Codec (body k)}
    {bytes rest : Bytes} {p : (k : κ) × body k}
    (h : (tagged tag format).decode bytes = .ok (p, rest)) :
    ∃ middle, tag.decode bytes = .ok (p.1, middle) ∧
      (format p.1).decode middle = .ok (p.2, rest) := by
  simp only [Codec.tagged] at h
  cases first : tag.decode bytes with
  | error fault => simp [first] at h
  | ok p' =>
    cases second : (format p'.1).decode p'.2 with
    | error fault => simp [first, second] at h
    | ok q =>
      simp only [first, second, Except.ok.injEq, Prod.mk.injEq] at h
      obtain ⟨rfl, rfl⟩ := h
      exact ⟨p'.2, rfl, second⟩

/-- A value that may be missing is a zero, or a one and the value. -/
theorem decode_option {c : Codec α} {bytes rest : Bytes} {a? : Option α}
    (h : c.option.decode bytes = .ok (a?, rest)) :
    (a? = none ∧ bytes = 0 :: rest) ∨
      ∃ a middle, a? = some a ∧ bytes = 1 :: middle ∧ c.decode middle = .ok (a, rest) := by
  cases bytes with
  | nil => simp [Codec.option] at h
  | cons b bytes =>
    simp only [Codec.option] at h
    split at h
    · simp only [Except.ok.injEq, Prod.mk.injEq] at h
      obtain ⟨rfl, rfl⟩ := h
      exact .inl ⟨rfl, by simp [*]⟩
    · split at h
      · cases read : c.decode bytes with
        | error fault => simp [read] at h
        | ok p =>
          simp only [read, Except.ok.injEq, Prod.mk.injEq] at h
          obtain ⟨rfl, rfl⟩ := h
          exact .inr ⟨p.1, bytes, rfl, by simp [*], read⟩
      · simp at h

/-- Values read one after the other. -/
inductive ReadsItems (c : Codec α) : Bytes → List α → Bytes → Prop where
  | nil (bytes : Bytes) : ReadsItems c bytes [] bytes
  | cons {bytes middle rest : Bytes} {a : α} {as : List α}
      (first : c.decode bytes = .ok (a, middle)) (later : ReadsItems c middle as rest) :
      ReadsItems c bytes (a :: as) rest

theorem readsItems_of_decodeItems {c : Codec α} {n : Nat} {acc as : List α} {bytes rest : Bytes}
    (h : c.decodeItems n acc bytes = .ok (as, rest)) :
    ∃ later, as = acc.reverse ++ later ∧ later.length = n ∧ ReadsItems c bytes later rest := by
  induction n generalizing acc bytes with
  | zero =>
    simp only [decodeItems, Except.ok.injEq, Prod.mk.injEq] at h
    obtain ⟨rfl, rfl⟩ := h
    exact ⟨[], by simp, rfl, .nil bytes⟩
  | succ n ih =>
    simp only [decodeItems] at h
    cases first : c.decode bytes with
    | error fault => simp [first] at h
    | ok read =>
      simp only [first] at h
      obtain ⟨later, rfl, count, items⟩ := ih h
      exact ⟨read.1 :: later, by simp, by simp [count], .cons first items⟩

theorem ReadsItems.decodeItems {c : Codec α} {as : List α} {bytes rest : Bytes}
    (h : ReadsItems c bytes as rest) (acc : List α) :
    c.decodeItems as.length acc bytes = .ok (acc.reverse ++ as, rest) := by
  induction h generalizing acc with
  | nil bytes => simp [Codec.decodeItems]
  | @cons bytes middle rest a as first _ ih =>
    have later := ih (a :: acc)
    simp only [List.length_cons, Codec.decodeItems, first, later]
    simp

/-- A list is as many values as its count says. -/
theorem decode_list_iff {c : Codec α} {as : List α} {bytes rest : Bytes} :
    c.list.decode bytes = .ok (as, rest) ↔
      ∃ count middle, uint64.decode bytes = .ok (count, middle) ∧ count.toNat = as.length ∧
        ReadsItems c middle as rest := by
  constructor
  · intro h
    simp only [list] at h
    cases first : uint64.decode bytes with
    | error fault => simp [first] at h
    | ok read =>
      simp only [first] at h
      obtain ⟨later, rfl, length, items⟩ := readsItems_of_decodeItems h
      exact ⟨read.1, read.2, rfl, by simp [length], items⟩
  · rintro ⟨count, middle, first, length, items⟩
    simp only [list, first, length, items.decodeItems]
    simp

/-! ## Canonical formats -/

theorem canonical_unit : Canonical unit := by
  intro bytes a rest h
  simp only [unit, Except.ok.injEq, Prod.mk.injEq, true_and] at h
  simp [unit, h]

theorem canonical_word (width : Nat) : Canonical (word width) := by
  intro bytes n rest h
  obtain ⟨front, split, rfl⟩ := decode_word h
  obtain ⟨rfl, length⟩ := splitBytes?_eq_some split
  have fits : ofLittleEndian front < 2 ^ (8 * width) := length ▸ ofLittleEndian_lt front
  have same : littleEndian width (ofLittleEndian front) = front :=
    length ▸ littleEndian_ofLittleEndian front
  simp [word, Nat.mod_eq_of_lt fits, same]

theorem canonical_bool : Canonical bool := fun _ _ _ => decode_bool

/-- Renaming values adds no spelling if no two values get one name. -/
theorem Canonical.imap {c : Codec α} (h : Canonical c) {f : α → β} {g : β → α}
    (back : ∀ a, g (f a) = a) : Canonical (c.imap f g) := by
  intro bytes b rest read
  obtain ⟨a, first, rfl⟩ := decode_imap read
  rw [h _ _ _ first]
  simp only [Codec.imap, back]

theorem Canonical.record {c : Codec α} (h : Canonical c) {f : Fields α β} (exact : f.Exact) :
    Canonical (c.record f) :=
  h.imap exact.parts_build

theorem Canonical.pair {c : Codec α} {d : Codec β} (hc : Canonical c) (hd : Canonical d) :
    Canonical (c.pair d) := by
  intro bytes p rest read
  obtain ⟨middle, first, second⟩ := decode_pair read
  rw [hc _ _ _ first, hd _ _ _ second, Codec.pair, List.append_assoc]

theorem Canonical.tagged {body : κ → Type} {tag : Codec κ} {format : (k : κ) → Codec (body k)}
    (ht : Canonical tag) (hf : ∀ k, Canonical (format k)) : Canonical (tagged tag format) := by
  intro bytes p rest read
  obtain ⟨middle, first, second⟩ := decode_tagged read
  rw [ht _ _ _ first, hf p.1 _ _ _ second, Codec.tagged, List.append_assoc]

theorem Canonical.option {c : Codec α} (h : Canonical c) : Canonical c.option := by
  intro bytes a? rest read
  rcases decode_option read with ⟨rfl, rfl⟩ | ⟨a, middle, rfl, rfl, present⟩
  · rfl
  · rw [h _ _ _ present]
    rfl

theorem canonical_uint32 : Canonical uint32 := (canonical_word 4).imap fun _ => rfl

theorem canonical_uint64 : Canonical uint64 := (canonical_word 8).imap fun _ => rfl

/-- Counted bytes are their count and as many bytes. -/
theorem counted_of_decode {refuse : Fault} {bytes front rest : Bytes}
    (h : (counted refuse).decode bytes = .ok (front, rest)) :
    bytes = uint64.encode (UInt64.ofNat front.length) ++ front ++ rest := by
  obtain ⟨count, middle, first, split⟩ := counts_of_decode h
  obtain ⟨rfl, length⟩ := splitBytes?_eq_some split
  rw [canonical_uint64 _ _ _ first, length]
  simp

theorem canonical_bytes : Canonical bytes := fun _ _ _ => counted_of_decode

theorem canonical_text : Canonical text := by
  intro bytes t rest h
  obtain ⟨front, read, spelled⟩ := decode_text h
  have same : Utf8.encode t = front := Utf8.encode_of_decode spelled
  have whole := counted_of_decode read
  rwa [← same, Utf8.length_encode] at whole

theorem canonical_ordinal [BEq κ] [LawfulBEq κ] {all : List κ} (refuse : Nat → Fault)
    (l : Listing all) : Canonical (ordinal all refuse) := by
  intro bytes k rest h
  obtain ⟨index, first, found⟩ := decode_ordinal h
  obtain ⟨place, rfl⟩ := List.getElem?_eq_some_iff.1 found
  have same : all.idxOf all[index.toNat] = index.toNat := l.nodup.idxOf_getElem _ place
  rw [canonical_uint32 _ _ _ first]
  simp only [ordinal, same, UInt32.ofNat_toNat]

theorem canonical_keyword (all : List κ) (tag : κ → String) : Canonical (keyword all tag) := by
  intro bytes k rest h
  obtain ⟨t, word, found⟩ := decode_keyword h
  have same : tag k = t := by simpa using List.find?_some found
  rw [canonical_text _ _ _ word]
  simp only [keyword, same]

theorem Canonical.readsItems {c : Codec α} (h : Canonical c) {as : List α} {bytes rest : Bytes}
    (items : ReadsItems c bytes as rest) : bytes = as.flatMap c.encode ++ rest := by
  induction items with
  | nil bytes => rfl
  | cons first _ ih => rw [h _ _ _ first, ih, List.flatMap_cons, List.append_assoc]

theorem Canonical.list {c : Codec α} (h : Canonical c) : Canonical c.list := by
  intro bytes as rest read
  obtain ⟨count, middle, first, length, items⟩ := decode_list_iff.1 read
  rw [canonical_uint64 _ _ _ first, h.readsItems items]
  simp only [Codec.list, ← length, UInt64.ofNat_toNat, List.append_assoc]

theorem Primitive.canonical {c : Codec α} (h : Primitive c) : Canonical c := by
  cases h with
  | unit => exact canonical_unit
  | word width => exact canonical_word width
  | bool => exact canonical_bool
  | text => exact canonical_text
  | bytes => exact canonical_bytes
  | ordinal refuse l => exact canonical_ordinal refuse l
  | keyword l distinct => exact canonical_keyword _ _

/-- Every format that is built without sets is canonical. -/
theorem Built.canonical {c : Codec α} (h : Built False c) : Canonical c := by
  induction h with
  | primitive h => exact h.canonical
  | record _ exact ih => exact ih.record exact
  | pair _ _ ihc ihd => exact ihc.pair ihd
  | tagged _ _ iht ihf => exact iht.tagged ihf
  | option _ ih => exact ih.option
  | list _ solid ih => exact ih.list
  | keySet allowed => exact allowed.elim

end Codec

end CallDebugger
