import CallDebugger.Proofs.Format.Built
import CallDebugger.Proofs.Format.Words

/-!
# Written values are read back

A format is faithful if its sizes are right and every value is read back from its bytes, whatever
follows them. Counts are 64-bit words, so a value is only asked to be read back if its bytes can be
counted. Every format that is built is faithful (`Codec.Built.faithful`).
-/

namespace CallDebugger

variable {α β κ : Type}

/-- Sizes are right, and a value whose bytes can be counted is read back from them. -/
structure Codec.Faithful (c : Codec α) : Prop where
  length_encode : ∀ a, (c.encode a).length = c.size a
  decode_encode : ∀ a rest, c.size a < UInt64.size → c.decode (c.encode a ++ rest) = .ok (a, rest)

namespace Codec

/-- The bytes of a value alone. -/
theorem Faithful.decode_encode_self {c : Codec α} (h : Faithful c) {a : α}
    (small : c.size a < UInt64.size) : c.decode (c.encode a) = .ok (a, []) := by
  have read := h.decode_encode a [] small
  rwa [List.append_nil] at read

theorem faithful_unit : Faithful unit where
  length_encode _ := rfl
  decode_encode _ _ _ := rfl

theorem faithful_word (width : Nat) : Faithful (word width) where
  length_encode n := length_littleEndian width n.toNat
  decode_encode n rest _ := by
    have split := splitBytes?_append_of_length (length_littleEndian width n.toNat) rest
    have back : BitVec.ofNat (8 * width) (ofLittleEndian (littleEndian width n.toNat)) = n := by
      rw [ofLittleEndian_littleEndian n.isLt, BitVec.ofNat_toNat, BitVec.setWidth_eq]
    simp only [word, split, back]

theorem faithful_bool : Faithful bool where
  length_encode _ := rfl
  decode_encode b rest _ := by cases b <;> rfl

/-- Renaming values loses nothing if every name is found again. -/
theorem Faithful.imap {c : Codec α} (h : Faithful c) {f : α → β} {g : β → α}
    (back : ∀ b, f (g b) = b) : Faithful (c.imap f g) where
  length_encode b := h.length_encode (g b)
  decode_encode b rest small := by
    have read := h.decode_encode (g b) rest small
    simp only [Codec.imap, read, back]

theorem Faithful.record {c : Codec α} (h : Faithful c) {f : Fields α β} (exact : f.Exact) :
    Faithful (c.record f) :=
  h.imap exact.build_parts

theorem Faithful.pair {c : Codec α} {d : Codec β} (hc : Faithful c) (hd : Faithful d) :
    Faithful (c.pair d) where
  length_encode p := by
    rw [size_pair, ← hc.length_encode, ← hd.length_encode]
    exact List.length_append
  decode_encode p rest small := by
    rw [size_pair] at small
    have first := hc.decode_encode p.1 (d.encode p.2 ++ rest) (by omega)
    have second := hd.decode_encode p.2 rest (by omega)
    simp only [Codec.pair, List.append_assoc, first, second]

theorem Faithful.tagged {body : κ → Type} {tag : Codec κ} {format : (k : κ) → Codec (body k)}
    (ht : Faithful tag) (hf : ∀ k, Faithful (format k)) : Faithful (tagged tag format) where
  length_encode p := by
    rw [size_tagged, ← ht.length_encode, ← (hf p.1).length_encode]
    exact List.length_append
  decode_encode p rest small := by
    rw [size_tagged] at small
    have first := ht.decode_encode p.1 ((format p.1).encode p.2 ++ rest) (by omega)
    have second := (hf p.1).decode_encode p.2 rest (by omega)
    simp only [Codec.tagged, List.append_assoc, first, second]

theorem Faithful.option {c : Codec α} (h : Faithful c) : Faithful c.option where
  length_encode
    | none => rfl
    | some a => by
      rw [show c.option.encode (some a) = 1 :: c.encode a from rfl, List.length_cons,
        h.length_encode, size_option_some, Nat.add_comm]
  decode_encode
    | none, rest, _ => rfl
    | some a, rest, small => by
      rw [size_option_some] at small
      have fits : c.size a < UInt64.size := by omega
      have read := h.decode_encode a rest fits
      simp [Codec.option, read]

theorem faithful_uint32 : Faithful uint32 := (faithful_word 4).imap fun _ => rfl

theorem faithful_uint64 : Faithful uint64 := (faithful_word 8).imap fun _ => rfl

theorem length_encode_uint64 (n : UInt64) : (uint64.encode n).length = 8 :=
  faithful_uint64.length_encode n

theorem decode_count (n : Nat) (rest : Bytes) :
    uint64.decode (uint64.encode (UInt64.ofNat n) ++ rest) = .ok (UInt64.ofNat n, rest) :=
  faithful_uint64.decode_encode _ rest (show 8 < UInt64.size by decide)

theorem toNat_count {n : Nat} (h : n < UInt64.size) : (UInt64.ofNat n).toNat = n :=
  UInt64.toNat_ofNat_of_lt' h

/-- Counted bytes are read back. -/
theorem decode_counted {front : Bytes} (h : front.length < UInt64.size) (refuse : Fault)
    (rest : Bytes) :
    (counted refuse).decode (uint64.encode (UInt64.ofNat front.length) ++ front ++ rest) =
      .ok (front, rest) := by
  simp only [counted, List.append_assoc, decode_count, toNat_count h, splitBytes?_append]

theorem encode_bytes (front : Bytes) :
    bytes.encode front = uint64.encode (UInt64.ofNat front.length) ++ front := rfl

theorem faithful_bytes : Faithful bytes where
  length_encode front := by
    rw [encode_bytes, List.length_append, length_encode_uint64, size_bytes]
  decode_encode front rest small := by
    rw [size_bytes] at small
    have fits : front.length < UInt64.size := by omega
    rw [encode_bytes]
    simp only [bytes, decode_counted fits]

theorem faithful_text : Faithful text where
  length_encode t := by
    rw [show text.encode t = uint64.encode (UInt64.ofNat t.utf8ByteSize) ++ Utf8.encode t from rfl,
      List.length_append, length_encode_uint64, Utf8.length_encode, size_text]
  decode_encode t rest small := by
    rw [size_text, ← Utf8.length_encode] at small
    have fits : (Utf8.encode t).length < UInt64.size := by omega
    have front := decode_counted fits .textCutOff rest
    rw [Utf8.length_encode] at front
    simp only [text, front, Utf8.decode_encode]

theorem faithful_ordinal [BEq κ] [LawfulBEq κ] {all : List κ} (refuse : Nat → Fault)
    (l : Listing all) : Faithful (ordinal all refuse) where
  length_encode _ := rfl
  decode_encode k rest _ := by
    have place : all.idxOf k < all.length := List.idxOf_lt_length_of_mem (l.complete k)
    have short : all.idxOf k < UInt32.size := Nat.lt_trans place l.short
    have index : (UInt32.ofNat (all.idxOf k)).toNat = all.idxOf k :=
      UInt32.toNat_ofNat_of_lt' short
    have found : all[all.idxOf k]? = some k := by
      rw [List.getElem?_eq_getElem place, List.getElem_idxOf]
    have read := faithful_uint32.decode_encode (UInt32.ofNat (all.idxOf k)) rest
      (show 4 < UInt64.size by decide)
    simp only [ordinal, read, index, found]

theorem faithful_keyword {all : List κ} {tag : κ → String} (l : Listing all)
    (distinct : ∀ k k', tag k = tag k' → k = k') : Faithful (keyword all tag) where
  length_encode k := faithful_text.length_encode (tag k)
  decode_encode k rest small := by
    have read := faithful_text.decode_encode (tag k) rest small
    have found : all.find? (fun k' => tag k' == tag k) = some k := by
      have some : (all.find? fun k' => tag k' == tag k).isSome :=
        List.find?_isSome.2 ⟨k, l.complete k, beq_self_eq_true (tag k)⟩
      obtain ⟨k', hk'⟩ := Option.isSome_iff_exists.1 some
      have same := List.find?_some hk'
      rw [hk', distinct k' k (by simpa using same)]
    simp only [keyword, read, found]

/-- As many items as were written are read back, after those read before. -/
theorem Faithful.decodeItems {c : Codec α} (h : Faithful c) (rest : Bytes) {as : List α}
    (small : ∀ a ∈ as, c.size a < UInt64.size) (acc : List α) :
    c.decodeItems as.length acc (as.flatMap c.encode ++ rest) = .ok (acc.reverse ++ as, rest) := by
  induction as generalizing acc with
  | nil => simp [Codec.decodeItems]
  | cons a as ih =>
    have first := h.decode_encode a (as.flatMap c.encode ++ rest) (small a List.mem_cons_self)
    have later := ih (fun b hb => small b (List.mem_cons_of_mem a hb)) (a :: acc)
    simp only [List.length_cons, Codec.decodeItems, List.flatMap_cons, List.append_assoc, first,
      later]
    simp

theorem Faithful.list {c : Codec α} (h : Faithful c) (solid : c.Solid) :
    Faithful c.list where
  length_encode as := by
    have items : (as.flatMap c.encode).length + 8 = c.list.size as := by
      induction as with
      | nil => rfl
      | cons a as ih =>
        rw [List.flatMap_cons, List.length_append, h.length_encode, size_list_cons, ← ih]
        omega
    rw [show c.list.encode as = uint64.encode (UInt64.ofNat as.length) ++ as.flatMap c.encode
      from rfl, List.length_append, length_encode_uint64, Nat.add_comm, items]
  decode_encode as rest small := by
    have fits : as.length < UInt64.size := Nat.lt_trans (solid.length_lt_size_list as) small
    have items := h.decodeItems rest
      (fun a ha => Nat.lt_of_le_of_lt (size_le_size_list c ha) small) []
    simp only [Codec.list, List.append_assoc, decode_count, toNat_count fits, items]
    rfl

theorem Faithful.keySet [Keyed α] {c : Codec α} (h : Faithful c) (solid : c.Solid) :
    Faithful c.keySet :=
  (h.list solid).imap KeySet.ofList_items

theorem Primitive.faithful {c : Codec α} (h : Primitive c) : Faithful c := by
  cases h with
  | unit => exact faithful_unit
  | word width => exact faithful_word width
  | bool => exact faithful_bool
  | text => exact faithful_text
  | bytes => exact faithful_bytes
  | ordinal refuse l => exact faithful_ordinal refuse l
  | keyword l distinct => exact faithful_keyword l distinct

/-- Every format that is built is faithful. -/
theorem Built.faithful {sets : Prop} {c : Codec α} (h : Built sets c) : Faithful c := by
  induction h with
  | primitive h => exact h.faithful
  | record _ exact ih => exact ih.record exact
  | pair _ _ ihc ihd => exact ihc.pair ihd
  | tagged _ _ iht ihf => exact iht.tagged ihf
  | option _ ih => exact ih.option
  | list _ solid ih => exact ih.list solid
  | keySet _ _ solid ih => exact ih.keySet solid

end Codec

end CallDebugger
