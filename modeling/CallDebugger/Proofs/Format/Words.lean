import CallDebugger.Protocol.Codec
import Mathlib.Algebra.Group.Nat.Defs

/-!
# Words and texts as bytes

What the primitives of the wire do: a word is read back from its bytes (`ofLittleEndian_littleEndian`),
a byte string is split where it was joined (`splitBytes?_append`), and inserting the members of a
set one by one gives the set (`KeySet.ofList_items`).
-/

namespace CallDebugger

@[simp] theorem length_littleEndian (width n : Nat) : (littleEndian width n).length = width := by
  induction width generalizing n with
  | zero => rfl
  | succ width ih => simp [littleEndian, ih]

/-- A number whose bits fit the bytes is read back from them. -/
theorem ofLittleEndian_littleEndian {width n : Nat} (h : n < 2 ^ (8 * width)) :
    ofLittleEndian (littleEndian width n) = n := by
  induction width generalizing n with
  | zero =>
    have : n = 0 := by simpa using h
    rw [this]; rfl
  | succ width ih =>
    have split : 2 ^ (8 * (width + 1)) = 256 * 2 ^ (8 * width) := by
      rw [Nat.mul_add, Nat.pow_add, Nat.mul_comm]
    have high : n / 256 < 2 ^ (8 * width) := by
      rw [split] at h
      exact Nat.div_lt_of_lt_mul h
    have low : (UInt8.ofNat n).toNat = n % 256 := rfl
    rw [littleEndian, ofLittleEndian, ih high, low]
    omega

theorem splitBytes?_append (front rest : Bytes) :
    splitBytes? front.length (front ++ rest) = some (front, rest) := by
  simp [splitBytes?]

/-- The same with the length given by another name. -/
theorem splitBytes?_append_of_length {n : Nat} {front : Bytes} (h : front.length = n)
    (rest : Bytes) : splitBytes? n (front ++ rest) = some (front, rest) :=
  h ▸ splitBytes?_append front rest

/-- What is split is what was joined. -/
theorem splitBytes?_eq_some {n : Nat} {bytes front rest : Bytes}
    (h : splitBytes? n bytes = some (front, rest)) : bytes = front ++ rest ∧ front.length = n := by
  simp only [splitBytes?, Option.ite_none_right_eq_some, Option.some.injEq, Prod.mk.injEq] at h
  obtain ⟨size, rfl, rfl⟩ := h
  exact ⟨(List.take_append_drop n bytes).symm, size⟩

theorem splitBytes?_eq_none_iff {n : Nat} {bytes : Bytes} :
    splitBytes? n bytes = none ↔ bytes.length < n := by
  simp only [splitBytes?, ite_eq_right_iff, reduceCtorEq, imp_false, List.length_take]
  omega

/-- Bytes are the word that they spell. -/
theorem littleEndian_ofLittleEndian (bytes : Bytes) :
    littleEndian bytes.length (ofLittleEndian bytes) = bytes := by
  induction bytes with
  | nil => rfl
  | cons b bytes ih =>
    have below : b.toNat < 256 := b.toNat_lt
    have low : UInt8.ofNat (b.toNat + 256 * ofLittleEndian bytes) = b := by
      apply UInt8.toNat_inj.1
      simp only [UInt8.toNat_ofNat']
      omega
    have high : (b.toNat + 256 * ofLittleEndian bytes) / 256 = ofLittleEndian bytes := by omega
    rw [List.length_cons, ofLittleEndian, littleEndian, low, high, ih]

/-- The number that bytes spell has no more bits than they. -/
theorem ofLittleEndian_lt (bytes : Bytes) : ofLittleEndian bytes < 2 ^ (8 * bytes.length) := by
  induction bytes with
  | nil => simp [ofLittleEndian]
  | cons b bytes ih =>
    have split : 2 ^ (8 * (bytes.length + 1)) = 256 * 2 ^ (8 * bytes.length) := by
      rw [Nat.mul_add, Nat.pow_add, Nat.mul_comm]
    have below : b.toNat < 256 := b.toNat_lt
    rw [List.length_cons, ofLittleEndian, split]
    omega

/-- Bytes that spell a text are its bytes. -/
theorem Utf8.encode_of_decode {bytes : Bytes} {t : String} (h : Utf8.decode bytes = .ok t) :
    Utf8.encode t = bytes := by
  unfold Utf8.decode at h
  cases read : String.fromUTF8? ⟨bytes.toArray⟩ with
  | none => simp [read] at h
  | some t' =>
    simp only [read, Except.ok.injEq] at h
    subst h
    unfold String.fromUTF8? at read
    split at read
    · cases read
      simp [Utf8.encode, String.fromUTF8]
    · simp at read

namespace KeySet

variable {α : Type} [Keyed α]

/-- An element above every member goes to the end. -/
theorem insertItem_append {a : α} {bs : List α} (h : ∀ b ∈ bs, key b < key a) :
    insertItem a bs = bs ++ [a] := by
  induction bs with
  | nil => rfl
  | cons b bs ih =>
    have below : key b < key a := h b List.mem_cons_self
    have later : insertItem a bs = bs ++ [a] := ih fun c hc => h c (List.mem_cons_of_mem b hc)
    rw [insertItem, if_neg (by omega), if_neg (by omega), later]
    rfl

theorem items_foldl_insert {s : KeySet α} {as : List α}
    (h : (s.items ++ as).Pairwise fun a b => key a < key b) :
    (as.foldl insert s).items = s.items ++ as := by
  induction as generalizing s with
  | nil => simp
  | cons a as ih =>
    have above : ∀ b ∈ s.items, key b < key a := fun b hb =>
      (List.pairwise_append.1 h).2.2 b hb a List.mem_cons_self
    have step : (s.insert a).items = s.items ++ [a] := insertItem_append above
    have later := ih (s := s.insert a) (by rw [step]; simpa using h)
    rw [List.foldl_cons, later, step]
    simp

/-- The members of a set, inserted one by one, are the set. -/
theorem ofList_items (s : KeySet α) : ofList s.items = s := by
  have members : (ofList s.items).items = [] ++ s.items :=
    items_foldl_insert (s := empty) (by simpa [empty] using s.ascending)
  exact ext members

end KeySet

end CallDebugger
