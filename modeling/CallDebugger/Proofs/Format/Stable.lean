import CallDebugger.Proofs.Format.Canonical

/-!
# Nothing behind a value is looked at

A format is stable if a value that was read is still read when more bytes follow, and they are left
behind it. Then a value that takes up all bytes of a string cannot be read from a part of that
string (`Codec.Stable.refuses`). Every format that is built is stable (`Codec.Built.stable`).
-/

namespace CallDebugger

variable {α β κ : Type}

/-- What is read does not depend on what follows it. -/
def Codec.Stable (c : Codec α) : Prop :=
  ∀ bytes a rest, c.decode bytes = .ok (a, rest) →
    ∀ more, c.decode (bytes ++ more) = .ok (a, rest ++ more)

theorem splitBytes?_append_of_eq_some {n : Nat} {bytes front rest : Bytes}
    (h : splitBytes? n bytes = some (front, rest)) (more : Bytes) :
    splitBytes? n (bytes ++ more) = some (front, rest ++ more) := by
  obtain ⟨rfl, length⟩ := splitBytes?_eq_some h
  rw [List.append_assoc]
  exact splitBytes?_append_of_length length (rest ++ more)

namespace Codec

/-- A value that takes up all bytes is not read from fewer. -/
theorem Stable.refuses {c : Codec α} (h : Stable c) {a : α} {front rest : Bytes}
    (whole : c.decode (front ++ rest) = .ok (a, [])) (missing : rest ≠ []) :
    ∃ fault, c.decode front = .error fault := by
  cases read : c.decode front with
  | error fault => exact ⟨fault, rfl⟩
  | ok p =>
    have same := h front p.1 p.2 read rest
    rw [whole] at same
    have used : p.2 ++ rest = [] := (Prod.mk.inj (Except.ok.inj same)).2.symm
    exact absurd (List.append_eq_nil_iff.1 used).2 missing

theorem stable_unit : Stable unit := by
  intro bytes a rest h more
  cases h
  rfl

theorem stable_word (width : Nat) : Stable (word width) := by
  intro bytes n rest h more
  obtain ⟨front, split, rfl⟩ := decode_word h
  simp only [word, splitBytes?_append_of_eq_some split]

theorem stable_bool : Stable bool := by
  intro bytes b rest h more
  rw [decode_bool h]
  cases b <;> rfl

theorem Stable.imap {c : Codec α} (h : Stable c) (f : α → β) (g : β → α) :
    Stable (c.imap f g) := by
  intro bytes b rest read more
  obtain ⟨a, first, rfl⟩ := decode_imap read
  simp only [Codec.imap, h _ _ _ first more]

theorem Stable.pair {c : Codec α} {d : Codec β} (hc : Stable c) (hd : Stable d) :
    Stable (c.pair d) := by
  intro bytes p rest read more
  obtain ⟨middle, first, second⟩ := decode_pair read
  simp only [Codec.pair, hc _ _ _ first more, hd _ _ _ second more]

theorem Stable.tagged {body : κ → Type} {tag : Codec κ} {format : (k : κ) → Codec (body k)}
    (ht : Stable tag) (hf : ∀ k, Stable (format k)) : Stable (tagged tag format) := by
  intro bytes p rest read more
  obtain ⟨middle, first, second⟩ := decode_tagged read
  simp only [Codec.tagged, ht _ _ _ first more, hf p.1 _ _ _ second more]

theorem Stable.option {c : Codec α} (h : Stable c) : Stable c.option := by
  intro bytes a? rest read more
  rcases decode_option read with ⟨rfl, rfl⟩ | ⟨a, middle, rfl, rfl, present⟩
  · rfl
  · have later := h _ _ _ present more
    simp [Codec.option, later]

theorem stable_uint32 : Stable uint32 := (stable_word 4).imap _ _

theorem stable_uint64 : Stable uint64 := (stable_word 8).imap _ _

theorem stable_counted (refuse : Fault) : Stable (counted refuse) := by
  intro bytes front rest h more
  obtain ⟨count, middle, first, split⟩ := counts_of_decode h
  simp only [counted, stable_uint64 _ _ _ first more, splitBytes?_append_of_eq_some split]

theorem stable_text : Stable text := by
  intro bytes t rest h more
  obtain ⟨front, read, spelled⟩ := decode_text h
  simp only [text, stable_counted _ _ _ _ read more, spelled]

theorem stable_ordinal [BEq κ] (all : List κ) (refuse : Nat → Fault) :
    Stable (ordinal all refuse) := by
  intro bytes k rest h more
  obtain ⟨index, first, found⟩ := decode_ordinal h
  simp only [ordinal, stable_uint32 _ _ _ first more, found]

theorem stable_keyword (all : List κ) (tag : κ → String) : Stable (keyword all tag) := by
  intro bytes k rest h more
  obtain ⟨t, word, found⟩ := decode_keyword h
  simp only [keyword, stable_text _ _ _ word more, found]

theorem ReadsItems.append {c : Codec α} (h : Stable c) {as : List α} {bytes rest : Bytes}
    (items : ReadsItems c bytes as rest) (more : Bytes) :
    ReadsItems c (bytes ++ more) as (rest ++ more) := by
  induction items with
  | nil bytes => exact .nil _
  | cons first _ ih => exact .cons (h _ _ _ first more) ih

theorem Stable.list {c : Codec α} (h : Stable c) : Stable c.list := by
  intro bytes as rest read more
  obtain ⟨count, middle, first, length, items⟩ := decode_list_iff.1 read
  exact decode_list_iff.2
    ⟨count, middle ++ more, stable_uint64 _ _ _ first more, length, items.append h more⟩

theorem Primitive.stable {c : Codec α} (h : Primitive c) : Stable c := by
  cases h with
  | unit => exact stable_unit
  | word width => exact stable_word width
  | bool => exact stable_bool
  | text => exact stable_text
  | bytes => exact stable_counted _
  | ordinal refuse l => exact stable_ordinal _ _
  | keyword l distinct => exact stable_keyword _ _

/-- Every format that is built is stable. -/
theorem Built.stable {sets : Prop} {c : Codec α} (h : Built sets c) : Stable c := by
  induction h with
  | primitive h => exact h.stable
  | record _ _ ih => exact ih.imap _ _
  | pair _ _ ihc ihd => exact ihc.pair ihd
  | tagged _ _ iht ihf => exact iht.tagged ihf
  | option _ ih => exact ih.option
  | list _ _ ih => exact ih.list
  | keySet _ _ _ ih => exact ih.list.imap _ _

end Codec

end CallDebugger
