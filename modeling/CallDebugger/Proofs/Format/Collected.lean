import CallDebugger.Proofs.Format.Canonical
import CallDebugger.Proofs.Format.Faithful

/-!
# Sets are collected from lists

Reading a set reads a list, whose elements may be in any order and occur more than once, and
collects them. `Codec.Collects` compares a format that has sets with one that has lists in their
place: both read the same bytes, collecting never makes the encoding longer, and it leaves the
encoding as it is if the lists are in strictly ascending order. As the laws of formats it has one
lemma for each way of building.
-/

namespace CallDebugger

variable {α β γ δ κ : Type}

/-- What `c` reads is the collection of what `raw` reads from the same bytes. It takes no more
bytes, and the same bytes if what was read is tidy. -/
def Codec.Collects (c : Codec α) (raw : Codec γ) (tidy : γ → Prop) : Prop :=
  ∀ bytes a rest, c.decode bytes = .ok (a, rest) →
    ∃ w, raw.decode bytes = .ok (w, rest) ∧ (c.encode a).length ≤ (raw.encode w).length ∧
      (tidy w → c.encode a = raw.encode w)

/-! ## What collecting does to the bytes -/

namespace KeySet

variable [Keyed α]

/-- Inserting an element adds no more than its bytes. -/
theorem length_flatMap_insertItem (f : α → Bytes) (a : α) (bs : List α) :
    ((insertItem a bs).flatMap f).length ≤ (f a).length + (bs.flatMap f).length := by
  induction bs with
  | nil => simp [insertItem]
  | cons b bs ih =>
    simp only [insertItem]
    split
    · simp
    · split
      · simp
      · simp only [List.flatMap_cons, List.length_append] at ih ⊢
        omega

theorem length_flatMap_foldl_insert (f : α → Bytes) (s : KeySet α) (as : List α) :
    ((as.foldl insert s).items.flatMap f).length ≤
      (s.items.flatMap f).length + (as.flatMap f).length := by
  induction as generalizing s with
  | nil => simp
  | cons a as ih =>
    have rest := ih (s.insert a)
    have one : ((s.insert a).items.flatMap f).length ≤
        (f a).length + (s.items.flatMap f).length := length_flatMap_insertItem f a s.items
    rw [List.foldl_cons, List.flatMap_cons, List.length_append]
    omega

theorem length_flatMap_ofList (f : α → Bytes) (as : List α) :
    ((ofList as).items.flatMap f).length ≤ (as.flatMap f).length := by
  have whole := length_flatMap_foldl_insert f empty as
  exact Nat.le_trans whole (by simp [empty])

/-- Elements in strictly ascending order are collected as they are. -/
theorem items_ofList {as : List α} (h : as.Pairwise fun a b => key a < key b) :
    (ofList as).items = as := by
  have members : (ofList as).items = [] ++ as := items_foldl_insert (s := empty) (by simpa [empty])
  simpa using members

end KeySet

namespace Codec

theorem length_encode_list (c : Codec α) (as : List α) :
    (c.list.encode as).length = 8 + (as.flatMap c.encode).length := by
  have parts : c.list.encode as =
      uint64.encode (UInt64.ofNat as.length) ++ as.flatMap c.encode := rfl
  rw [parts, List.length_append, length_encode_uint64]

/-! ## Formats with sets -/

/-- A format collects from itself. -/
theorem collects_self (c : Codec α) : Collects c c fun _ => True := by
  intro bytes a rest read
  exact ⟨a, read, Nat.le_refl _, fun _ => rfl⟩

theorem collects_keySet [Keyed α] (c : Codec α) :
    Collects c.keySet c.list fun as => as.Pairwise fun a b => key a < key b := by
  intro bytes s rest read
  obtain ⟨as, listed, rfl⟩ := decode_imap read
  have spelled : c.keySet.encode (KeySet.ofList as) = c.list.encode (KeySet.ofList as).items := rfl
  refine ⟨as, listed, ?_, ?_⟩
  · have shorter := KeySet.length_flatMap_ofList c.encode as
    rw [spelled, length_encode_list, length_encode_list]
    omega
  · intro ascending
    rw [spelled, KeySet.items_ofList ascending]

variable {c : Codec α} {d : Codec β} {raw : Codec γ} {raw' : Codec δ} {tidy : γ → Prop}
  {tidy' : δ → Prop}

theorem Collects.mono (h : Collects c raw tidy) {tidier : γ → Prop}
    (stronger : ∀ w, tidier w → tidy w) : Collects c raw tidier := by
  intro bytes a rest read
  obtain ⟨w, readW, shorter, same⟩ := h bytes a rest read
  exact ⟨w, readW, shorter, fun h => same (stronger w h)⟩

theorem Collects.record (h : Collects c raw tidy) {f : Fields α β} (exact : f.Exact) :
    Collects (c.record f) raw tidy := by
  intro bytes b rest read
  obtain ⟨a, parts, rfl⟩ := decode_imap read
  have spelled : (c.record f).encode (f.build a) = c.encode a :=
    congrArg c.encode (exact.parts_build a)
  rw [spelled]
  exact h bytes a rest parts

theorem Collects.pair (hc : Collects c raw tidy) (hd : Collects d raw' tidy') :
    Collects (c.pair d) (raw.pair raw') fun w => tidy w.1 ∧ tidy' w.2 := by
  intro bytes p rest read
  obtain ⟨middle, first, second⟩ := decode_pair read
  obtain ⟨v, readV, shorterV, sameV⟩ := hc bytes p.1 middle first
  obtain ⟨w, readW, shorterW, sameW⟩ := hd middle p.2 rest second
  refine ⟨(v, w), by simp only [Codec.pair, readV, readW], ?_, ?_⟩
  · simp only [Codec.pair, List.length_append]
    omega
  · rintro ⟨tidyV, tidyW⟩
    simp only [Codec.pair, sameV tidyV, sameW tidyW]

theorem Collects.tagged {body body' : κ → Type} (tag : Codec κ) {format : (k : κ) → Codec (body k)}
    {format' : (k : κ) → Codec (body' k)} {tidy : (k : κ) → body' k → Prop}
    (h : ∀ k, Collects (format k) (format' k) (tidy k)) :
    Collects (tagged tag format) (tagged tag format') fun w => tidy w.1 w.2 := by
  intro bytes p rest read
  obtain ⟨middle, first, second⟩ := decode_tagged read
  obtain ⟨w, readW, shorter, same⟩ := h p.1 middle p.2 rest second
  refine ⟨⟨p.1, w⟩, by simp only [Codec.tagged, first, readW], ?_, ?_⟩
  · simp only [Codec.tagged, List.length_append]
    omega
  · intro tidyW
    simp only [Codec.tagged, same tidyW]

/-- The same for values one after the other. -/
theorem Collects.readsItems (h : Collects c raw tidy) {bytes rest : Bytes} {as : List α}
    (items : ReadsItems c bytes as rest) :
    ∃ ws, ReadsItems raw bytes ws rest ∧ ws.length = as.length ∧
      (as.flatMap c.encode).length ≤ (ws.flatMap raw.encode).length ∧
      ((∀ w ∈ ws, tidy w) → as.flatMap c.encode = ws.flatMap raw.encode) := by
  induction items with
  | nil bytes => exact ⟨[], .nil bytes, rfl, Nat.le_refl _, fun _ => rfl⟩
  | cons first _ ih =>
    obtain ⟨w, readW, shorter, same⟩ := h _ _ _ first
    obtain ⟨ws, readWs, length, shorters, sames⟩ := ih
    refine ⟨w :: ws, .cons readW readWs, by simp [length], ?_, ?_⟩
    · simp only [List.flatMap_cons, List.length_append]
      omega
    · intro tidies
      have here : tidy w := tidies w List.mem_cons_self
      have later : ∀ v ∈ ws, tidy v := fun v mem => tidies v (List.mem_cons_of_mem w mem)
      rw [List.flatMap_cons, List.flatMap_cons, same here, sames later]

theorem Collects.list (h : Collects c raw tidy) :
    Collects c.list raw.list fun ws => ∀ w ∈ ws, tidy w := by
  intro bytes as rest read
  obtain ⟨count, middle, first, length, items⟩ := decode_list_iff.1 read
  obtain ⟨ws, readWs, same, shorter, spelled⟩ := h.readsItems items
  refine ⟨ws, decode_list_iff.2 ⟨count, middle, first, by rw [length, same], readWs⟩, ?_, ?_⟩
  · rw [length_encode_list, length_encode_list]
    omega
  · intro tidies
    simp only [Codec.list, spelled tidies, same]

end Codec

end CallDebugger
