import CallDebugger.Text.Blank
import Mathlib.Data.List.Forall2

/-!
# Texts cut into pieces

`Blank.splitOn` and `Blank.piecesOn` undo writing pieces side by side: `Blank.Parted` says that the
words of a list stand in a text with a gap between each two, and `Blank.piecesOn` then gives these
words. Cutting what was cut comes to one cut (`Blank.flatMap_piecesOn`).
-/

namespace CallDebugger.Blank

variable {cut : Char → Bool}

/-! ## Pieces -/

@[simp] theorem splitOn_nil : splitOn cut [] = [[]] := rfl

theorem splitOn_ne_nil (cs : List Char) : splitOn cut cs ≠ [] := by
  cases cs with
  | nil => exact List.cons_ne_nil _ _
  | cons c cs =>
    unfold splitOn
    split
    · exact List.cons_ne_nil _ _
    · split <;> exact List.cons_ne_nil _ _

theorem splitOn_cons_of_cut {c : Char} (h : cut c) (cs : List Char) :
    splitOn cut (c :: cs) = [] :: splitOn cut cs := by
  rw [splitOn, if_pos h]

theorem splitOn_cons_of_not {c : Char} (h : cut c = false) {cs piece : List Char}
    {pieces : List (List Char)} (rest : splitOn cut cs = piece :: pieces) :
    splitOn cut (c :: cs) = (c :: piece) :: pieces := by
  simp only [splitOn, h, rest]
  rfl

/-- A row without a cut goes in front of the first piece. -/
theorem splitOn_append {word : List Char} (h : ∀ c ∈ word, cut c = false) {cs piece : List Char}
    {pieces : List (List Char)} (rest : splitOn cut cs = piece :: pieces) :
    splitOn cut (word ++ cs) = (word ++ piece) :: pieces := by
  induction word with
  | nil => exact rest
  | cons c word ih =>
    have later := ih fun d hd => h d (List.mem_cons_of_mem c hd)
    exact splitOn_cons_of_not (h c List.mem_cons_self) later

theorem splitOn_of_uncut {word : List Char} (h : ∀ c ∈ word, cut c = false) :
    splitOn cut word = [word] := by
  simpa using splitOn_append h splitOn_nil

theorem splitOn_append_cons {word : List Char} (h : ∀ c ∈ word, cut c = false) {c : Char}
    (hc : cut c) (cs : List Char) : splitOn cut (word ++ c :: cs) = word :: splitOn cut cs := by
  simpa using splitOn_append h (splitOn_cons_of_cut hc cs)

/-- No piece has a cut. -/
theorem uncut_of_mem_splitOn {cs piece : List Char} (mem : piece ∈ splitOn cut cs) :
    ∀ c ∈ piece, cut c = false := by
  induction cs generalizing piece with
  | nil => simp_all
  | cons c cs ih =>
    by_cases hc : cut c
    · rw [splitOn_cons_of_cut hc] at mem
      rcases List.mem_cons.1 mem with rfl | mem
      · exact fun d hd => absurd hd List.not_mem_nil
      · exact ih mem
    · obtain ⟨first, pieces, rest⟩ := List.exists_cons_of_ne_nil (@splitOn_ne_nil cut cs)
      have plain : cut c = false := Bool.eq_false_iff.2 hc
      rw [splitOn_cons_of_not plain rest] at mem
      rw [rest] at ih
      rcases List.mem_cons.1 mem with rfl | mem
      · intro d hd
        rcases List.mem_cons.1 hd with rfl | hd
        · exact plain
        · exact ih List.mem_cons_self d hd
      · exact ih (List.mem_cons_of_mem _ mem)

/-! ## Words -/

theorem piecesOn_cons_of_cut {c : Char} (h : cut c) (cs : List Char) :
    piecesOn cut (c :: cs) = piecesOn cut cs := by
  rw [piecesOn, splitOn_cons_of_cut h]
  rfl

theorem piecesOn_append_of_cut {gap : List Char} (h : ∀ c ∈ gap, cut c) (cs : List Char) :
    piecesOn cut (gap ++ cs) = piecesOn cut cs := by
  induction gap with
  | nil => rfl
  | cons c gap ih =>
    rw [List.cons_append, piecesOn_cons_of_cut (h c List.mem_cons_self),
      ih fun d hd => h d (List.mem_cons_of_mem c hd)]

theorem piecesOn_of_cut {gap : List Char} (h : ∀ c ∈ gap, cut c) : piecesOn cut gap = [] := by
  rw [← List.append_nil gap, piecesOn_append_of_cut h]
  rfl

/-- A word: it is not empty and has no cut. -/
def IsWord (cut : Char → Bool) (word : List Char) : Prop := word ≠ [] ∧ ∀ c ∈ word, cut c = false

-- Deciding it as it stands would go through every character there is.
instance (word : List Char) : Decidable (IsWord cut word) :=
  decidable_of_iff ((!word.isEmpty && word.all fun c => !cut c) = true) (by simp [IsWord])

theorem piecesOn_word_cons {word : List Char} (h : IsWord cut word) {c : Char} (hc : cut c)
    (cs : List Char) : piecesOn cut (word ++ c :: cs) = word :: piecesOn cut cs := by
  have kept : (!word.isEmpty) = true := by simpa using h.1
  simp only [piecesOn, splitOn_append_cons h.2 hc, List.filter_cons, kept, if_true]

/-- Words stand in a text in order, with at least one cut between each two; more cuts may stand
between them and at both ends. -/
inductive Parted (cut : Char → Bool) : List (List Char) → List Char → Prop
  | nil {gap : List Char} (blank : ∀ c ∈ gap, cut c) : Parted cut [] gap
  | last {lead word tail : List Char} (before : ∀ c ∈ lead, cut c) (after : ∀ c ∈ tail, cut c) :
    Parted cut [word] (lead ++ (word ++ tail))
  | more {lead word rest next : List Char} {c : Char} {words : List (List Char)}
    (before : ∀ c ∈ lead, cut c) (gap : cut c) (others : Parted cut (next :: words) rest) :
    Parted cut (word :: next :: words) (lead ++ (word ++ c :: rest))

/-- The words that stand in a text are the pieces that it is cut into. -/
theorem Parted.piecesOn {words : List (List Char)} {text : List Char} (h : Parted cut words text)
    (proper : ∀ word ∈ words, IsWord cut word) : Blank.piecesOn cut text = words := by
  induction h with
  | nil blank => exact piecesOn_of_cut blank
  | @last lead word tail before after =>
    have isWord := proper word List.mem_cons_self
    rw [piecesOn_append_of_cut before]
    cases tail with
    | nil =>
      rw [List.append_nil, Blank.piecesOn, splitOn_of_uncut isWord.2]
      simp [isWord.1]
    | cons c tail =>
      rw [piecesOn_word_cons isWord (after c List.mem_cons_self),
        piecesOn_of_cut fun d hd => after d (List.mem_cons_of_mem c hd)]
  | more before gap _ ih =>
    rw [piecesOn_append_of_cut before, piecesOn_word_cons (proper _ List.mem_cons_self) gap,
      ih fun word mem => proper word (List.mem_cons_of_mem _ mem)]

/-- Any words can be written, with single cuts between them. -/
theorem exists_parted {c : Char} (hc : cut c) (words : List (List Char)) :
    ∃ text, Parted cut words text := by
  have none : ∀ d ∈ ([] : List Char), cut d := fun _ mem => absurd mem List.not_mem_nil
  induction words with
  | nil => exact ⟨[], .nil none⟩
  | cons word words ih =>
    obtain ⟨rest, parted⟩ := ih
    cases words with
    | nil => exact ⟨_, .last none none⟩
    | cons next words => exact ⟨_, .more none hc parted⟩

/-! ## Cutting twice -/

theorem flatMap_splitOn (cut' : Char → Bool) (cs : List Char) :
    (splitOn cut cs).flatMap (splitOn cut') = splitOn (fun c => cut c || cut' c) cs := by
  induction cs with
  | nil => rfl
  | cons c cs ih =>
    by_cases hc : cut c
    · rw [splitOn_cons_of_cut hc, splitOn_cons_of_cut (by simp [hc]), List.flatMap_cons, ih]
      rfl
    · obtain ⟨piece, pieces, rest⟩ := List.exists_cons_of_ne_nil (@splitOn_ne_nil cut cs)
      have plain : cut c = false := Bool.eq_false_iff.2 hc
      rw [splitOn_cons_of_not plain rest, List.flatMap_cons]
      rw [rest, List.flatMap_cons] at ih
      by_cases hc' : cut' c
      · rw [splitOn_cons_of_cut hc', splitOn_cons_of_cut (by simp [hc']), ← ih]
        rfl
      · obtain ⟨first, others, rest'⟩ :=
          List.exists_cons_of_ne_nil (@splitOn_ne_nil cut' piece)
        have plain' : cut' c = false := Bool.eq_false_iff.2 hc'
        rw [splitOn_cons_of_not plain' rest']
        rw [rest'] at ih
        exact (splitOn_cons_of_not (by simp [plain, plain']) ih.symm).symm

/-- Cutting the pieces of a text again comes to cutting it at both kinds of characters. -/
theorem flatMap_piecesOn (cut' : Char → Bool) (cs : List Char) :
    (piecesOn cut cs).flatMap (piecesOn cut') = piecesOn (fun c => cut c || cut' c) cs := by
  have empty (pieces : List (List Char)) :
      (pieces.filter fun piece => !piece.isEmpty).flatMap (piecesOn cut') =
        pieces.flatMap (piecesOn cut') := by
    induction pieces with
    | nil => rfl
    | cons piece pieces ih =>
      cases piece with
      | nil => exact ih
      | cons c piece => simp only [List.flatMap_cons, ← ih]; rfl
  rw [piecesOn, empty, piecesOn, ← flatMap_splitOn, List.filter_flatMap]
  rfl

end CallDebugger.Blank
