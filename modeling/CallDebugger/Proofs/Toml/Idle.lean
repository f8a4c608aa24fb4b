import CallDebugger.Proofs.Text.Numerals
import CallDebugger.Proofs.Text.Parted
import CallDebugger.Toml.Marked
import Mathlib.Data.List.DropRight

/-!
# Texts that say nothing

A line of TOML says nothing if it holds spaces and tabs, and perhaps a comment (`Toml.isIdle`). A
line can look empty and still be no TOML: there are blank characters that TOML does not know, and
characters that a comment must not hold.

Main fact: a text whose lines all look empty or like comments is an empty document if each of them
says nothing, and no TOML otherwise (`Toml.readLayer?_of_blank`).
-/

namespace CallDebugger

/-! ## Lines -/

namespace Blank

/-- A line without the carriage return at its end. -/
def ended (line : List Char) : List Char :=
  if line.getLast? = some '\r' then line.dropLast else line

/-- A line looks empty, or like a comment. -/
def isEmptyOrComment (line : List Char) : Bool :=
  match trim line with
  | [] => true
  | c :: _ => c = '#'

variable {line : List Char}

theorem uncut_of_notMem (h : '\n' ∉ line) : ∀ c ∈ line, (c == '\n') = false := by
  intro c mem
  exact beq_false_of_ne fun same => h (same ▸ mem)

theorem lines_append (h : '\n' ∉ line) (cs : List Char) :
    lines (line ++ '\n' :: cs) = ended line :: lines cs := by
  have split := splitOn_append_cons (uncut_of_notMem h) (c := '\n') rfl cs
  have some : splitOn (· == '\n') cs ≠ [] := splitOn_ne_nil cs
  obtain ⟨first, pieces, rest⟩ := List.exists_cons_of_ne_nil some
  simp only [lines, split, rest, List.dropLast_cons_cons, List.map_cons, List.getLast?_cons_cons]
  split <;> rfl

theorem lines_of_notMem (h : '\n' ∉ line) : lines line = if line = [] then [] else [line] := by
  simp only [lines, splitOn_of_uncut (uncut_of_notMem h)]
  cases line <;> rfl

/-- Only blanks end a line. -/
theorem ended_append (line rest : List Char) :
    ∃ c cs, line ++ '\n' :: rest = ended line ++ c :: cs ∧ (c = '\n' ∨ c = '\r') := by
  unfold ended
  split
  · next last =>
    obtain ⟨front, rfl⟩ := List.getLast?_eq_some_iff.1 last
    refine ⟨'\r', '\n' :: rest, ?_, .inr rfl⟩
    rw [List.dropLast_concat, List.append_assoc]
    rfl
  · exact ⟨'\n', rest, rfl, .inl rfl⟩

/-- What comes first in a line that looks empty or like a comment, some blanks apart. -/
theorem lead_of_isEmptyOrComment {p : Char → Bool} {c : Char} {cs : List Char}
    (blank : isEmptyOrComment line) (gaps : ∀ c, p c → isBlank c)
    (lead : line.dropWhile p = c :: cs) : c = '#' ∨ isBlank c := by
  by_contra apart
  obtain ⟨notHash, notBlank⟩ := not_or.1 apart
  have start : trimStart line = c :: cs := by
    have front : ∀ d ∈ line.takeWhile p, isBlank d := fun d mem =>
      gaps d (List.mem_takeWhile_imp mem)
    rw [trimStart, ← List.takeWhile_append_dropWhile (p := p) (l := line),
      List.dropWhile_append_of_pos front, lead, List.dropWhile_cons_of_neg notBlank]
  have kept : trimEnd (c :: cs) ≠ [] := fun gone =>
    notBlank (List.rdropWhile_eq_nil_iff.1 gone c List.mem_cons_self)
  obtain ⟨d, ds, trimmed⟩ := List.exists_cons_of_ne_nil kept
  have same : d = c := by
    have part : d :: ds <+: c :: cs := trimmed ▸ List.rdropWhile_prefix _ _
    exact (List.cons_prefix_cons.1 part).1
  rw [isEmptyOrComment, trim, start, trimmed, same] at blank
  exact notHash (of_decide_eq_true blank)

/-- What comes first in a text whose lines look empty or like comments. -/
theorem head_of_isEmptyOrComment {c : Char} {cs : List Char}
    (blank : ∀ line ∈ lines (c :: cs), isEmptyOrComment line) : c = '#' ∨ isBlank c := by
  have ofLine {rest : List Char} (looks : isEmptyOrComment (c :: rest)) : c = '#' ∨ isBlank c :=
    lead_of_isEmptyOrComment (p := fun _ => false) looks nofun rfl
  by_cases feed : '\n' ∈ c :: cs
  · obtain ⟨line, rest, split, h⟩ := List.eq_append_cons_of_mem feed
    obtain ⟨a, tail, whole, ends⟩ := ended_append line rest
    rw [split, lines_append h] at blank
    have looks := blank _ List.mem_cons_self
    rw [whole] at split
    cases front : ended line with
    | nil =>
      rw [front] at split
      rw [List.head_eq_of_cons_eq split]
      rcases ends with rfl | rfl <;> exact .inr rfl
    | cons d ds =>
      rw [front] at split looks
      obtain rfl := List.head_eq_of_cons_eq split
      exact ofLine looks
  · rw [lines_of_notMem feed, if_neg (List.cons_ne_nil _ _)] at blank
    exact ofLine (blank _ List.mem_cons_self)

end Blank

namespace Toml

open Blank (lines ended isEmptyOrComment)

/-- A line that says nothing. -/
def isIdle (line : List Char) : Bool :=
  match line.dropWhile isGap with
  | [] => true
  | c :: cs => c = '#' && cs.all isText

/-- What is left of a line behind its blanks and its comment. -/
def unread (line : List Char) : List Char :=
  match line.dropWhile isGap with
  | '#' :: cs => cs.dropWhile isText
  | cs => cs

variable {line cs rest : List Char} {c : Char}

theorem isBlank_of_isGap (h : isGap c) : isBlank c := by
  unfold isGap at h
  rw [Bool.or_eq_true, decide_eq_true_iff, decide_eq_true_iff] at h
  rcases h with rfl | rfl <;> rfl

/-! ## What a line leaves -/

theorem unread_of_comment (h : line.dropWhile isGap = '#' :: cs) :
    unread line = cs.dropWhile isText := by
  rw [unread, h]
  rfl

theorem unread_of_other (h : (line.dropWhile isGap).head? ≠ some '#') :
    unread line = line.dropWhile isGap := by
  rw [unread]
  split
  · next lead =>
    rw [lead] at h
    exact absurd rfl h
  · rfl

theorem unread_eq_nil_iff : unread line = [] ↔ isIdle line = true := by
  unfold isIdle
  cases lead : line.dropWhile isGap with
  | nil =>
    rw [unread_of_other (by rw [lead]; nofun), lead]
    exact iff_of_true rfl rfl
  | cons c cs =>
    by_cases hash : c = '#'
    · subst hash
      rw [unread_of_comment lead, List.dropWhile_eq_nil_iff]
      simp
    · rw [unread_of_other (by rw [lead]; simpa using hash), lead]
      simp [hash]

/-- A line is read up to a character that neither blanks nor comments have. -/
theorem unread_append (gap : isGap c = false) (text : isText c = false) (cs : List Char) :
    unread (line ++ c :: cs) = unread line ++ c :: cs := by
  have hash : c ≠ '#' := by
    rintro rfl
    cases text
  have drop (p : Char → Bool) (stops : p c = false) (front : List Char) :
      (front ++ c :: cs).dropWhile p = front.dropWhile p ++ c :: cs := by
    rw [List.dropWhile_append]
    split
    · next empty => simp [List.isEmpty_iff.1 empty, stops]
    · rfl
  have whole := drop isGap gap line
  cases lead : line.dropWhile isGap with
  | nil =>
    rw [lead] at whole
    rw [unread_of_other (by rw [whole]; simpa using hash), whole,
      unread_of_other (by rw [lead]; nofun), lead]
  | cons d ds =>
    rw [lead] at whole
    by_cases comment : d = '#'
    · subst comment
      rw [unread_of_comment lead]
      exact (unread_of_comment whole).trans (drop isText text ds)
    · rw [unread_of_other (by rw [whole]; simpa using comment), whole,
        unread_of_other (by rw [lead]; simpa using comment), lead]

theorem unread_suffix (line : List Char) : unread line <:+ line := by
  have gaps := List.dropWhile_suffix (l := line) isGap
  unfold unread
  split
  · next cs lead =>
    rw [lead] at gaps
    exact ((List.dropWhile_suffix _).trans (List.suffix_cons _ _)).trans gaps
  · exact gaps

/-- The carriage return at the end of a line does not matter. -/
theorem isIdle_ended : isIdle (ended line) = true ↔ unread line = [] ∨ unread line = ['\r'] := by
  rw [← unread_eq_nil_iff]
  unfold ended
  split
  · next last =>
    obtain ⟨front, rfl⟩ := List.getLast?_eq_some_iff.1 last
    rw [List.dropLast_concat, unread_append rfl rfl]
    cases unread front <;> simp
  · next last =>
    refine ⟨.inl, fun h => h.elim id fun single => absurd ?_ last⟩
    obtain ⟨front, whole⟩ := unread_suffix line
    rw [← whole, single, List.getLast?_concat]

/-! ## Scanning a line -/

namespace Scan

theorem bind_apply {α β : Type} (s : Scan α) (k : α → Scan β) (cs : List Char) :
    (s >>= k) cs = (s cs).bind fun r => k r.1 r.2 := rfl

theorem peek?_apply (cs : List Char) : peek? cs = some (cs.head?, cs) := rfl

theorem lineRest_eq (cs : List Char) : lineRest cs = lineEnd (unread cs) := by
  by_cases comment : (cs.dropWhile isGap).head? = some '#'
  · obtain ⟨rest, lead⟩ := List.head?_eq_some_iff.1 comment
    rw [unread_of_comment lead]
    simp only [lineRest, blanks, bind_apply, lead]
    rfl
  · rw [unread_of_other comment]
    simp only [lineRest, blanks, bind_apply, peek?_apply, Option.bind_some, if_neg comment]

/-- What does not begin with the end of a line. -/
theorem lineEnd_eq_none (h : cs ≠ []) (feed : ∀ rest, cs ≠ '\n' :: rest)
    (both : ∀ rest, cs ≠ '\r' :: '\n' :: rest) : lineEnd cs = none := by
  unfold lineEnd
  split
  · exact absurd rfl h
  · unfold newline
    split
    · exact absurd rfl (feed _)
    · exact absurd rfl (both _)
    · rfl

/-- A line that is not the last one is read just if it says nothing. -/
theorem lineRest_append (h : '\n' ∉ line) (rest : List Char) :
    lineRest (line ++ '\n' :: rest) = if isIdle (ended line) then some ((), rest) else none := by
  have inside : '\n' ∉ unread line := fun mem => h ((unread_suffix line).subset mem)
  rw [lineRest_eq, unread_append rfl rfl]
  by_cases idle : isIdle (ended line)
  · rw [if_pos idle]
    rcases isIdle_ended.1 idle with left | left <;> rw [left] <;> rfl
  · rw [if_neg idle]
    obtain ⟨more, other⟩ := not_or.1 (mt isIdle_ended.2 idle)
    obtain ⟨c, left, tail⟩ := List.exists_cons_of_ne_nil more
    rw [tail] at inside other ⊢
    refine lineEnd_eq_none (List.cons_ne_nil _ _) ?_ ?_
    · rintro r ⟨⟩
      exact inside List.mem_cons_self
    · intro r same
      cases left with
      | nil => exact other (congrArg (· :: []) (List.head_eq_of_cons_eq same))
      | cons d left =>
        obtain ⟨rfl, -⟩ := List.cons.inj (List.tail_eq_of_cons_eq same)
        exact inside (List.mem_cons_of_mem _ List.mem_cons_self)

/-- The last line is read just if it says nothing. -/
theorem lineRest_of_notMem (h : '\n' ∉ line) :
    lineRest line = if isIdle line then some ((), []) else none := by
  have inside : '\n' ∉ unread line := fun mem => h ((unread_suffix line).subset mem)
  rw [lineRest_eq]
  by_cases idle : isIdle line
  · rw [if_pos idle, unread_eq_nil_iff.2 idle]
    rfl
  · rw [if_neg idle]
    have more := mt unread_eq_nil_iff.1 idle
    refine lineEnd_eq_none more ?_ ?_
    · intro r same
      exact inside (same ▸ List.mem_cons_self)
    · intro r same
      exact inside (same ▸ List.mem_cons_of_mem _ List.mem_cons_self)

/-! ## Statements -/

/-- A blank character that is no space and no tab begins no key. -/
theorem isBare_of_isBlank (blank : isBlank c) : isBare c = false := by
  refine Bool.eq_false_iff.2 fun bare => ?_
  unfold isBare at bare
  simp only [Bool.or_eq_true, decide_eq_true_iff] at bare
  rcases bare with (word | rfl) | rfl
  · exact absurd blank (Bool.eq_false_iff.1 (not_isBlank_of_isAlphanum word))
  · cases blank
  · cases blank

theorem ne_of_isBlank {d : Char} (blank : isBlank c) (h : isBlank d = false) : c ≠ d := by
  rintro rfl
  rw [h] at blank
  cases blank

theorem keys_of_isBlank (blank : isBlank c) (gap : isGap c = false) (limit : Nat)
    (rest : List Char) : keys limit (c :: rest) = none := by
  cases limit with
  | zero => rfl
  | succ limit =>
    have double : c ≠ '"' := ne_of_isBlank blank rfl
    have single : c ≠ '\'' := ne_of_isBlank blank rfl
    simp [keys, simpleKey, bind_apply, blanks, gap, peek?_apply, double, single, run1,
      isBare_of_isBlank blank, Functor.map, StateT.map]

/-- Such a character begins no statement. -/
theorem statement_of_isBlank (blank : isBlank c) (gap : isGap c = false) (limit : Nat)
    (rest : List Char) : statement limit (c :: rest) = none := by
  have get : (get : Scan (List Char)) (c :: rest) = some (c :: rest, c :: rest) := rfl
  have bracket : c ≠ '[' := ne_of_isBlank blank rfl
  have element : ¬ (c :: rest).take 2 = ['[', '['] := fun same =>
    bracket (List.head_eq_of_cons_eq same)
  have header : ¬ (c :: rest).head? = some '[' := fun same => bracket (Option.some.inj same)
  simp only [statement, bind_apply, get, Option.bind_some, if_neg element, peek?_apply,
    if_neg header, pair, keyPath, keys_of_isBlank blank gap, Option.bind_none]

theorem statements_of_gaps (h : cs.dropWhile isGap = []) (limit n : Nat) :
    statements limit (n + 1) cs = some ([], []) := by
  rw [statements]
  simp only [blanks, bind_apply, h]
  rfl

/-- What begins like an empty line or a comment is read as one, or not at all. -/
theorem statements_of_lead (h : cs.dropWhile isGap = c :: rest) (lead : c = '#' ∨ isBlank c)
    (limit n : Nat) :
    statements limit (n + 1) cs = (lineRest cs).bind fun r => statements limit n r.2 := by
  rw [statements, lineRest_eq]
  simp only [blanks, bind_apply, h]
  by_cases hash : c = '#'
  · subst hash
    rw [unread_of_comment h]
    rfl
  · rw [unread_of_other (by rw [h]; simpa using hash), h]
    by_cases feed : c = '\n'
    · subst feed
      rfl
    · by_cases back : c = '\r'
      · subst back
        rfl
      · have blank : isBlank c := lead.resolve_left hash
        have gap : isGap c = false := by
          have stops := List.head?_dropWhile_not isGap cs
          rw [h] at stops
          exact stops
        have no := statement_of_isBlank blank gap limit rest
        have none : lineEnd (c :: rest) = none :=
          lineEnd_eq_none (List.cons_ne_nil _ _) (fun _ same => feed (List.head_eq_of_cons_eq same))
            fun _ same => back (List.head_eq_of_cons_eq same)
        rw [none]
        simp only [peek?_apply, Option.bind_some, List.head?_cons, bind_apply, no]
        rfl

/-- A line that looks empty or like a comment is read as one, or not at all. -/
theorem statements_append (blank : isEmptyOrComment (ended line)) (h : '\n' ∉ line)
    (limit n : Nat) (rest : List Char) : statements limit (n + 1) (line ++ '\n' :: rest) =
      if isIdle (ended line) then statements limit n rest else none := by
  obtain ⟨a, tail, whole, ends⟩ := Blank.ended_append line rest
  have begins : ∃ c cs, (line ++ '\n' :: rest).dropWhile isGap = c :: cs ∧
      (c = '#' ∨ isBlank c) := by
    rw [whole, List.dropWhile_append]
    cases lead : (ended line).dropWhile isGap with
    | nil =>
      refine ⟨a, tail, ?_, .inr ?_⟩ <;> rcases ends with rfl | rfl <;> rfl
    | cons c cs =>
      exact ⟨c, cs ++ a :: tail, rfl,
        Blank.lead_of_isEmptyOrComment blank (fun _ => isBlank_of_isGap) lead⟩
  obtain ⟨c, cs, first, lead⟩ := begins
  rw [statements_of_lead first lead, lineRest_append h]
  split <;> rfl

/-- A text whose lines look empty or like comments has no statement, if it is TOML at all. -/
theorem statements_of_blank (limit : Nat) {n : Nat} (room : cs.length < n)
    (blank : ∀ line ∈ lines cs, isEmptyOrComment line) :
    statements limit n cs = if (lines cs).all isIdle then some ([], []) else none := by
  -- Each line takes one of the steps, and there are more of them than characters.
  induction n generalizing cs with
  | zero => exact absurd room (Nat.not_lt_zero _)
  | succ n ih =>
    by_cases feed : '\n' ∈ cs
    · obtain ⟨line, rest, rfl, h⟩ := List.eq_append_cons_of_mem feed
      rw [Blank.lines_append h] at blank ⊢
      rw [List.length_append, List.length_cons] at room
      have less : rest.length < n := by omega
      have later := ih less fun l mem => blank l (List.mem_cons_of_mem _ mem)
      rw [statements_append (blank _ List.mem_cons_self) h, later, List.all_cons]
      cases isIdle (ended line) <;> rfl
    · rw [Blank.lines_of_notMem feed] at blank ⊢
      cases lead : cs.dropWhile isGap with
      | nil =>
        have idle : isIdle cs := by rw [isIdle, lead]
        rw [statements_of_gaps lead]
        split <;> simp [idle]
      | cons c tail =>
        have some : cs ≠ [] := by
          rintro rfl
          cases lead
        have length := List.length_pos_iff.2 some
        obtain ⟨m, rfl⟩ := Nat.exists_eq_succ_of_ne_zero (n := n) (by omega)
        rw [if_neg some] at blank ⊢
        have looks := blank cs List.mem_cons_self
        rw [statements_of_lead lead
          (Blank.lead_of_isEmptyOrComment looks (fun _ => isBlank_of_isGap) lead),
          lineRest_of_notMem feed, List.all_cons, List.all_nil, Bool.and_true]
        split
        · exact statements_of_gaps rfl limit m
        · rfl

end Scan

/-! ## Documents -/

/-- A text whose lines look empty or like comments is an empty document if its lines say nothing,
and no TOML otherwise. -/
theorem readLayer?_of_blank {text : String}
    (blank : ∀ line ∈ lines text.toList, isEmptyOrComment line) :
    readLayer? text = if (lines text.toList).all isIdle then some [] else none := by
  have statements := Scan.statements_of_blank (text.toList.length + 1) (Nat.lt_succ_self _) blank
  have all : Statement.all? text = if (lines text.toList).all isIdle then some [] else none := by
    have unmarked : Statement.all? text = (Scan.statements (text.toList.length + 1)
        (text.toList.length + 1) text.toList).map Prod.fst := by
      unfold Statement.all?
      cases whole : text.toList with
      | nil => rfl
      | cons c cs =>
        have mark : c ≠ byteOrderMark := by
          rintro rfl
          rw [whole] at blank
          exact absurd (Blank.head_of_isEmptyOrComment blank) (by decide)
        simp only [if_neg mark]
    rw [unmarked, statements]
    split <;> rfl
  rw [readLayer?, read?, all]
  split <;> rfl

end Toml

end CallDebugger
