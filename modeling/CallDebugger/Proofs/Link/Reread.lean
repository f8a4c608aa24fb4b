import CallDebugger.Link.Endpoint
import CallDebugger.Proofs.Text.Numerals
import Mathlib.Data.List.DropRight
import Mathlib.Data.List.TakeWhile

/-!
# Endpoints are read back

The text of an endpoint that was read is read as that endpoint again, unless its host is misread
where it stands without brackets (`Endpoint.Misread`): the host `unix` is taken for the mark of a
local socket, and a blank at the front of a host is trimmed away. Only a host with a colon gets
brackets, so these two do not (`Endpoint.read_render_iff`).
-/

namespace CallDebugger

namespace Endpoint

/-- The digits of a port. -/
def digits (port : UInt16) : List Char := Nat.toDigits 10 port.toNat

theorem isDigit_of_mem_digits {port : UInt16} {c : Char} (h : c ∈ digits port) : c.isDigit :=
  Nat.isDigit_of_mem_toDigits (by decide) (by decide) h

theorem not_mem_digits {port : UInt16} {c : Char} (h : c.isDigit = false) : c ∉ digits port := by
  intro present
  rw [isDigit_of_mem_digits present] at h
  cases h

theorem digits_ne_nil (port : UInt16) : digits port ≠ [] := Nat.toDigits_ne_nil

theorem port?_digits (port : UInt16) : port? (digits port) = some port := by
  have value : Numeral.digits? 10 0 (digits port) = some port.toNat := by
    rw [Numeral.digits?_of_isDigit fun c h => isDigit_of_mem_digits h, digits,
      Nat.ofDigitChars_ten_toDigits]
  have below : port.toNat < 65536 := port.toNat_lt
  have plain : ∀ c ∈ digits port, c ≠ '+' := fun c h sign => not_mem_digits rfl (sign ▸ h)
  cases shape : digits port with
  | nil => exact absurd shape (digits_ne_nil port)
  | cons c cs =>
    rw [shape] at value plain
    have row := Numeral.unsigned_of_ne (plain c List.mem_cons_self) cs
    simp [port?, Numeral.read?, row, value, below]

theorem port?_of_colon {cs : List Char} (h : ':' ∈ cs) : port? cs = none := by
  have worthless : Numeral.digits? 10 0 (Numeral.unsigned cs) = none :=
    Numeral.digits?_eq_none (Numeral.mem_unsigned h (by decide)) rfl 0
  unfold port? Numeral.read?
  cases row : Numeral.unsigned cs with
  | nil => rfl
  | cons c cs =>
    rw [row] at worthless
    simp [worthless]

/-! ## Cutting a text -/

/-- What follows the last of a character is what has none of it. -/
theorem splitLast?_append {c : Char} {after : List Char} (h : c ∉ after) (before : List Char) :
    splitLast? c (before ++ c :: after) = some (before, after) := by
  have others : ∀ d ∈ after.reverse, (d != c) = true := by
    intro d hd
    rw [bne_iff_ne]
    exact fun same => h (same ▸ List.mem_reverse.1 hd)
  have run : ((before ++ c :: after).reverse.takeWhile (· != c)).reverse = after := by
    rw [List.reverse_append, List.reverse_cons, List.append_assoc,
      List.takeWhile_append_of_pos others]
    simp
  have more : after.length ≠ (before ++ c :: after).length := by
    rw [List.length_append, List.length_cons]
    omega
  have place : (before ++ c :: after).length - after.length - 1 = before.length := by
    rw [List.length_append, List.length_cons]
    omega
  simp only [splitLast?, run, if_neg more, place, List.take_left']

/-- A list that does not begin with what is dropped has no beginning that does. -/
theorem dropWhile_of_prefix {p : Char → Bool} {cs ds : List Char} (h : cs <+: ds)
    (stays : ds.dropWhile p = ds) : cs.dropWhile p = cs := by
  rw [List.dropWhile_eq_self_iff] at stays ⊢
  intro nonempty
  rw [h.getElem nonempty]
  exact stays _

theorem trim_trim (cs : List Char) : Blank.trim (Blank.trim cs) = Blank.trim cs := by
  have front : Blank.trimStart (Blank.trim cs) = Blank.trim cs :=
    dropWhile_of_prefix (List.rdropWhile_prefix _ _) (List.dropWhile_idempotent _ _)
  have back : Blank.trimEnd (Blank.trim cs) = Blank.trim cs := List.rdropWhile_idempotent _ _
  rw [Blank.trim, front, back]

/-- Nothing is trimmed behind a port. -/
theorem trim_append_digits (front : List Char) (port : UInt16) :
    Blank.trim (front ++ ':' :: digits port) = Blank.trimStart front ++ ':' :: digits port := by
  have start : Blank.trimStart (front ++ ':' :: digits port) =
      Blank.trimStart front ++ ':' :: digits port := by
    unfold Blank.trimStart
    rw [List.dropWhile_append]
    split
    · next blank =>
      rw [List.isEmpty_iff.1 blank]
      rfl
    · rfl
  rw [Blank.trim, start]
  refine List.rdropWhile_eq_self_iff.2 fun _ => ?_
  have last : (Blank.trimStart front ++ ':' :: digits port).getLast (by simp) =
      (digits port).getLast (digits_ne_nil port) := by
    rw [List.getLast_append_of_ne_nil _ (List.cons_ne_nil _ _), List.getLast_cons]
  rw [last, not_isBlank_of_isDigit (isDigit_of_mem_digits (List.getLast_mem _))]
  exact Bool.false_ne_true

/-! ## Hosts -/

/-- What can stand as a host: the brackets around it are gone. -/
structure IsHost (cs : List Char) : Prop where
  nonempty : cs ≠ []
  front : cs.dropWhile (· == '[') = cs
  back : cs.rdropWhile (· == ']') = cs

theorem IsHost.stripBrackets {cs : List Char} (h : IsHost cs) : stripBrackets cs = cs := by
  unfold Endpoint.stripBrackets
  rw [h.front]
  exact h.back

/-- Brackets around a host are taken off, and nothing else. -/
theorem IsHost.stripBrackets_bracketed {cs : List Char} (h : IsHost cs) :
    Endpoint.stripBrackets ('[' :: cs ++ [']']) = cs := by
  have front : ('[' :: cs ++ [']']).dropWhile (· == '[') = cs ++ [']'] := by
    simp [List.dropWhile_append, h.front, h.nonempty]
  unfold Endpoint.stripBrackets
  rw [front]
  exact (List.rdropWhile_concat_pos _ _ _ rfl).trans h.back

/-- What is left when brackets are taken off has none. -/
theorem isHost_stripBrackets {cs : List Char} (h : Endpoint.stripBrackets cs ≠ []) :
    IsHost (Endpoint.stripBrackets cs) where
  nonempty := h
  front := dropWhile_of_prefix (List.rdropWhile_prefix _ _) (List.dropWhile_idempotent _ _)
  back := List.rdropWhile_idempotent _ _

theorem length_stripBrackets_le (cs : List Char) : (stripBrackets cs).length ≤ cs.length :=
  Nat.le_trans (List.rdropWhile_prefix _ _).length_le (List.dropWhile_suffix _).length_le

/-! ## Reading -/

/-- How a text without blanks at its ends is read. -/
inductive Means (cs : List Char) : Endpoint → Prop where
  | socket {path : String} (text : cs = socketMark ++ path.toList) : Means cs (.unix path)
  | bare {port : UInt16} (number : port? cs = some port) : Means cs (.tcp loopback port)
  | pair {host : String} {before after : List Char} (port : UInt16)
      (split : splitLast? ':' cs = some (before, after))
      (named : stripBrackets before = host.toList) (nonempty : host.toList ≠ []) :
      Means cs (.tcp host port)

theorem means_of_ofChars {cs : List Char} {e : Endpoint} (h : ofChars cs = .ok e) : Means cs e := by
  by_cases mark : socketMark.isPrefixOf cs
  · obtain ⟨path, rfl⟩ := List.isPrefixOf_iff_prefix.1 mark
    simp only [ofChars, if_pos mark, List.drop_left] at h
    cases path with
    | nil => cases h
    | cons c path =>
      cases h
      exact .socket (by rw [String.toList_ofList])
  · simp only [ofChars, if_neg mark] at h
    cases number : port? cs with
    | some port =>
      simp only [number] at h
      cases h
      exact .bare number
    | none =>
      cases split : splitLast? ':' cs with
      | none =>
        simp only [number, split] at h
        cases h
      | some p =>
        cases host : stripBrackets p.1 with
        | nil =>
          simp only [number, split, host] at h
          cases h
        | cons c rest =>
          cases value : port? p.2 with
          | none =>
            simp only [number, split, host, value] at h
            cases h
          | some port =>
            simp only [number, split, host, value] at h
            cases h
            exact .pair port split (by rw [host, String.toList_ofList]) (by simp)

theorem ofChars_socket {path : List Char} (nonempty : path ≠ []) :
    ofChars (socketMark ++ path) = .ok (.unix (String.ofList path)) := by
  have mark : socketMark.isPrefixOf (socketMark ++ path) :=
    List.isPrefixOf_iff_prefix.2 (List.prefix_append _ _)
  cases path with
  | nil => exact absurd rfl nonempty
  | cons c path => simp only [ofChars, if_pos mark, List.drop_left]

/-- A host and a port are read, if they are not taken for a local socket. -/
theorem ofChars_append {front host : List Char} (port : UInt16)
    (mark : ¬ socketMark <+: front ++ ':' :: digits port) (strip : stripBrackets front = host)
    (nonempty : host ≠ []) :
    ofChars (front ++ ':' :: digits port) = .ok (.tcp (String.ofList host) port) := by
  have unmarked : ¬ socketMark.isPrefixOf (front ++ ':' :: digits port) := fun h =>
    mark (List.isPrefixOf_iff_prefix.1 h)
  have number : port? (front ++ ':' :: digits port) = none := port?_of_colon (by simp)
  have plain : ':' ∉ digits port := not_mem_digits rfl
  have split := splitLast?_append plain front
  cases host with
  | nil => exact absurd rfl nonempty
  | cons c host => simp only [ofChars, if_neg unmarked, number, split, strip, port?_digits]

theorem read_eq_ok_iff {input : String} {e : Endpoint} :
    read input = .ok e ↔ ofChars (Blank.trim input.toList) = .ok e := by
  unfold read
  cases ofChars (Blank.trim input.toList) with
  | ok e' => simp
  | error fault => simp

/-- A text with a port is taken for a local socket only if `unix` stands for the host. -/
theorem eq_of_mark {front after : List Char} (plain : ':' ∉ front)
    (mark : socketMark <+: front ++ ':' :: after) : front = "unix".toList := by
  obtain ⟨rest, same⟩ := mark
  have others : ∀ c ∈ front, (c != ':') = true := by
    intro c hc
    rw [bne_iff_ne]
    exact fun colon => plain (colon ▸ hc)
  have run : (front ++ ':' :: after).takeWhile (· != ':') = front := by
    rw [List.takeWhile_append_of_pos others]
    simp
  rw [← run, ← same]
  rfl

/-! ## Reading what was written -/

/-- What stands for a host in the text of an endpoint. -/
def shown (host : String) : List Char :=
  if ':' ∈ host.toList then '[' :: host.toList ++ [']'] else host.toList

theorem toList_render (host : String) (port : UInt16) :
    (render (.tcp host port)).toList = shown host ++ ':' :: digits port := by
  by_cases colon : ':' ∈ host.toList
  · simp [render, shown, digits, colon]
  · simp [render, shown, digits, colon]

theorem read_render_eq (host : String) (port : UInt16) {e : Endpoint} :
    read (render (.tcp host port)) = .ok e ↔
      ofChars (Blank.trimStart (shown host) ++ ':' :: digits port) = .ok e := by
  rw [read_eq_ok_iff, toList_render, trim_append_digits]

/-- An endpoint whose host is read differently where it stands without brackets: it is the word
before the path of a local socket, or it begins with a blank. -/
def misread : Endpoint → Bool
  | tcp host _ => !host.toList.contains ':' && (host == "unix" || host.toList.head?.any isBlank)
  | unix _ => false

/-- A host in brackets is read back. -/
theorem read_render_of_colon {host : String} (h : IsHost host.toList) (colon : ':' ∈ host.toList)
    (port : UInt16) : read (render (.tcp host port)) = .ok (.tcp host port) := by
  have front : shown host = '[' :: host.toList ++ [']'] := if_pos colon
  have unmarked : ¬ socketMark <+: shown host ++ ':' :: digits port := by
    rw [front]
    rintro ⟨rest, same⟩
    cases same
  have still : Blank.trimStart (shown host) = shown host := by
    rw [front]
    rfl
  rw [read_render_eq, still,
    ofChars_append port unmarked (front ▸ h.stripBrackets_bracketed) h.nonempty,
    String.ofList_toList]

/-- The host `unix` is taken for the mark of a local socket. -/
theorem read_render_unix (port : UInt16) :
    read (render (.tcp "unix" port)) = .ok (.unix (toString port.toNat)) := by
  have number : String.ofList (digits port) = toString port.toNat :=
    Nat.toString_eq_ofList_toDigits.symm
  have whole : Blank.trimStart (shown "unix") ++ ':' :: digits port = socketMark ++ digits port :=
    rfl
  rw [read_render_eq, whole, ofChars_socket (digits_ne_nil port), number]

/-- A host that begins with a blank does not come back. -/
theorem read_render_of_blank {host : String} (plain : ':' ∉ host.toList)
    (blank : host.toList.head?.any isBlank) (port : UInt16) :
    read (render (.tcp host port)) ≠ .ok (.tcp host port) := by
  have front : shown host = host.toList := if_neg plain
  have shorter : (Blank.trimStart host.toList).length < host.toList.length := by
    cases shape : host.toList with
    | nil => simp [shape] at blank
    | cons c cs =>
      have first : isBlank c := by simpa [shape] using blank
      have less := (List.dropWhile_suffix isBlank (l := cs)).length_le
      simp only [Blank.trimStart, List.dropWhile_cons, if_pos first, List.length_cons]
      omega
  intro same
  rw [read_render_eq, front] at same
  cases means_of_ofChars same with
  | bare number => simp [port?_of_colon] at number
  | pair _ split named =>
    rw [splitLast?_append (not_mem_digits rfl)] at split
    cases split
    have less := length_stripBrackets_le (Blank.trimStart host.toList)
    rw [named] at less
    omega

/-- Any other host is read back. -/
theorem read_render_of_plain {host : String} (h : IsHost host.toList) (plain : ':' ∉ host.toList)
    (other : host ≠ "unix") (start : host.toList.head?.any isBlank = false) (port : UInt16) :
    read (render (.tcp host port)) = .ok (.tcp host port) := by
  have front : shown host = host.toList := if_neg plain
  have still : Blank.trimStart host.toList = host.toList := by
    cases shape : host.toList with
    | nil => rfl
    | cons c cs =>
      have first : ¬ isBlank c := by simpa [shape] using start
      simp only [Blank.trimStart, List.dropWhile_cons, if_neg first]
  have unmarked : ¬ socketMark <+: host.toList ++ ':' :: digits port := fun mark =>
    other (String.toList_inj.1 (eq_of_mark plain mark))
  rw [read_render_eq, front, still, ofChars_append port unmarked h.stripBrackets h.nonempty,
    String.ofList_toList]

theorem isHost_of_ofChars {cs : List Char} {host : String} {port : UInt16}
    (h : ofChars cs = .ok (.tcp host port)) : IsHost host.toList := by
  cases means_of_ofChars h with
  | bare => exact ⟨by decide, by decide, by decide⟩
  | pair _ _ named nonempty =>
    rw [← named] at nonempty ⊢
    exact isHost_stripBrackets nonempty

/-- **Endpoints are read back.** The text of an endpoint that was read is read as that endpoint
again, unless its host is misread without brackets. The host `unix` then gives the socket whose path
is the port. -/
theorem read_render_iff {input : String} {e : Endpoint} (h : read input = .ok e) :
    (read e.render = .ok e ↔ e.misread = false) ∧
      ∀ port, e = .tcp "unix" port → read e.render = .ok (.unix (toString port.toNat)) := by
  rw [read_eq_ok_iff] at h
  refine ⟨?_, fun port same => same ▸ read_render_unix port⟩
  cases e with
  | unix path =>
    cases means_of_ofChars h with
    | socket text =>
      have written : (render (.unix path)).toList = Blank.trim input.toList := by
        rw [text]
        exact String.toList_append
      have back : read (render (.unix path)) = .ok (.unix path) := by
        rw [read_eq_ok_iff, written, trim_trim, h]
      exact ⟨fun _ => rfl, fun _ => back⟩
  | tcp host port =>
    have named := isHost_of_ofChars h
    by_cases colon : ':' ∈ host.toList
    · simp [misread, colon, read_render_of_colon named colon]
    · by_cases mark : host = "unix"
      · subst mark
        simp [misread, read_render_unix]
      · by_cases blank : host.toList.head?.any isBlank
        · simp [misread, blank, colon, read_render_of_blank colon blank]
        · have start := Bool.eq_false_iff.2 blank
          simp [misread, mark, start, read_render_of_plain named colon mark start]

/-- A bracketed address comes back, and the host `unix` does not. -/
theorem read_render_bracketed :
    (read "[::1]:7000" = .ok (.tcp "::1" 7000) ∧
      read (render (.tcp "::1" 7000)) = .ok (.tcp "::1" 7000)) ∧
    (read "[unix]:5" = .ok (.tcp "unix" 5) ∧
      read (render (.tcp "unix" 5)) = .ok (.unix "5") ∧
      read (render (.tcp "unix" 5)) ≠ .ok (.tcp "unix" 5)) := by
  have address : read "[::1]:7000" = .ok (.tcp "::1" 7000) := by rfl
  have mark : read "[unix]:5" = .ok (.tcp "unix" 5) := by rfl
  obtain ⟨back, socket⟩ := read_render_iff mark
  exact ⟨⟨address, (read_render_iff address).1.2 (by decide)⟩, mark, socket 5 rfl,
    fun same => absurd (back.1 same) (by decide)⟩

end Endpoint

end CallDebugger
