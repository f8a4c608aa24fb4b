import CallDebugger.Console.Printer
import CallDebugger.Proofs.Trace.Kept

/-!
# The numbers of a listing

A window of the history is printed with a number in front of every call. The history finds the calls
by counting back from its newest one, and the console numbers them by counting down from the start
of the page and its length, in 64 bits (`TracePage.number?`). The numbers are the offsets by which
each call is found again (`History.query_numbered`).
-/

namespace CallDebugger

namespace TracePage

/-- The sum of two numbers, if 64 bits hold it. -/
def sum? (a b : Nat) : Option Nat := if a + b < UInt64.size then some (a + b) else none

/-- The number of the record at place `i`: that of the oldest one is the last before the end of the
page, and from there they count down. There is none if a sum is too large or a difference would be
negative. -/
def number? (p : TracePage) (i : Nat) : Option Nat := do
  let stop ← sum? p.start.toNat p.records.length
  let oldest ← History.less? stop 1
  History.less? oldest i

/-- The numbers from `start` on, as many as there are records, the largest first. -/
theorem offsets_eq (p : TracePage) :
    p.offsets = (List.range' p.start.toNat p.records.length).reverse := by
  rw [offsets, List.map_reverse, List.range'_eq_map_range]

theorem number?_eq {p : TracePage} {i : Nat} (fits : p.start.toNat + p.records.length < UInt64.size)
    (inside : i < p.records.length) :
    p.number? i = some (p.start.toNat + (p.records.length - 1 - i)) := by
  have stop : sum? p.start.toNat p.records.length = some _ := if_pos fits
  have oldest : History.less? (p.start.toNat + p.records.length) 1 = some _ := if_pos (by omega)
  have number : History.less? (p.start.toNat + p.records.length - 1) i = some _ := if_pos (by omega)
  simp only [number?, stop, oldest, number, Option.bind_eq_bind, Option.bind_some]
  congr 1
  omega

end TracePage

namespace History

/-- The page of a window ends before the window does. -/
theorem length_query_le (h : History) (w : TraceWindow) (some : (h.query w).records ≠ []) :
    w.start.toNat + (h.query w).records.length ≤ w.stop.toNat := by
  have count := List.length_pos_iff.2 some
  simp only [query, List.length_reverse, List.length_drop, List.length_take] at count ⊢
  omega

/-- The record at place `i` of a page is the call at the offset that many places before the end of
the page. -/
theorem getElem?_query {h : History} {w : TraceWindow} {i : Nat}
    (inside : i < (h.query w).records.length) :
    (h.query w).records[i]? =
      h.newestFirst[w.start.toNat + ((h.query w).records.length - 1 - i)]? := by
  have size : (h.query w).records.length =
      ((h.newestFirst.take w.stop.toNat).drop w.start.toNat).length := List.length_reverse
  have short := h.length_query_le w (List.ne_nil_of_length_pos (by omega))
  rw [size] at inside short ⊢
  rw [query, List.getElem?_reverse inside, List.getElem?_drop, List.getElem?_take_of_lt (by omega)]

/-- The window of one offset shows the call there. -/
theorem query_single {h : History} {n : Nat} {c : Call} (found : h.newestFirst[n]? = some c)
    (fits : n + 1 < UInt64.size) :
    (h.query ⟨UInt64.ofNat n, UInt64.ofNat (n + 1)⟩).records = [c] := by
  have start : (UInt64.ofNat n).toNat = n := UInt64.toNat_ofNat_of_lt' (by omega)
  have stop : (UInt64.ofNat (n + 1)).toNat = n + 1 := UInt64.toNat_ofNat_of_lt' fits
  obtain ⟨inside, rfl⟩ := List.getElem?_eq_some_iff.1 found
  have one : (h.newestFirst.take (n + 1)).drop n = [h.newestFirst[n]] := by
    rw [List.drop_take, List.drop_eq_getElem_cons inside, Nat.add_sub_cancel_left]
    rfl
  rw [query, start, stop, one]
  rfl

/-- **Numbers of a listing are offsets.** What a window shows is printed in one line for each call,
the oldest first, with the numbers from the start of the window on, the largest first and none left
out. The console gets these numbers without an overflow or a negative difference, as the history
finds its calls. The window of one offset that begins with the number of a line shows the call of
that line. -/
theorem query_numbered (h : History) (w : TraceWindow) :
    let p := h.query w
    let start := w.start.toNat
    let count := p.records.length
    (Notice.trace p : Notice Asker).lines =
      (if count = 0 then ["(no calls at offset " ++ toString start ++ ")"]
        else (List.range' start count).reverse.zipWith
          (fun n c => column 8 n ++ "  " ++ c.render) p.records) ∧
    (∀ i < count, p.number? i = (List.range' start count).reverse[i]?) ∧
    h.slots? w = some p.records ∧
    ∀ i c, p.records[i]? = some c → ∃ n, p.number? i = some n ∧ n + i + 1 = start + count ∧
      n + 1 < UInt64.size ∧ (h.query ⟨UInt64.ofNat n, UInt64.ofNat (n + 1)⟩).records = [c] := by
  intro p start count
  have short (i : Nat) (inside : i < count) : start + count < UInt64.size :=
    Nat.lt_of_le_of_lt
      (h.length_query_le w (List.ne_nil_of_length_pos (Nat.zero_lt_of_lt inside))) w.stop.toNat_lt
  refine ⟨?_, fun i inside => ?_, h.slots?_eq w, fun i c found => ?_⟩
  · by_cases none : count = 0
    · have empty : p.records.isEmpty := List.isEmpty_iff_length_eq_zero.2 none
      rw [if_pos none, Notice.lines, TracePage.lines, if_pos empty]
      rfl
    · have some : ¬ p.records.isEmpty := fun empty => none (List.isEmpty_iff_length_eq_zero.1 empty)
      rw [if_neg none, Notice.lines, TracePage.lines, if_neg some, p.offsets_eq,
        List.map_zip_eq_zipWith]
      rfl
  · have place : count - 1 - i < count := by omega
    rw [TracePage.number?_eq (short i inside) inside, List.getElem?_reverse (by simpa using inside),
      List.length_range', List.getElem?_range' place, Nat.one_mul]
    rfl
  · obtain ⟨inside, -⟩ := List.getElem?_eq_some_iff.1 found
    have fits : start + count < UInt64.size := short i inside
    have number := TracePage.number?_eq fits inside
    rw [getElem?_query inside] at found
    have place : start + (count - 1 - i) + i + 1 = start + count := by
      have : i < count := inside
      omega
    exact ⟨start + (count - 1 - i), number, place, by omega, query_single found (by omega)⟩

/-- Three calls, and a window from the second newest on that reaches beyond them: two lines, the
first of which is numbered two. -/
theorem query_numbered_beyond :
    let h := (new 3).run [.add (.start 1 []), .add (.start 2 []), .add (.start 3 [])]
    let p := h.query ⟨1, 9⟩
    (Notice.trace p : Notice Asker).lines =
      [column 8 2 ++ "  " ++ (Call.start 1 []).render,
        column 8 1 ++ "  " ++ (Call.start 2 []).render] ∧
    ∃ n, p.number? 0 = some n ∧ n = 2 ∧
      (h.query ⟨UInt64.ofNat n, UInt64.ofNat (n + 1)⟩).records = [.start 1 []] := by
  intro h p
  obtain ⟨lines, -, -, single⟩ := query_numbered h ⟨1, 9⟩
  refine ⟨lines, ?_⟩
  obtain ⟨n, number, place, -, found⟩ := single 0 (.start 1 []) rfl
  exact ⟨n, number, Nat.add_right_cancel place, found⟩

end History

end CallDebugger
