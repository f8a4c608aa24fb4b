import CallDebugger.Trace.History
import Mathlib.Data.List.DropRight

/-!
# What a history keeps

`History.records` tells from the changes alone which calls were added and what was attached to each
while it was the newest. A history keeps the last of these calls, as many as it has room for, and a
window shows those of them whose offsets lie in it, so windows that meet make up one window
(`History.windows_of_kept`).
-/

namespace CallDebugger

/-- One change of a history. -/
inductive History.Change where
  | add (c : Call)
  | result (value : Value)
  | error (code : UInt32)
  | debugOutput (output : String)

namespace History.Change

/-- The call that a change adds. -/
def added? : Change → Option Call
  | .add c => some c
  | _ => none

/-- The return value that a change attaches. -/
def result? : Change → Option Value
  | .result value => some value
  | _ => none

/-- The error code that a change attaches. -/
def error? : Change → Option UInt32
  | .error code => some code
  | _ => none

/-- The debug output that a change attaches. -/
def debugOutput? : Change → Option String
  | .debugOutput output => some output
  | _ => none

end History.Change

/-- The call with the last return value, error code and debug output that changes attach. -/
def Call.amendedBy (c : Call) (xs : List History.Change) : Call :=
  { c with
    result := (xs.filterMap History.Change.result?).getLast?.or c.result
    error := (xs.filterMap History.Change.error?).getLast?.getD c.error
    debugOutput := (xs.filterMap History.Change.debugOutput?).getLast?.or c.debugOutput }

namespace History

/-- The history after a change. -/
def after (h : History) : Change → History
  | .add c => h.add c
  | .result value => h.setResult value
  | .error code => h.setError code
  | .debugOutput output => h.setDebugOutput output

/-- The history after changes, the first one first. -/
def run (h : History) (xs : List Change) : History := xs.foldl after h

/-- The calls that are kept, the oldest first. -/
def contents (h : History) : List Call := h.newestFirst.reverse

/-- The calls that are kept, each with its offset, the oldest first. -/
def offsets (h : History) : List (Call × Nat) := h.newestFirst.zipIdx.reverse

/-- The calls that changes add, each with what they attach to it while it is the newest. -/
def records : List Change → List Call
  | [] => []
  | .add c :: xs => c.amendedBy (xs.takeWhile fun x => x.added?.isNone) :: records xs
  | _ :: xs => records xs

/-- What is left of `a` when `b` is taken away, if there is that much. -/
def less? (a b : Nat) : Option Nat := if b ≤ a then some (a - b) else none

/-- The elements from place `low` up to, not including, place `high`, if there are such places. -/
def slice? {α : Type} (as : List α) (low high : Nat) : Option (List α) :=
  if low ≤ high ∧ high ≤ as.length then some ((as.drop low).take (high - low)) else none

/-- The calls of a window by their places, counted from the oldest one. There are none if a
difference would be negative or a place is not there. -/
def slots? (h : History) (w : TraceWindow) : Option (List Call) :=
  let stop := min w.stop.toNat h.length
  if stop ≤ w.start.toNat then some []
  else do slice? h.contents (← less? h.length stop) (← less? h.length w.start.toNat)

/-! ## Changes -/

variable {h : History} {x : Change} {xs : List Change}

theorem run_concat (h : History) (xs : List Change) (x : Change) :
    h.run (xs ++ [x]) = (h.run xs).after x := by
  simp [run]

theorem newestFirst_amend (h : History) (f : Call → Call) :
    (h.amend f).newestFirst = h.newestFirst.modifyHead f := by
  unfold amend
  split
  · next none => rw [none]; rfl
  · next some => rw [some]; rfl

theorem capacity_amend (h : History) (f : Call → Call) : (h.amend f).capacity = h.capacity := by
  unfold amend
  split <;> rfl

/-- A change that adds no call amends the newest one. -/
theorem after_of_not_added (h : History) (amends : x.added? = none) :
    h.after x = h.amend (·.amendedBy [x]) := by
  cases x with
  | add c => nomatch amends
  | result value => rfl
  | error code => rfl
  | debugOutput output => rfl

theorem capacity_after (h : History) (x : Change) : (h.after x).capacity = h.capacity := by
  cases x with
  | add c => rfl
  | result | error | debugOutput => exact h.capacity_amend _

theorem capacity_run (h : History) (xs : List Change) : (h.run xs).capacity = h.capacity := by
  induction xs generalizing h with
  | nil => rfl
  | cons x xs ih => exact (ih (h.after x)).trans (h.capacity_after x)

/-! ## What was added -/

theorem amendedBy_append (c : Call) (xs ys : List Change) :
    c.amendedBy (xs ++ ys) = (c.amendedBy xs).amendedBy ys := by
  simp only [Call.amendedBy, List.filterMap_append, List.getLast?_append, Option.or_assoc,
    Option.getD_or]

theorem records_of_not_added (none : ∀ x ∈ xs, x.added? = .none) : records xs = [] := by
  induction xs with
  | nil => rfl
  | cons x xs ih =>
    have rest := ih fun y mem => none y (List.mem_cons_of_mem x mem)
    have first := none x List.mem_cons_self
    cases x with
    | add c => nomatch first
    | result | error | debugOutput => exact rest

theorem records_ne_nil (mem : x ∈ xs) (adds : x.added? ≠ none) : records xs ≠ [] := by
  induction xs with
  | nil => nomatch mem
  | cons y xs ih =>
    cases y with
    | add c => exact List.cons_ne_nil _ _
    | result | error | debugOutput =>
      refine ih ((List.mem_cons.1 mem).resolve_left ?_)
      rintro rfl
      exact adds rfl

/-- An element at the end does not matter to a row that stops before it or at it. -/
theorem takeWhile_concat {α : Type} {p : α → Bool} {as : List α} {a : α}
    (stops : ∃ b ∈ as ++ [a], p b = false) : (as ++ [a]).takeWhile p = as.takeWhile p := by
  induction as with
  | nil =>
    obtain ⟨b, mem, stop⟩ := stops
    rw [List.mem_singleton.1 mem] at stop
    simp [stop]
  | cons c as ih =>
    rw [List.cons_append, List.takeWhile_cons, List.takeWhile_cons]
    split
    · obtain ⟨b, mem, stop⟩ := stops
      have apart : b ≠ c := by
        rintro rfl
        simp_all
      rw [ih ⟨b, (List.mem_cons.1 mem).resolve_left apart, stop⟩]
    · rfl

/-- One more call comes last, with nothing attached. -/
theorem records_concat_add (xs : List Change) (c : Call) :
    records (xs ++ [.add c]) = records xs ++ [c] := by
  induction xs with
  | nil => rfl
  | cons x xs ih =>
    cases x with
    | add d =>
      rw [List.cons_append, records, records, ih, List.cons_append,
        takeWhile_concat ⟨.add c, by simp, rfl⟩]
    | result | error | debugOutput => exact ih

/-- What is attached is attached to the last call. -/
theorem reverse_records_concat (xs : List Change) (amends : x.added? = none) :
    (records (xs ++ [x])).reverse = (records xs).reverse.modifyHead (·.amendedBy [x]) := by
  induction xs with
  | nil => rw [List.nil_append, records_of_not_added (by simpa using amends)]; rfl
  | cons y xs ih =>
    cases y with
    | add c =>
      rw [List.cons_append, records, records]
      by_cases alone : ∀ y ∈ xs, y.added? = none
      · -- The call is still the newest one.
        have silent : ∀ y ∈ xs ++ [x], y.added? = none := by
          intro y mem
          rcases List.mem_append.1 mem with mem | mem
          · exact alone y mem
          · rw [List.mem_singleton.1 mem, amends]
        have all : (xs ++ [x]).takeWhile (fun x => x.added?.isNone) = xs ++ [x] :=
          List.takeWhile_eq_self_iff.2 fun y mem => by rw [silent y mem]; rfl
        have before : xs.takeWhile (fun x => x.added?.isNone) = xs :=
          List.takeWhile_eq_self_iff.2 fun y mem => by rw [alone y mem]; rfl
        rw [all, before, records_of_not_added silent, records_of_not_added alone, amendedBy_append]
        rfl
      · -- There is a newer one.
        obtain ⟨y, mem, adds⟩ : ∃ y ∈ xs, y.added? ≠ none := by simpa using alone
        have later : (records xs).reverse ≠ [] := by simpa using records_ne_nil mem adds
        have stops : ∃ y ∈ xs ++ [x], y.added?.isNone = false :=
          ⟨y, List.mem_append_left _ mem, by simpa [Option.isSome_iff_ne_none] using adds⟩
        rw [takeWhile_concat stops, List.reverse_cons, List.reverse_cons, ih]
        cases back : (records xs).reverse with
        | nil => exact absurd back later
        | cons d older => rfl
    | result | error | debugOutput => exact ih

/-- A history keeps the last of the calls that were added. -/
theorem newestFirst_run (capacity : Nat) (xs : List Change) :
    ((new capacity).run xs).newestFirst = (records xs).reverse.take (max capacity 1) := by
  induction xs using List.reverseRecOn with
  | nil => simp [run, new, records]
  | append_singleton xs x ih =>
    rw [run_concat]
    cases added : x.added? with
    | none =>
      rw [after_of_not_added _ added, newestFirst_amend, ih, reverse_records_concat xs added,
        List.take_modifyHead]
    | some c =>
      have adds : x = .add c := by
        cases x <;> simp_all [Change.added?]
      subst adds
      have room : ((new capacity).run xs).capacity = max capacity 1 := capacity_run _ xs
      rw [records_concat_add, List.reverse_append, after, add, room, ih]
      cases max capacity 1 with
      | zero => rfl
      | succ n => simp [List.take_take]

/-! ## Windows -/

/-- The elements from place `low` up to place `high` are those whose places lie there. -/
theorem drop_take_eq_filter {α : Type} (as : List α) (low high first : Nat) :
    (as.take high).drop low =
      ((as.zipIdx first).filter fun p => first + low ≤ p.2 ∧ p.2 < first + high).map Prod.fst := by
  induction as generalizing low high first with
  | nil => simp
  | cons a as ih =>
    -- Later places are counted on from the next one.
    have shift : ∀ low' high', (∀ i, first + 1 ≤ i →
        (first + low ≤ i ∧ i < first + high ↔ first + 1 + low' ≤ i ∧ i < first + 1 + high')) →
        ((as.zipIdx (first + 1)).filter fun p => first + low ≤ p.2 ∧ p.2 < first + high).map
          Prod.fst = (as.take high').drop low' := by
      intro low' high' same
      rw [ih low' high' (first + 1)]
      congr 1
      refine List.filter_congr fun p mem => ?_
      simp only [same p.2 (List.le_snd_of_mem_zipIdx mem)]
    rw [List.zipIdx_cons, List.filter_cons]
    cases high with
    | zero =>
      have none : ¬ (first + low ≤ first ∧ first < first + 0) := by omega
      rw [if_neg (by simp), shift low 0 (by omega)]
      simp
    | succ high =>
      cases low with
      | zero =>
        rw [if_pos (by simp), List.map_cons, shift 0 high (by omega)]
        simp
      | succ low =>
        rw [if_neg (by simp), shift low high (by omega)]
        simp

/-- A window shows the calls whose offsets lie in it. -/
theorem records_query (h : History) (w : TraceWindow) :
    (h.query w).records = (h.offsets.filter fun p =>
      w.start.toNat ≤ p.2 ∧ p.2 < min w.stop.toNat h.length).map Prod.fst := by
  have clamped : h.newestFirst.take w.stop.toNat =
      h.newestFirst.take (min w.stop.toNat h.newestFirst.length) := by
    rw [List.take_eq_take_min]
  rw [query, offsets, List.filter_reverse, List.map_reverse, length, clamped,
    drop_take_eq_filter _ _ _ 0]
  simp only [Nat.zero_add]

/-- Taking a window by its places goes well, and gives the same calls. -/
theorem slots?_eq (h : History) (w : TraceWindow) : h.slots? w = some (h.query w).records := by
  have size : h.newestFirst.length = h.length := rfl
  have sizes : h.contents.length = h.length := List.length_reverse
  by_cases empty : min w.stop.toNat h.length ≤ w.start.toNat
  · have short : (h.newestFirst.take w.stop.toNat).length ≤ w.start.toNat := by
      rwa [List.length_take]
    simp only [slots?, if_pos empty, query, List.drop_eq_nil_of_le short, List.reverse_nil]
  · have low : less? h.length (min w.stop.toNat h.length) = some _ := if_pos (by omega)
    have high : less? h.length w.start.toNat = some _ := if_pos (by omega)
    have there : h.length - min w.stop.toNat h.length ≤ h.length - w.start.toNat ∧
        h.length - w.start.toNat ≤ h.contents.length := by omega
    -- Places from the oldest call on are offsets back from the newest one.
    have stop : h.newestFirst.length - (h.length - min w.stop.toNat h.length) =
        min w.stop.toNat h.length := by omega
    have start : min (min w.stop.toNat h.length) h.newestFirst.length -
        (h.length - w.start.toNat - (h.length - min w.stop.toNat h.length)) =
          w.start.toNat := by omega
    have clamped : h.newestFirst.take w.stop.toNat =
        h.newestFirst.take (min w.stop.toNat h.length) := List.take_eq_take_min
    simp only [slots?, if_neg empty, low, high, Option.bind_eq_bind, Option.bind_some, slice?,
      if_pos there]
    rw [contents, List.drop_reverse, List.take_reverse, stop, List.length_take, start, query,
      clamped]

/-- Windows that meet make up one window. -/
theorem query_append (h : History) {s m e : UInt64} (first : s ≤ m) (second : m ≤ e) :
    (h.query ⟨m, e⟩).records ++ (h.query ⟨s, m⟩).records = (h.query ⟨s, e⟩).records := by
  have first : s.toNat ≤ m.toNat := UInt64.le_iff_toNat_le.1 first
  have second : m.toNat ≤ e.toNat := UInt64.le_iff_toNat_le.1 second
  have shorter : h.newestFirst.take m.toNat = (h.newestFirst.take e.toNat).take m.toNat := by
    rw [List.take_take, Nat.min_eq_left second]
  have joined := List.take_append_drop (m.toNat - s.toNat)
    ((h.newestFirst.take e.toNat).drop s.toNat)
  rw [List.drop_drop, Nat.add_sub_of_le first] at joined
  simp only [query]
  rw [← List.reverse_append, shorter, List.drop_take, joined]

/-- A window from the newest call on that is long enough shows all. -/
theorem query_all (h : History) {n : UInt64} (long : h.length ≤ n.toNat) :
    (h.query ⟨0, n⟩).records = h.contents := by
  rw [query, contents, List.take_of_length_le long]
  rfl

/-- **What is kept, and what windows show.** Take a history of any capacity after any changes.

* It keeps the last of the calls that were added, in order, as many as it has room for and one at
  least. Each carries the last return value, error code and debug output that were attached while it
  was the newest.
* What is attached changes the newest call at most, and nothing if there is none.
* A window shows exactly the calls whose offsets, counted back from the newest call, lie in it, the
  oldest first. Taking them by their places meets no negative difference and no missing place.
* Windows that meet make up one window, and one that is long enough shows all that is kept. -/
theorem windows_of_kept (capacity : Nat) (xs : List Change) :
    let h := (new capacity).run xs
    h.contents = (records xs).rtake (max capacity 1) ∧
    (∀ x, x.added? = none → (h.after x).contents =
      h.contents.dropLast ++ (h.contents.getLast?.map (·.amendedBy [x])).toList) ∧
    (∀ w, (h.query w).start = w.start ∧ h.slots? w = some (h.query w).records ∧
      (h.query w).records = (h.offsets.filter fun p =>
        w.start.toNat ≤ p.2 ∧ p.2 < min w.stop.toNat h.length).map Prod.fst) ∧
    (∀ s m e, s ≤ m → m ≤ e →
      (h.query ⟨m, e⟩).records ++ (h.query ⟨s, m⟩).records = (h.query ⟨s, e⟩).records) ∧
    ∀ n, h.length ≤ n.toNat → (h.query ⟨0, n⟩).records = h.contents := by
  intro h
  refine ⟨?_, ?_, ?_, ?_, ?_⟩
  · rw [List.rtake_eq_reverse_take_reverse, contents, newestFirst_run]
  · intro x amends
    rw [after_of_not_added h amends, contents, newestFirst_amend, contents]
    cases h.newestFirst <;> simp
  · exact fun w => ⟨rfl, h.slots?_eq w, h.records_query w⟩
  · exact fun s m e first second => h.query_append first second
  · exact fun n long => h.query_all long

/-- Of three calls the last two are kept, with what was attached in time, and a window that reaches
beyond them shows both. -/
theorem windows_of_kept_full :
    let xs : List Change := [.error 3, .add (.start 1 []), .add (.start 2 []), .error 5, .error 6,
      .add (.start 3 []), .result (.uint32 9)]
    let h := (new 2).run xs
    h.contents =
      [⟨2, [], none, 6, none⟩, ⟨3, [], some (.uint32 9), 0, none⟩] ∧
    (h.after (.debugOutput "late")).contents =
      [⟨2, [], none, 6, none⟩, ⟨3, [], some (.uint32 9), 0, some "late"⟩] ∧
    (h.query ⟨1, 9⟩).records ++ (h.query ⟨0, 1⟩).records = (h.query ⟨0, 9⟩).records ∧
    (h.query ⟨0, 9⟩).records = h.contents := by
  intro xs h
  have facts := windows_of_kept 2 xs
  refine ⟨facts.1, facts.2.1 (.debugOutput "late") rfl, facts.2.2.2.1 0 1 9 ?_ ?_,
    facts.2.2.2.2 9 ?_⟩ <;> decide

end History

end CallDebugger
