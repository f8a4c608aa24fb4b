import CallDebugger.Proofs.Console.Turns
import CallDebugger.Proofs.Session.Awaiting
import CallDebugger.Proofs.Session.Dealings
import Mathlib.Data.List.Induction

/-!
# Watches of a console

The commands of a run tell which watches a console has (`Console.roster`): they are numbered from 1
in the order in which they were made, and one that was ended never comes back. The table of the
console ties each to a watch of the session (`Console.Tabled`), whatever else happens. So a pause
that is accepted queries the live watches in order, and what is printed for a watch is the first
reply to one of its queries (`Console.watches_kept`). All this as long as the numbers fit into
their words: a run that makes more watches gives its numbers out again
(`Console.watches_kept_gone_round`).
-/

namespace CallDebugger

/-- The asker that a notice names. -/
def Notice.asker? {ι : Type} : Notice ι → Option ι
  | .reply label _ | .update label _ | .refused label _ => some label
  | _ => none

/-- The asker that a callback names. -/
def Callback.asker {ι : Type} : Callback ι → ι
  | .reply label | .snapshot _ label => label

theorem Notice.isAnswer_of_asker {ι : Type} {n : Notice ι} {label : ι}
    (named : n.asker? = some label) : n.isAnswer = true := by
  cases n <;> first | rfl | nomatch named

theorem Callback.asker?_notice {ι : Type} (c : Callback ι) (r : Reply) :
    (c.notice r).asker? = some c.asker := by
  cases c with
  | reply label => rfl
  | snapshot kind label =>
    simp only [Callback.notice]
    cases r.snapshot kind <;> rfl

namespace Console

/-! ## The roster -/

/-- A watch that a command makes. -/
structure Interest where
  number : Nat
  kind : ObjectKind
  name : ObjectName

namespace Interest

/-- How the console names what it watches. -/
def asker (e : Interest) : Asker := .watch e.number (e.kind.name ++ " " ++ e.name.render)

/-- The query for what is watched. -/
def errand (e : Interest) : Errand := .query e.kind e.name

/-- A watch of the session is made for what the console watches. -/
structure Stands (e : Interest) (w : Watch Asker) : Prop where
  kind : w.kind = e.kind
  name : w.name = e.name
  label : w.label = e.asker

end Interest

/-- A command that makes a watch. -/
def Input.isWatch : Input → Bool
  | .command (.watch ..) .. => true
  | _ => false

/-- A command that makes or ends a watch. -/
def Input.isWatching : Input → Bool
  | .command (.watch ..) .. | .command (.unwatch _) .. => true
  | _ => false

/-- A command that makes a watch of an object. -/
def Input.Watches (i : Input) (kind : ObjectKind) (name : ObjectName) : Prop :=
  ∃ files dial, i = .command (.watch kind name) files dial

/-- A command that ends the watch of a number. -/
def Input.Unwatches (i : Input) (number : Nat) : Prop :=
  ∃ id files dial, i = .command (.unwatch id) files dial ∧ id.toNat = number

/-- The watches that commands have made, and those among them that are live. -/
structure Roster where
  made : Nat
  live : List Interest

/-- The roster after something has happened. -/
def Roster.meet (r : Roster) : Input → Roster
  | .command (.watch kind name) _ _ => ⟨r.made + 1, r.live ++ [⟨r.made + 1, kind, name⟩]⟩
  | .command (.unwatch id) _ _ => { r with live := r.live.filter fun e => e.number != id.toNat }
  | _ => r

/-- The roster of a run. -/
def roster (is : List Input) : Roster := is.foldl Roster.meet ⟨0, []⟩

variable {is : List Input} {i : Input} {r : Roster} {e : Interest}

theorem roster_concat (is : List Input) (i : Input) : roster (is ++ [i]) = (roster is).meet i := by
  rw [roster, List.foldl_append]
  rfl

theorem Roster.meet_still (r : Roster) (other : i.isWatching = false) : r.meet i = r := by
  cases i with
  | command command files dial => cases command <;> first | rfl | nomatch other
  | arrive | pump => rfl

theorem Roster.made_meet (r : Roster) (i : Input) :
    (r.meet i).made = r.made + if i.isWatch then 1 else 0 := by
  cases i with
  | command command files dial => cases command <;> rfl
  | arrive | pump => rfl

/-- As many watches were made as there were commands to make one. -/
theorem made_roster (is : List Input) : (roster is).made = is.countP Input.isWatch := by
  induction is using List.reverseRecOn with
  | nil => rfl
  | append_singleton is i ih =>
    rw [roster_concat, Roster.made_meet, ih, List.countP_append, List.countP_singleton]

theorem Roster.mem_meet :
    e ∈ (r.meet i).live ↔ (e ∈ r.live ∧ ¬ i.Unwatches e.number) ∨
      i.Watches e.kind e.name ∧ e.number = r.made + 1 := by
  obtain ⟨number, kind, name⟩ := e
  cases i with
  | command command files dial =>
    cases command with
    | watch kind' name' =>
      simp only [meet, List.mem_append, List.mem_singleton, Interest.mk.injEq, Input.Watches,
        Input.Unwatches, Input.command.injEq, Command.watch.injEq, reduceCtorEq, false_and,
        exists_false, not_false_eq_true, and_true]
      refine or_congr_right ⟨?_, ?_⟩
      · rintro ⟨rfl, rfl, rfl⟩
        exact ⟨⟨files, dial, ⟨rfl, rfl⟩, rfl, rfl⟩, rfl⟩
      · rintro ⟨⟨_, _, ⟨rfl, rfl⟩, -⟩, rfl⟩
        exact ⟨rfl, rfl, rfl⟩
    | unwatch id =>
      have ends : Input.Unwatches (.command (.unwatch id) files dial) number ↔
          id.toNat = number := by
        constructor
        · rintro ⟨id, files, dial, same, ends⟩
          cases same
          exact ends
        · intro ends
          exact ⟨id, files, dial, rfl, ends⟩
      have other : ¬ Input.Watches (.command (.unwatch id) files dial) kind name := by
        simp [Input.Watches]
      rw [meet, List.mem_filter, bne_iff_ne, ne_comm, ends]
      simp only [other, false_and, or_false, ne_eq]
    | _ => simp [meet, Input.Watches, Input.Unwatches]
  | arrive | pump => simp [meet, Input.Watches, Input.Unwatches]

/-- **Who is watched.** A watch is live from the command that made it, which gave it the next
number, until a command ends it. -/
theorem mem_roster :
    e ∈ (roster is).live ↔
      Since (fun earlier i => i.Watches e.kind e.name ∧
          e.number = earlier.countP Input.isWatch + 1)
        (fun i => i.Unwatches e.number) is := by
  induction is using List.reverseRecOn with
  | nil =>
    constructor
    · nofun
    · rintro ⟨earlier, i, later, split, -⟩
      simp at split
  | append_singleton is i ih =>
    rw [roster_concat, Roster.mem_meet, since_concat, ← ih, ← made_roster]

/-- A watch that was ended never comes back: its number is not given out again. -/
theorem ne_of_unwatched {earlier later : List Input} {ended : Input} {number : Nat}
    (ends : ended.Unwatches number) (made : number ≤ earlier.countP Input.isWatch) :
    ∀ e ∈ (roster (earlier ++ ended :: later)).live, e.number ≠ number := by
  induction later using List.reverseRecOn with
  | nil =>
    rintro e mem rfl
    rw [roster_concat, Roster.mem_meet, made_roster] at mem
    rcases mem with ⟨-, spared⟩ | ⟨-, fresh⟩
    · exact spared ends
    · omega
  | append_singleton later i ih =>
    rintro e mem rfl
    rw [← List.cons_append, ← List.append_assoc, roster_concat, Roster.mem_meet, made_roster,
      List.countP_append] at mem
    rcases mem with ⟨live, -⟩ | ⟨-, fresh⟩
    · exact ih e live rfl
    · omega

/-- Numbers go up, and none of them is still to be given out. -/
structure Roster.Ordered (r : Roster) : Prop where
  ascending : r.live.Pairwise fun d e => d.number < e.number
  given : ∀ e ∈ r.live, e.number ≤ r.made

theorem Roster.Ordered.meet (h : r.Ordered) (i : Input) : (r.meet i).Ordered := by
  by_cases other : i.isWatching = false
  · rw [r.meet_still other]
    exact h
  · cases i with
    | command command files dial =>
      cases command with
      | watch kind name =>
        constructor
        · show (r.live ++ [_]).Pairwise _
          rw [List.pairwise_append]
          refine ⟨h.ascending, List.pairwise_singleton _ _, ?_⟩
          intro e live new single
          rw [List.mem_singleton.1 single]
          exact Nat.lt_succ_of_le (h.given e live)
        · intro e mem
          show e.number ≤ r.made + 1
          rcases List.mem_append.1 mem with mem | mem
          · exact Nat.le_succ_of_le (h.given e mem)
          · exact Nat.le_of_eq (congrArg Interest.number (List.mem_singleton.1 mem))
      | unwatch id =>
        constructor
        · exact h.ascending.sublist List.filter_sublist
        · intro e mem
          exact h.given e (List.mem_filter.1 mem).1
      | _ => exact absurd rfl other
    | arrive | pump => exact absurd rfl other

theorem ordered_roster (is : List Input) : (roster is).Ordered := by
  induction is using List.reverseRecOn with
  | nil => exact ⟨List.Pairwise.nil, nofun⟩
  | append_singleton is i ih =>
    rw [roster_concat]
    exact ih.meet i

/-! ## Numbers -/

section Numbers

variable {c : Console}

/-- Each watch takes the next number. -/
theorem nextWatch_meet (c : Console) (i : Input) :
    (c.meet i).nextWatch = c.nextWatch + if i.isWatch then 1 else 0 := by
  by_cases plain : i.isPlain = true
  · have other : i.isWatch = false := by
      cases i with
      | command command files dial => cases command <;> first | rfl | nomatch plain
      | arrive | pump => rfl
    obtain ⟨session, endpoint, printed, met⟩ := meet_plain (c := c) plain
    rw [met, other]
    exact (UInt32.add_zero _).symm
  · cases i with
    | command command files dial =>
      cases command with
      | watch => rfl
      | unwatch id =>
        refine Eq.trans ?_ (UInt32.add_zero _).symm
        simp only [meet, execute, unwatch]
        split <;> rfl
      | trace window =>
        cases window with
        | none => exact (UInt32.add_zero _).symm
        | some window => exact absurd rfl plain
      | _ => exact absurd rfl plain
    | arrive | pump => exact absurd rfl plain

/-- The next number of a run, as a word. -/
theorem nextWatch_run (config : Config) (endpoint : Endpoint) (is : List Input) :
    ((new config endpoint).run is).nextWatch = .ofNat (is.countP Input.isWatch + 1) := by
  induction is using List.reverseRecOn with
  | nil => rfl
  | append_singleton is i ih =>
    have met : ((new config endpoint).run (is ++ [i])).nextWatch =
        .ofNat (is.countP Input.isWatch + 1) + if i.isWatch then 1 else 0 := by
      rw [run_append, ← ih]
      exact nextWatch_meet _ i
    rw [met, List.countP_append, List.countP_singleton]
    cases i.isWatch with
    | false => exact UInt32.add_zero _
    | true => exact (UInt32.ofNat_add (is.countP Input.isWatch + 1) 1).symm

/-- A watch is printed with the next number. -/
theorem Settled.printed_watch (h : c.Settled) (kind : ObjectKind) (name : ObjectName)
    (files : Files) (dial : Endpoint → Link) :
    (c.meet (.command (.watch kind name) files dial)).printed = c.printed ++
      [.line ("watch #" ++ toString c.nextWatch.toNat ++ " refreshes at the next pause")] := by
  have printed : (c.meet (.command (.watch kind name) files dial)).printed =
      c.printed ++ c.session.log.map .notice ++
        [.line ("watch #" ++ toString c.nextWatch.toNat ++ " refreshes at the next pause")] := rfl
  rw [printed, h.log, List.map_nil, List.append_nil]

end Numbers

/-! ## The table -/

/-- The table of a console ties each live watch of the roster to a watch of the session, in order.
Numbers are words, so this is said of a console that has not run out of them. -/
structure Tabled (c : Console) (r : Roster) : Prop where
  next : c.nextWatch = .ofNat (r.made + 1)
  small : r.made < UInt32.size
  numbers : r.Ordered
  ids : c.session.watches.Ordered
  table : ∃ pairs : List (Interest × Watch Asker), r.live = pairs.map (·.1) ∧
    c.session.watches.live = pairs.map (·.2) ∧
    c.watches = pairs.map (fun p => (.ofNat p.1.number, p.2.id)) ∧ ∀ p ∈ pairs, p.1.Stands p.2

variable {c : Console}

theorem tabled_new (config : Config) (endpoint : Endpoint) :
    (new config endpoint).Tabled (roster []) :=
  ⟨rfl, by decide, ordered_roster [], Watches.ordered_empty, [], rfl, rfl, rfl, nofun⟩

/-- Only the table, the watches of the session and the next number matter. -/
theorem Tabled.congr (h : c.Tabled r) {c' : Console} (next : c'.nextWatch = c.nextWatch)
    (watched : c'.session.watches = c.session.watches) (table : c'.watches = c.watches) :
    c'.Tabled r :=
  ⟨next ▸ h.next, h.small, h.numbers, watched ▸ h.ids, by rw [watched, table]; exact h.table⟩

/-- The next number is one more than there are watches. -/
theorem Tabled.number (h : c.Tabled r) (small : r.made + 1 < UInt32.size) :
    c.nextWatch.toNat = r.made + 1 := by
  rw [h.next, UInt32.toNat_ofNat_of_lt' small]

/-- The row of the largest number is the last one. -/
theorem enroll_of_above {rows : List (UInt32 × WatchId)} {id : UInt32} (watch : WatchId)
    (above : ∀ row ∈ rows, row.1 < id) : enroll rows id watch = rows ++ [(id, watch)] := by
  have below : rows.filter (fun w => w.1 < id) = rows :=
    List.filter_eq_self.2 fun row mem => decide_eq_true (above row mem)
  have none_above : rows.filter (fun w => id < w.1) = [] :=
    List.filter_eq_nil_iff.2 fun row mem => by
      simpa using UInt32.le_of_lt (above row mem)
  rw [enroll, below, none_above]

/-- The rows of the table have smaller numbers than the next one. -/
theorem Tabled.above (h : c.Tabled r) (small : r.made + 1 < UInt32.size) :
    ∀ row ∈ c.watches, row.1 < c.nextWatch := by
  obtain ⟨pairs, live, -, table, -⟩ := h.table
  intro row mem
  rw [table] at mem
  obtain ⟨p, inside, rfl⟩ := List.mem_map.1 mem
  have given := h.numbers.given p.1 (live ▸ List.mem_map_of_mem inside)
  rw [UInt32.lt_iff_toNat_lt, h.number small, UInt32.toNat_ofNat_of_lt' (by omega)]
  omega

/-- A watch is made. -/
theorem Tabled.watch (h : c.Tabled r) (small : r.made + 1 < UInt32.size) (kind : ObjectKind)
    (name : ObjectName) (files : Files) (dial : Endpoint → Link) :
    (c.meet (.command (.watch kind name) files dial)).Tabled
      (r.meet (.command (.watch kind name) files dial)) := by
  obtain ⟨pairs, live, watched, table, stands⟩ := h.table
  let e : Interest := ⟨r.made + 1, kind, name⟩
  let w : Watch Asker :=
    ⟨c.session.watches.lastId + 1, name, kind, c.session.requests.nextHandler, e.asker⟩
  have label : Asker.watch c.nextWatch.toNat (kind.name ++ " " ++ name.render) = e.asker := by
    rw [h.number small]
    rfl
  have session : (c.meet (.command (.watch kind name) files dial)).session.watches.live =
      c.session.watches.live ++ [w] := by
    show c.session.watches.live ++ [_] = c.session.watches.live ++ [_]
    rw [label]
  refine ⟨?_, small, h.numbers.meet _, h.ids.subscribe c.session.requests name kind _,
    pairs ++ [(e, w)], ?_, ?_, ?_, ?_⟩
  · show c.nextWatch + 1 = .ofNat (r.made + 1 + 1)
    rw [h.next]
    exact (UInt32.ofNat_add (r.made + 1) 1).symm
  · rw [List.map_append, ← live]
    rfl
  · rw [session, List.map_append, ← watched]
    rfl
  · show enroll c.watches c.nextWatch _ = _
    rw [enroll_of_above _ (h.above small), List.map_append, ← table, List.map_singleton, ← h.next]
  · intro p mem
    rcases List.mem_append.1 mem with mem | mem
    · exact stands p mem
    · rw [List.mem_singleton.1 mem]
      exact ⟨rfl, rfl, rfl⟩

/-- In an ascending list, what has the same number is the same. -/
theorem eq_of_ascending {α : Type} {number : α → Nat} {as : List α}
    (ascending : as.Pairwise fun a b => number a < number b) {a b : α} (memA : a ∈ as)
    (memB : b ∈ as) (same : number a = number b) : a = b :=
  List.inj_on_of_nodup_map (List.pairwise_map.2 (ascending.imp Nat.ne_of_lt)) memA memB same

/-- A row of the table has the number of its watch. -/
theorem Tabled.ofNat_eq_iff (h : c.Tabled r) (mem : e ∈ r.live) (id : UInt32) :
    UInt32.ofNat e.number = id ↔ e.number = id.toNat := by
  have given := h.numbers.given e mem
  rw [← UInt32.toNat_inj, UInt32.toNat_ofNat_of_lt' (Nat.lt_of_le_of_lt given h.small)]

/-- A number is not in the table just if no live watch has it. -/
theorem Tabled.lookup_eq_none_iff (h : c.Tabled r) (id : UInt32) :
    c.watches.lookup id = none ↔ ∀ e ∈ r.live, e.number ≠ id.toNat := by
  obtain ⟨pairs, live, -, table, -⟩ := h.table
  rw [List.lookup_eq_none_iff, table, live]
  simp only [List.forall_mem_map, bne_iff_ne]
  refine forall₂_congr fun p inside => ?_
  rw [ne_comm]
  exact not_congr (h.ofNat_eq_iff (live ▸ List.mem_map_of_mem inside) id)

theorem meet_of_absent {id : UInt32} (absent : c.watches.lookup id = none) (files : Files)
    (dial : Endpoint → Link) :
    c.meet (.command (.unwatch id) files dial) = c.print ("no watch #" ++ toString id.toNat) := by
  simp only [meet, execute, Console.unwatch, absent, done]

/-- A number that is not in the table ends nothing. -/
theorem Tabled.unwatch_absent (h : c.Tabled r) {id : UInt32}
    (absent : c.watches.lookup id = none) (files : Files) (dial : Endpoint → Link) :
    (c.meet (.command (.unwatch id) files dial)).Tabled
      (r.meet (.command (.unwatch id) files dial)) := by
  have still : r.meet (.command (.unwatch id) files dial) = r := by
    have all : r.live.filter (fun e => e.number != id.toNat) = r.live :=
      List.filter_eq_self.2 fun e mem => bne_iff_ne.2 ((h.lookup_eq_none_iff id).1 absent e mem)
    rw [Roster.meet, all]
  rw [still, meet_of_absent absent]
  exact h.congr rfl rfl rfl

/-- A number that is in the table ends its watch: the row, the interest and the watch of the session
that go are those of one pair. -/
theorem Tabled.unwatch_found (h : c.Tabled r) {id : UInt32} {watch : WatchId}
    (found : c.watches.lookup id = some watch) (files : Files) (dial : Endpoint → Link) :
    (c.meet (.command (.unwatch id) files dial)).Tabled
      (r.meet (.command (.unwatch id) files dial)) := by
  obtain ⟨pairs, live, watched, table, stands⟩ := h.table
  have listed {p : Interest × Watch Asker} (mem : p ∈ pairs) : p.1 ∈ r.live :=
    live ▸ List.mem_map_of_mem mem
  have numbers : pairs.Pairwise fun p q => p.1.number < q.1.number := by
    have ascending := h.numbers.ascending
    rwa [live, List.pairwise_map] at ascending
  have ids : pairs.Pairwise fun p q => p.2.id < q.2.id := by
    have ascending := h.ids.ascending
    rwa [watched, List.pairwise_map] at ascending
  obtain ⟨p, inside, own, rfl⟩ : ∃ p ∈ pairs, p.1.number = id.toNat ∧ p.2.id = watch := by
    obtain ⟨before, after, split, -⟩ := List.lookup_eq_some_iff.1 found
    have row : (id, watch) ∈ c.watches := by rw [split]; simp
    rw [table] at row
    obtain ⟨p, inside, same⟩ := List.mem_map.1 row
    have number := congrArg Prod.fst same
    exact ⟨p, inside, (h.ofNat_eq_iff (listed inside) id).1 number, congrArg Prod.snd same⟩
  have row : ∀ q ∈ pairs, (UInt32.ofNat q.1.number != id) = (q.1.number != id.toNat) := by
    intro q mem
    rw [Bool.eq_iff_iff, bne_iff_ne, bne_iff_ne]
    exact not_congr (h.ofNat_eq_iff (listed mem) id)
  have sub : ∀ q ∈ pairs, (q.2.id != p.2.id) = (q.1.number != id.toNat) := by
    intro q mem
    rw [Bool.eq_iff_iff, bne_iff_ne, bne_iff_ne, ← own]
    refine not_congr ⟨fun same => ?_, fun same => ?_⟩
    · rw [eq_of_ascending ids mem inside same]
    · rw [eq_of_ascending numbers mem inside same]
  have met : c.meet (.command (.unwatch id) files dial) =
      { c with watches := c.watches.filter fun w => w.1 != id }.withSession
        (c.session.unsubscribe p.2.id).2 := by
    simp only [meet, execute, Console.unwatch, found, done]
  have ended : (c.session.unsubscribe p.2.id).2.watches =
      { c.session.watches with live := c.session.watches.live.filter fun v => v.id != p.2.id } :=
    c.session.watches.unsubscribe_eq c.session.requests p.2.id
  rw [met]
  refine ⟨h.next, h.small, h.numbers.meet _, h.ids.unsubscribe c.session.requests p.2.id,
    pairs.filter (fun q => q.1.number != id.toNat), ?_, ?_, ?_, ?_⟩
  · show r.live.filter _ = _
    rw [live, List.filter_map]
    rfl
  · show (c.session.unsubscribe p.2.id).2.watches.live = _
    rw [ended, watched, List.filter_map]
    exact congrArg _ (List.filter_congr sub)
  · show c.watches.filter _ = _
    rw [table, List.filter_map]
    exact congrArg _ (List.filter_congr row)
  · intro q mem
    exact stands q (List.mem_filter.1 mem).1

/-! ## Turns -/

/-- A turn that a command comes to makes or ends a watch only if the command does, and the console's
own requests are errands. -/
theorem turn_of_mem {t : Turn Asker} (mem : t ∈ c.turns i) :
    (t.isWatching = true → i.isWatching = true) ∧
      ∀ handler errand label, t = .request handler errand label →
        ∃ title, label = .errand title := by
  cases i with
  | arrive events =>
    rw [List.mem_singleton.1 mem]
    simp [Turn.isWatching]
  | pump =>
    rw [List.eq_of_mem_replicate mem]
    simp [Turn.isWatching]
  | command command files dial =>
    have comes : c.turn? files dial command = some t := Option.mem_toList.1 mem
    cases command with
    | watch =>
      cases comes
      simp [Input.isWatching]
    | unwatch id =>
      obtain ⟨watch, -, rfl⟩ := Option.map_eq_some_iff.1 comes
      simp [Input.isWatching]
    | editShader context shader source =>
      obtain ⟨errand, title, rfl⟩ :
          ∃ errand title, t = .request c.handler errand (.errand title) := by
        cases source with
        | supplied => exact ⟨_, _, (Option.some.inj comes).symm⟩
        | file path =>
          simp only [turn?] at comes
          split at comes
          · simp at comes
          · exact ⟨_, _, (Option.some.inj comes).symm⟩
      simp [Turn.isWatching]
    | link =>
      cases comes
      simp [Turn.isWatching]
    | connect endpoint =>
      obtain ⟨endpoint, link, rfl⟩ : ∃ endpoint link, t = .connect endpoint link := by
        cases endpoint with
        | none => exact ⟨_, _, (Option.some.inj comes).symm⟩
        | some text =>
          simp only [turn?] at comes
          split at comes
          · simp at comes
          · exact ⟨_, _, (Option.some.inj comes).symm⟩
      simp [Turn.isWatching]
    | _ => cases comes <;> simp [Turn.isWatching]

/-- What is watched does not change while an input is dealt with. -/
theorem Settled.watches_of_play (h : c.Settled) {p : Play Asker}
    (mem : p ∈ c.session.plays (c.turns i)) : p.before.watches = c.session.watches := by
  cases i with
  | command command files dial =>
    simp only [turns] at mem
    cases turn : c.turn? files dial command with
    | none => simp [turn] at mem
    | some t =>
      rw [turn] at mem
      rw [List.mem_singleton.1 mem]
  | arrive events => rw [List.mem_singleton.1 mem]
  | pump =>
    refine (h.consistent.watches_still fun t there => ?_).2 p mem
    rw [List.eq_of_mem_replicate there]
    rfl

/-- Whatever else happens, the table stays. -/
theorem Tabled.still (h : c.Tabled r) (settled : c.Settled) (other : i.isWatching = false) :
    (c.meet i).Tabled r := by
  have watched : (c.meet i).session.watches = c.session.watches := by
    rw [(settled.meets i).session]
    refine (settled.consistent.watches_still fun t there => ?_).1
    exact Bool.eq_false_iff.2 fun watching => by
      rw [(turn_of_mem there).1 watching] at other
      nomatch other
  by_cases plain : i.isPlain = true
  · obtain ⟨session, endpoint, printed, met⟩ := meet_plain (c := c) plain
    exact h.congr (by rw [met]) watched (by rw [met])
  · refine h.congr ?_ watched ?_
    all_goals
      cases i with
      | command command files dial =>
        cases command with
        | watch | unwatch => nomatch other
        | trace window =>
          cases window with
          | none => rfl
          | some window => exact absurd rfl plain
        | _ => exact absurd rfl plain
      | arrive | pump => exact absurd rfl plain

/-! ## Runs -/

/-- **The table of a run.** -/
theorem Tabled.meet (h : c.Tabled r) (settled : c.Settled) (i : Input)
    (fits : (r.meet i).made < UInt32.size) : (c.meet i).Tabled (r.meet i) := by
  by_cases other : i.isWatching = false
  · rw [r.meet_still other]
    exact h.still settled other
  · cases i with
    | command command files dial =>
      cases command with
      | watch kind name => exact h.watch fits kind name files dial
      | unwatch id =>
        cases found : c.watches.lookup id with
        | none => exact h.unwatch_absent found files dial
        | some watch => exact h.unwatch_found found files dial
      | _ => exact absurd rfl other
    | arrive | pump => exact absurd rfl other

theorem tabled_run (config : Config) (endpoint : Endpoint)
    (fits : is.countP Input.isWatch < UInt32.size) :
    ((new config endpoint).run is).Tabled (roster is) := by
  induction is using List.reverseRecOn with
  | nil => exact tabled_new config endpoint
  | append_singleton is i ih =>
    rw [← made_roster, roster_concat] at fits
    have earlier : (roster is).made < UInt32.size := by
      rw [Roster.made_meet] at fits
      omega
    rw [run_append, roster_concat]
    exact (ih (made_roster is ▸ earlier)).meet ((settled_new config endpoint).run is) i fits

/-- What the session waits for was asked in the plays of the run. -/
theorem Settled.awaited (h : c.Settled) {ps : List (Play Asker)}
    (awaited : Session.Awaited ps c.session) (is : List Input) :
    Session.Awaited (ps ++ c.plays is) (c.run is).session := by
  induction is generalizing c ps with
  | nil =>
    rw [plays, List.append_nil]
    exact awaited
  | cons i is ih =>
    have first := (awaited.run h.consistent (c.turns i)).log []
    rw [← (h.meets i).session] at first
    have later := ih (h.meet i) first
    rw [List.append_assoc] at later
    exact later

theorem awaited_new (config : Config) (endpoint : Endpoint) :
    Session.Awaited [] (new config endpoint).session :=
  Session.awaited_of_none Watches.distinct_empty rfl

/-- A play of the session of a console: what it requests by itself are errands. -/
structure Ours (q : Play Asker) : Prop where
  consistent : q.before.Consistent
  errands : ∀ handler errand label, q.turn = .request handler errand label →
    ∃ title, label = .errand title

theorem Settled.ours (h : c.Settled) {q : Play Asker} (mem : q ∈ c.session.plays (c.turns i)) :
    Ours q :=
  ⟨h.consistent.of_mem_plays mem, (turn_of_mem (Session.turn_of_mem_plays mem)).2⟩

/-- What is told about a watch is what the first reply to one of its queries brings. -/
theorem Tabled.told (h : c.Tabled r) (settled : c.Settled) {ps past rest : List (Play Asker)}
    {p : Play Asker} (awaited : Session.Awaited ps c.session) (ours : ∀ q ∈ ps, Ours q)
    (split : c.session.plays (c.turns i) = past ++ p :: rest) {n : Notice Asker} (told : n ∈ p.told)
    {number : Nat} {title : String} (named : n.asker? = some (.watch number title)) :
    ∃ e ∈ r.live, e.asker = .watch number title ∧ ∃ w reply, e.Stands w ∧
      p.FirstReply (ps ++ past) w reply ∧
      n = (Callback.snapshot e.kind e.asker).notice reply := by
  have mem : p ∈ c.session.plays (c.turns i) := by rw [split]; simp
  have ours : ∀ q ∈ ps ++ past, Ours q := by
    intro q inside
    rcases List.mem_append.1 inside with inside | inside
    · exact ours q inside
    · exact settled.ours (i := i) (by rw [split]; exact List.mem_append_left _ inside)
  have awaited : Session.Awaited (ps ++ past) p.before := by
    obtain ⟨us, rfl, before⟩ := Session.plays_split split
    exact before ▸ awaited.run settled.consistent us
  obtain ⟨⟨callback, reply⟩, called, rfl⟩ :
      ∃ called, p.called? = some called ∧ called.1.notice called.2 = n := by
    have answers := (Play.account (settled.ours mem).consistent).answers
    have inside := List.mem_filter.2 ⟨told, Notice.isAnswer_of_asker named⟩
    rw [answers, Option.mem_toList] at inside
    exact Option.map_eq_some_iff.1 inside
  have owner := (callback.asker?_notice reply).symm.trans named
  cases callback with
  | reply label =>
    obtain ⟨q, inside, handler, errand, turn⟩ := awaited.requested called
    obtain ⟨text, rfl⟩ := (ours q inside).errands handler errand label turn
    nomatch owner
  | snapshot kind label =>
    obtain ⟨w, live, rfl, rfl, first⟩ :=
      awaited.snapshot (fun q inside => (ours q inside).consistent) called
    obtain ⟨pairs, listed, watched, -, stands⟩ := h.table
    rw [settled.watches_of_play mem, watched] at live
    obtain ⟨pair, inside, rfl⟩ := List.mem_map.1 live
    have stands := stands pair inside
    refine ⟨pair.1, listed ▸ List.mem_map_of_mem inside, ?_, pair.2, reply, stands, first, ?_⟩
    · exact stands.label.symm.trans (Option.some.inj owner)
    · rw [← stands.kind, ← stands.label]

/-- **Watches of a console.** Take any run of a console, whatever commands are given and whatever
its links do, and what happens next, as long as the watches that are made have numbers that fit into
their words.

* A watch that is made is printed with its number, which is how many were made up to then. It is
  live until a command ends it, and no number is given out twice. A number that no live watch has
  ends nothing.
* The table of the console ties the live watches, in the order of their numbers, one to one to
  those of the session, each for the object that it was made for.
* A pause that is accepted queries the live watches in that order, and nothing else.
* The notices that are printed are those that the session tells. One that names a watch is what the
  first reply to a query of that watch brings: the query went out in an earlier play, at a pause
  that was accepted, and from then on its link was kept. The watch is live, so none is told of a
  watch that was ended once it had been made. -/
theorem watches_kept (config : Config) (endpoint : Endpoint) (is : List Input) (i : Input)
    (fits : (is ++ [i]).countP Input.isWatch < UInt32.size) :
    let fresh := new config endpoint
    let c := fresh.run is
    let r := roster is
    let now := c.session.plays (c.turns i)
    (∀ kind name, i.Watches kind name → (c.meet i).printed = c.printed ++
      [.line ("watch #" ++ toString (is.countP Input.isWatch + 1) ++
        " refreshes at the next pause")]) ∧
    (∀ e, e ∈ r.live ↔ Since (fun earlier i => i.Watches e.kind e.name ∧
      e.number = earlier.countP Input.isWatch + 1) (fun i => i.Unwatches e.number) is) ∧
    (∀ number, i.Unwatches number → (∀ e ∈ r.live, e.number ≠ number) →
      c.meet i = c.print ("no watch #" ++ toString number)) ∧
    c.Tabled r ∧
    (∀ p ∈ now, ∀ pause, p.Accepts pause →
      p.requests.map (·.errand) = r.live.map Interest.errand) ∧
    (∃ more, (c.meet i).printed = c.printed ++ more ∧
      more.filterMap Printed.notice? = now.flatMap Play.told) ∧
    (∀ past p rest, now = past ++ p :: rest → ∀ n ∈ p.told, ∀ number title,
      n.asker? = some (.watch number title) →
        ∃ e ∈ r.live, e.asker = .watch number title ∧ ∃ w reply, e.Stands w ∧
          p.FirstReply (fresh.plays is ++ past) w reply ∧
          n = (Callback.snapshot e.kind e.asker).notice reply) ∧
    ∀ earlier ended later number, is = earlier ++ ended :: later → ended.Unwatches number →
      number ≤ earlier.countP Input.isWatch →
      ∀ p ∈ now, ∀ n ∈ p.told, ∀ title, n.asker? ≠ some (.watch number title) := by
  intro fresh c r now
  have fresh_settled : fresh.Settled := settled_new config endpoint
  have settled : c.Settled := fresh_settled.run is
  have count : is.countP Input.isWatch < UInt32.size := by
    rw [List.countP_append] at fits
    omega
  have tabled : c.Tabled r := tabled_run config endpoint count
  have awaited : Session.Awaited (fresh.plays is) c.session :=
    fresh_settled.awaited (awaited_new config endpoint) is
  have ours : ∀ q ∈ fresh.plays is, Ours q :=
    fresh_settled.forall_plays (fun _ _ h _ mem => h.ours mem) is
  have told {past rest : List (Play Asker)} {p : Play Asker} (split : now = past ++ p :: rest)
      {n : Notice Asker} (inside : n ∈ p.told) {number : Nat} {title : String}
      (named : n.asker? = some (.watch number title)) :=
    tabled.told settled awaited ours split inside named
  refine ⟨?_, fun e => mem_roster, ?_, tabled, ?_, settled.notices_meet i,
    fun past p rest split n inside number title named => told split inside named, ?_⟩
  · rintro kind name ⟨files, dial, rfl⟩
    have number : c.nextWatch.toNat = is.countP Input.isWatch + 1 := by
      rw [← made_roster]
      apply tabled.number
      rw [made_roster]
      rwa [List.countP_append, List.countP_singleton] at fits
    rw [settled.printed_watch, number]
  · rintro number ⟨id, files, dial, rfl, rfl⟩ absent
    exact meet_of_absent ((tabled.lookup_eq_none_iff id).2 absent) files dial
  · intro p mem pause accepts
    obtain ⟨pairs, listed, watched, -, stands⟩ := tabled.table
    rw [Play.errands_of_accepts (settled.ours mem).consistent accepts,
      settled.watches_of_play mem, watched, listed, List.map_map, List.map_map]
    refine List.map_congr_left fun pair inside => ?_
    have stands := stands pair inside
    show Errand.query pair.2.kind pair.2.name = .query pair.1.kind pair.1.name
    rw [stands.kind, stands.name]
  · rintro earlier ended later number rfl ends made p mem n inside title named
    obtain ⟨past, rest, split⟩ := List.append_of_mem mem
    obtain ⟨e, live, same, -⟩ := told split inside named
    cases same
    exact ne_of_unwatched ends made e live rfl

/-- The second of three watches is ended. On a second link the third one is queried again, and the
first reply to that is told. -/
theorem watches_kept_second_link :
    let dial : Endpoint → Link := fun _ => .withBudget none
    let command (c : Command) : Input := .command c default dial
    let pauses : List Input :=
      [command (.connect none), .arrive [.message (.hello "demo"), .message (.paused default)],
        .pump]
    let is : List Input := [command (.watch .texture default), command (.watch .buffer default),
      command (.watch .texture default), command (.unwatch 2)] ++ pauses ++ pauses ++
        [.arrive [.message (.reply (.failure 4 "no such object"))]]
    let fresh := new Config.standard default
    let c := fresh.run is
    let p : Play Asker := ⟨c.session, .next⟩
    (is ++ [Input.pump]).countP Input.isWatch = 3 ∧ (roster is).live.map (·.number) = [1, 3] ∧
      c.watches = [(1, 1), (3, 3)] ∧ c.session.plays (c.turns .pump) = [p] ∧
      ∃ e ∈ (roster is).live, e.number = 3 ∧ p.told.map Notice.asker? = [some e.asker] ∧
        ∃ w reply, e.Stands w ∧ p.FirstReply (fresh.plays is) w reply := by
  intro dial command pauses is fresh c p
  have fits : (is ++ [Input.pump]).countP Input.isWatch < UInt32.size := by decide
  obtain ⟨-, -, -, -, -, -, told, -⟩ := watches_kept Config.standard default is .pump fits
  have single : c.session.plays (c.turns .pump) = [p] := by
    have one : c.session.pump.1 = 1 := by decide +kernel
    rw [turns, one]
    rfl
  let title := ObjectKind.texture.name ++ " " ++ (default : ObjectName).render
  have named : p.told.map Notice.asker? = [some (.watch 3 title)] := by decide +kernel
  obtain ⟨n, inside, asker⟩ : ∃ n ∈ p.told, n.asker? = some (.watch 3 title) := by
    rw [← List.mem_map, named]
    exact List.mem_cons_self
  obtain ⟨e, live, same, w, reply, stands, first, -⟩ := told [] p [] single n inside 3 title asker
  rw [List.append_nil] at first
  refine ⟨by decide, by decide, by decide +kernel, single, e, live, ?_, ?_, w, reply, stands,
    first⟩
  · exact (Asker.watch.inj same).1
  · rw [named, same]

/-- Numbers are words and go round: the watch after `2 ^ 32 - 1` others is printed with the number
0, and the one after it with the number of the first watch. And a number that is ended before it is
given out ends nothing: the watch that gets it is told of. -/
theorem watches_kept_gone_round :
    let dial : Endpoint → Link := fun _ => .withBudget none
    let command (c : Command) : Input := .command c default dial
    let watch := command (.watch .texture default)
    let fresh := new Config.standard default
    let others (n : Nat) := List.replicate n watch
    let line (number : Nat) :=
      Printed.line ("watch #" ++ toString number ++ " refreshes at the next pause")
    let is : List Input := [command (.unwatch 1), watch, command (.connect none),
      .arrive [.message (.hello "demo"), .message (.paused default)], .pump,
      .arrive [.message (.reply (.failure 1 "no such object"))]]
    ((fresh.run [watch]).printed = fresh.printed ++ [line 1] ∧
      (fresh.run (others (UInt32.size - 1) ++ [watch])).printed =
        (fresh.run (others (UInt32.size - 1))).printed ++ [line 0] ∧
      (fresh.run (others UInt32.size ++ [watch])).printed =
        (fresh.run (others UInt32.size)).printed ++ [line 1]) ∧
    (command (.unwatch 1)).Unwatches 1 ∧
      (fresh.run (is ++ [.pump])).printed.flatMap Printed.lines =
        (fresh.run is).printed.flatMap Printed.lines ++
          ["watch #1 texture 0x0:0: error: no such object"] := by
  intro dial command watch fresh others line is
  have settled : fresh.Settled := settled_new Config.standard default
  have printed {n number : Nat} (word : (UInt32.ofNat (n + 1)).toNat = number) :
      (fresh.run (others n ++ [watch])).printed =
        (fresh.run (others n)).printed ++ [line number] := by
    have count : (others n).countP Input.isWatch = n := List.countP_replicate
    have next : (fresh.run (others n)).nextWatch = .ofNat (n + 1) := by rw [nextWatch_run, count]
    rw [run_append, ← word, ← next]
    exact (settled.run (others n)).printed_watch .texture default default dial
  refine ⟨⟨?_, printed (by decide), printed (by decide)⟩, ⟨1, default, dial, rfl, rfl⟩,
    by decide +kernel⟩
  exact printed (n := 0) rfl

end Console

end CallDebugger
