import CallDebugger.Proofs.Console.Turns
import CallDebugger.Proofs.Session.Pauses

/-!
# Pages of the history

A console asks for the history page by page, and starts again when the process has paused. It tells
that by the length of the history that the last pause reported (`Console.nextPage`), which is read
off the marks that the run has left (`Console.report_run`). So a page follows the one that was asked
for before it, or it starts at the newest call if the length has changed (`Console.pages_follow`).
-/

namespace CallDebugger

/-- The pause that is printed. -/
def Printed.pause? : Printed → Option Pause
  | notice n => n.pause?
  | line _ => none

namespace Console

/-- A command that asks for the next page. -/
def Input.IsPage (i : Input) : Prop := ∃ files dial, i = .command (.trace none) files dial

/-- The marks that are left from `c` to `c'`: the pauses printed, and then the end of the link. -/
def marks (c c' : Console) : List Mark :=
  ((c'.printed.drop c.printed.length).filterMap Printed.pause?).map .paused ++
    if c.session.retired.length < c'.session.retired.length then [.cut] else []

/-- The marks that a run leaves, the first one first. -/
def trail (c : Console) : List Input → List Mark
  | [] => []
  | i :: is => c.marks (c.meet i) ++ (c.meet i).trail is

/-- How long the history is, by the last pause that the session keeps. -/
def report (c : Console) : Option UInt64 := c.session.lastBreak.map (·.traceSize)

/-! ## What an input does to the session -/

/-- From `c` to `c'` more was printed, and the pause that is kept is the one that the marks say. -/
structure Moved (c c' : Console) : Prop where
  settled : c'.Settled
  printed : c.printed <+: c'.printed
  lastBreak : c'.session.lastBreak = Mark.kept c.session.lastBreak (c.marks c')

variable {c c' c'' : Console}

theorem marks_of_printed {more : List Printed} (printed : c'.printed = c.printed ++ more) :
    c.marks c' = (more.filterMap Printed.pause?).map .paused ++
      if c.session.retired.length < c'.session.retired.length then [.cut] else [] := by
  rw [marks, printed, List.drop_left]

/-- Lines leave no marks. -/
theorem Moved.lines (h : c.Moved c') (texts : List String) (session : c''.session = c'.session)
    (printed : c''.printed = c'.printed ++ texts.map .line) : c.Moved c'' := by
  obtain ⟨more, before⟩ := h.printed
  have whole : c''.printed = c.printed ++ (more ++ texts.map .line) := by
    rw [printed, ← before, List.append_assoc]
  have silent : (texts.map Printed.line).filterMap Printed.pause? = [] := by
    simp [List.filterMap_eq_nil_iff, Printed.pause?]
  have marks : c.marks c'' = c.marks c' := by
    rw [marks_of_printed whole, marks_of_printed before.symm, List.filterMap_append, silent,
      List.append_nil, session]
  refine ⟨⟨session ▸ h.settled.consistent, session ▸ h.settled.log⟩, ⟨_, whole.symm⟩, ?_⟩
  rw [session, marks]
  exact h.lastBreak

/-- What the session has told is printed. -/
theorem moved_withSession (h : c.Settled) {s : Session Asker} (consistent : s.Consistent)
    (passage : c.session.Passage s) : c.Moved (c.withSession s) := by
  have told : (c.withSession s).printed = c.printed ++ s.log.map .notice := rfl
  have notices : (s.log.map .notice).filterMap Printed.pause? = s.log.filterMap Notice.pause? := by
    rw [List.filterMap_map]
    rfl
  have same : c.marks (c.withSession s) = c.session.marks s := by
    rw [marks_of_printed told, notices, Session.marks, h.log]
    rfl
  refine ⟨⟨consistent.log [], rfl⟩, ⟨_, told.symm⟩, ?_⟩
  rw [same]
  exact passage.lastBreak

/-- The turns of an input leave their marks in the session. -/
theorem passage_turns (h : c.Settled) (i : Input) :
    c.session.Passage (c.session.run (c.turns i)) := by
  cases i with
  | command command files dial =>
    simp only [turns]
    cases c.turn? files dial command with
    | none => exact .refl c.session
    | some t => exact h.consistent.passage_after t
  | arrive events => exact h.consistent.passage_after (.arrive events)
  | pump => exact h.consistent.passage_nexts _

/-- Every input leaves its marks. -/
theorem moved_meet (h : c.Settled) (i : Input) : c.Moved (c.meet i) := by
  have meets := h.meets i
  obtain ⟨texts, printed⟩ := meets.printed
  have told := moved_withSession h (h.consistent.run _) (passage_turns h i)
  refine told.lines texts meets.session ?_
  rw [printed, ← List.append_assoc]
  rfl

/-! ## Runs -/

/-- The pause that is kept after a run is the one that its marks say. -/
theorem lastBreak_run (h : c.Settled) (is : List Input) :
    (c.run is).Settled ∧
      (c.run is).session.lastBreak = Mark.kept c.session.lastBreak (c.trail is) := by
  induction is generalizing c with
  | nil => exact ⟨h, rfl⟩
  | cons i is ih =>
    have first := moved_meet h i
    obtain ⟨settled, later⟩ := ih first.settled
    refine ⟨settled, ?_⟩
    rw [trail, Mark.kept_append, ← first.lastBreak]
    exact later

/-- Only a command that asks for the next page moves on. -/
theorem place_meet {i : Input} (other : ¬ i.IsPage) :
    (c.meet i).cursor = c.cursor ∧ (c.meet i).cursorBreak = c.cursorBreak ∧
      (c.meet i).pageSize = c.pageSize := by
  by_cases plain : i.isPlain = true
  · obtain ⟨session, endpoint, printed, met⟩ := meet_plain (c := c) plain
    rw [met]
    exact ⟨rfl, rfl, rfl⟩
  · cases i with
    | command command files dial =>
      cases command with
      | watch => exact ⟨rfl, rfl, rfl⟩
      | unwatch id =>
        simp only [meet, execute, unwatch]
        split <;> exact ⟨rfl, rfl, rfl⟩
      | trace window =>
        cases window with
        | none => exact absurd ⟨files, dial, rfl⟩ other
        | some window => exact absurd rfl plain
      | _ => exact absurd rfl plain
    | arrive | pump => exact absurd rfl plain

theorem place_run {is : List Input} (others : ∀ i ∈ is, ¬ i.IsPage) :
    (c.run is).cursor = c.cursor ∧ (c.run is).cursorBreak = c.cursorBreak ∧
      (c.run is).pageSize = c.pageSize := by
  induction is generalizing c with
  | nil => exact ⟨rfl, rfl, rfl⟩
  | cons i is ih =>
    obtain ⟨cursor, cursorBreak, pageSize⟩ := place_meet (c := c) (others i List.mem_cons_self)
    have later := ih (c := c.meet i) fun j hj => others j (List.mem_cons_of_mem i hj)
    rwa [cursor, cursorBreak, pageSize] at later

/-! ## Pages -/

/-- The next page starts at the cursor, unless the reported length is another one. -/
theorem start_nextPage (c : Console) :
    c.nextPage.1.start = if c.report = c.cursorBreak then c.cursor else 0 := rfl

/-- A page is moved on to whatever comes of the command. -/
theorem place_page {i : Input} (page : i.IsPage) :
    (c.meet i).cursor = c.nextPage.1.stop ∧ (c.meet i).cursorBreak = c.report ∧
      (c.meet i).pageSize = c.pageSize := by
  obtain ⟨files, dial, rfl⟩ := page
  exact ⟨rfl, rfl, rfl⟩

theorem pageSize_run (c : Console) (is : List Input) : (c.run is).pageSize = c.pageSize := by
  induction is generalizing c with
  | nil => rfl
  | cons i is ih =>
    have first : (c.meet i).pageSize = c.pageSize := by
      by_cases page : i.IsPage
      · exact (place_page page).2.2
      · exact (place_meet page).2.2
    exact (ih (c.meet i)).trans first

/-- A page that does not reach the end of the numbers is as long as it should be. -/
theorem length_nextPage (forward : ¬ c.nextPage.1.stop < c.nextPage.1.start) :
    c.nextPage.1.stop.toNat = c.nextPage.1.start.toNat + c.pageSize.toNat := by
  have sum : c.nextPage.1.stop = c.nextPage.1.start + c.pageSize := rfl
  rw [UInt64.lt_iff_toNat_lt, sum, UInt64.toNat_add] at forward
  rw [sum, UInt64.toNat_add]
  have := c.nextPage.1.start.toNat_lt
  have := c.pageSize.toNat_lt
  omega

theorem sent_eq (c : Console) : c.sent = (c.session.link.map Link.sent).getD [] := by
  unfold sent
  cases c.session.link <;> rfl

/-- What comes of a query. -/
theorem queryTrace_cases {s : Session Asker} (h : s.Consistent) (w : TraceWindow) :
    ((s.queryTrace w).1 = .ok () ∧ ¬ w.stop < w.start ∧ ∃ sent, s.link.map Link.sent = some sent ∧
        (s.queryTrace w).2.link.map Link.sent = some (sent ++ [.queryTrace w])) ∨
      (∃ e, (s.queryTrace w).1 = .error e) ∧
        (s.queryTrace w).2.link.map Link.sent = s.link.map Link.sent := by
  by_cases connected : s.isConnected = true
  · obtain ⟨l, linked⟩ := h.tied.link connected
    unfold Session.queryTrace
    rw [Session.demandConnected_of connected]
    by_cases backward : w.stop < w.start
    · rw [if_pos backward]
      exact .inr ⟨⟨_, rfl⟩, rfl⟩
    · rw [if_neg backward]
      rcases sent : l.send (.queryTrace w) with ⟨e | ⟨⟨⟩⟩, l'⟩
      · rw [Session.send_of_error linked sent, linked]
        exact .inr ⟨⟨_, rfl⟩, congrArg some (Link.sent_send_error sent)⟩
      · rw [Session.send_of_ok linked sent, linked]
        exact .inl ⟨rfl, backward, l.sent, rfl, congrArg some (Link.sent_send_ok sent).1⟩
  · unfold Session.queryTrace
    rw [Session.demandConnected_of_not connected]
    exact .inr ⟨⟨_, rfl⟩, rfl⟩

/-- Asking for the next page sends that query, or it fails and sends nothing. -/
theorem trace_none (h : c.Settled) :
    ((c.trace none).1 = .ok .goOn ∧
        c.nextPage.1.stop.toNat = c.nextPage.1.start.toNat + c.pageSize.toNat ∧
        (c.trace none).2.sent = c.sent ++ [.queryTrace c.nextPage.1]) ∨
      (∃ e, (c.trace none).1 = .error e) ∧ (c.trace none).2.sent = c.sent := by
  have result : (c.trace none).1 = (c.session.queryTrace c.nextPage.1).1.map fun _ => .goOn := rfl
  have link : (c.trace none).2.session.link = (c.session.queryTrace c.nextPage.1).2.link := rfl
  rw [result, sent_eq, sent_eq, link]
  rcases queryTrace_cases h.consistent c.nextPage.1 with
    ⟨ok, forward, sent, before, after⟩ | ⟨⟨e, failure⟩, same⟩
  · rw [ok, before, after]
    exact .inl ⟨rfl, length_nextPage forward, rfl⟩
  · rw [failure, same]
    exact .inr ⟨⟨e, rfl⟩, rfl⟩

theorem lastBreak_queryTrace (s : Session Asker) (w : TraceWindow) :
    (s.queryTrace w).2.lastBreak = s.lastBreak := by
  unfold Session.queryTrace Session.send
  split
  · rfl
  split
  · rfl
  split
  · rfl
  split <;> rfl

/-- How long the history is after a run that leaves these marks, as far as the console was told. -/
def told (ms : List Mark) : Option UInt64 := (Mark.kept none ms).map (·.traceSize)

theorem report_run (config : Config) (endpoint : Endpoint) (is : List Input) :
    ((new config endpoint).run is).report = told ((new config endpoint).trail is) := by
  rw [report, (lastBreak_run (settled_new config endpoint) is).2]
  rfl

/-- A page starts behind the one before it, if the history is as long as it was then. -/
theorem start_after_page (h : c.Settled) {page : Input} (asked : page.IsPage) {later : List Input}
    (others : ∀ i ∈ later, ¬ i.IsPage) :
    ((c.meet page).run later).nextPage.1.start =
      if (Mark.kept c.session.lastBreak ((c.meet page).trail later)).map (·.traceSize) = c.report
      then c.nextPage.1.stop else 0 := by
  obtain ⟨cursor, cursorBreak, -⟩ := place_page (c := c) asked
  obtain ⟨cursor', cursorBreak', -⟩ := place_run (c := c.meet page) others
  have kept : (c.meet page).session.lastBreak = c.session.lastBreak := by
    obtain ⟨files, dial, rfl⟩ := asked
    exact lastBreak_queryTrace c.session c.nextPage.1
  have run := (lastBreak_run (moved_meet h page).settled later).2
  rw [start_nextPage, report, run, kept, cursor', cursorBreak', cursor, cursorBreak]

/-- **Pages follow one another.** Whatever has happened to a console, asking for the next page sends
a query for a window of as many calls as a page has, or fails and sends nothing.

The first page starts at the newest call. A later one starts where the page before it stopped, which
was moved on to even if asking for it failed, as long as no pause was printed and no link given up
since. After that it is the last of these that counts: if the history is, by what was reported, as
long as it was when the page before was asked for, the page still starts where that one stopped; and
if it is not, at the newest call. -/
theorem pages_follow (config : Config) (endpoint : Endpoint) (is : List Input) :
    let fresh := new config endpoint
    let c := fresh.run is
    let window := c.nextPage.1
    (((c.trace none).1 = .ok .goOn ∧
          window.stop.toNat = window.start.toNat + config.pageSize.toNat ∧
          (c.trace none).2.sent = c.sent ++ [.queryTrace window]) ∨
        (∃ e, (c.trace none).1 = .error e) ∧ (c.trace none).2.sent = c.sent) ∧
      ((∀ i ∈ is, ¬ i.IsPage) → window.start = 0) ∧
      ∀ earlier page later, is = earlier ++ page :: later → page.IsPage →
        (∀ i ∈ later, ¬ i.IsPage) →
        let before := fresh.run earlier
        let since := (before.meet page).trail later
        (since = [] → window.start = before.nextPage.1.stop) ∧
          ∀ last, since.getLast? = some last →
            window.start = if last.pause?.map (·.traceSize) = told (fresh.trail earlier)
              then before.nextPage.1.stop else 0 := by
  intro fresh c window
  have settled : fresh.Settled := settled_new config endpoint
  have run := lastBreak_run settled is
  refine ⟨?_, fun none => ?_, fun earlier page later split asked others => ?_⟩
  · have size : c.pageSize = config.pageSize := pageSize_run fresh is
    rw [← size]
    exact trace_none run.1
  · obtain ⟨cursor, -, -⟩ := place_run (c := fresh) none
    have start : c.cursor = 0 := cursor
    have first := start_nextPage c
    rw [start, ite_self] at first
    exact first
  · intro before since
    have whole : c = (before.meet page).run later := by
      rw [show c = fresh.run is from rfl, split]
      exact List.foldl_append
    have start := start_after_page (lastBreak_run settled earlier).1 asked others
    rw [← whole, report_run] at start
    constructor
    · intro none
      have same : (Mark.kept before.session.lastBreak since).map (·.traceSize) =
          told (fresh.trail earlier) := by
        rw [none]
        exact report_run config endpoint earlier
      exact start.trans (if_pos same)
    · intro last shape
      have kept : Mark.kept before.session.lastBreak since = last.pause? := by
        rw [Mark.kept, shape]
        rfl
      rw [← kept]
      exact start

/-- A pause with a history of the same length is not noticed, so the second page starts at the third
call. A page that could not be asked for was moved on to. -/
theorem pages_follow_full_history :
    let config : Config := { Config.standard with pageSize := 2 }
    let dial : Endpoint → Link := fun _ => .withBudget none
    let page : Input := .command (.trace none) default dial
    let connect : Input := .command (.connect none) default dial
    let pause : Pause := { (default : Pause) with traceSize := 5 }
    let greets : List Input := [.arrive [.message (.hello "demo")], .pump]
    let pauses : List Input := [.arrive [.message (.paused pause)], .pump]
    let full := (new config default).run
      (connect :: greets ++ pauses ++ page :: .command .goOn default dial :: pauses)
    let early := (new config default).run ([connect] ++ page :: greets)
    (full.nextPage.1.start = 2 ∧ (full.trace none).1.toOption = some .goOn) ∧
      (((new config default).run [connect]).trace none).1.toOption = none ∧
      early.nextPage.1.start = 2 ∧ (early.trace none).1.toOption = some .goOn := by
  intro config dial page connect pause greets pauses full early
  have asked : page.IsPage := ⟨default, dial, rfl⟩
  have others : ∀ i ∈ .command .goOn default dial :: pauses, ¬ i.IsPage := by
    rintro i mem ⟨files, dial', same⟩
    subst same
    simp [pauses] at mem
  have others' : ∀ i ∈ greets, ¬ i.IsPage := by
    rintro i mem ⟨files, dial', same⟩
    subst same
    simp [greets] at mem
  constructor
  · have law := (pages_follow config default _).2.2 (connect :: greets ++ pauses) page
      (.command .goOn default dial :: pauses) rfl asked others
    have since : ((((new config default).run (connect :: greets ++ pauses)).meet page).trail
        (.command .goOn default dial :: pauses)).getLast?.map
          (fun m => m.pause?.map (·.traceSize)) = some (some 5) := by decide +kernel
    have size : told ((new config default).trail (connect :: greets ++ pauses)) = some 5 := by
      decide +kernel
    have stop : ((new config default).run (connect :: greets ++ pauses)).nextPage.1.stop = 2 := by
      decide +kernel
    obtain ⟨last, mem, same⟩ := Option.map_eq_some_iff.1 since
    refine ⟨?_, by decide +kernel⟩
    rw [law.2 last mem, same, size, if_pos rfl, stop]
  · have law := (pages_follow config default _).2.2 [connect] page greets rfl asked others'
    have since :
        ((((new config default).run [connect]).meet page).trail greets).isEmpty = true := by
      decide +kernel
    have stop : ((new config default).run [connect]).nextPage.1.stop = 2 := by decide +kernel
    exact ⟨by decide +kernel, (law.1 (List.isEmpty_iff.1 since)).trans stop, by decide +kernel⟩

end Console

end CallDebugger
