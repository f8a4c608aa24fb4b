import CallDebugger.Console.Basic
import CallDebugger.Proofs.Session.Endings

/-!
# What a console does with its session

Whatever happens to a console, its session takes turns (`Console.turns`): one for most commands, and
one for each event that is handled. What the session tells in them is printed, and lines after it
(`Console.Settled.meets`). So a run of the console is a run of its session, whose log is emptied now
and then (`Console.plays`).
-/

namespace CallDebugger

namespace Session

theorem turn_of_mem_plays {ι : Type} {s : Session ι} {ts : List (Turn ι)} {p : Play ι}
    (mem : p ∈ s.plays ts) : p.turn ∈ ts := by
  induction ts generalizing s with
  | nil => nomatch mem
  | cons t ts ih =>
    rcases List.mem_cons.1 mem with rfl | mem
    · exact List.mem_cons_self
    · exact List.mem_cons_of_mem t (ih mem)

end Session

/-- The notice that is printed. -/
def Printed.notice? : Printed → Option (Notice Asker)
  | notice n => some n
  | line _ => none

namespace Console

/-- What may happen to a console. -/
inductive Input where
  | command (command : Command) (files : Files) (dial : Endpoint → Link)
  /-- Events arrive on the link. -/
  | arrive (events : List LinkEvent)
  /-- What has arrived is handled. -/
  | pump

/-- The console after something has happened. -/
def meet (c : Console) : Input → Console
  | .command command files dial => (c.execute files dial command).2
  | .arrive events => c.arrive events
  | .pump => c.pump.2

/-- The console after a run, the first input first. -/
def run (c : Console) (is : List Input) : Console := is.foldl meet c

/-- A console that waits for input has printed everything that its session has told. -/
structure Settled (c : Console) : Prop where
  consistent : c.session.Consistent
  log : c.session.log = []

/-- The turn of its session that a command comes to, if it comes to one. -/
def turn? (c : Console) (files : Files) (dial : Endpoint → Link) : Command → Option (Turn Asker)
  | .goOn => some .goOn
  | .step mode => some (.step mode)
  | .interrupt => some .interrupt
  | .setBreakpoints entrypoints => some (.setBreakpoints entrypoints)
  | .setFlags flags =>
    some (.configure (flags.foldl (fun s (f, on) => f.apply on s) c.session.settings))
  | .trace window => some (.queryTrace (window.getD c.nextPage.1))
  | .watch kind name =>
    some (.subscribe name kind (.watch c.nextWatch.toNat (kind.name ++ " " ++ name.render)))
  | .unwatch id => (c.watches.lookup id).map .unsubscribe
  | .editShader context shader source =>
    let title := "edit shader " ++ toString shader.toNat
    match source with
    | .supplied => some (.request c.handler (.editShader ⟨context, shader, true, none⟩)
        (.errand title))
    | .file path =>
      match files.read ⟨path⟩ with
      | .error _ => none
      | .ok text => some (.request c.handler (.editShader ⟨context, shader, false, some text⟩)
          (.errand title))
  | .link context program =>
    some (.request c.handler (.relink context program)
      (.errand ("link program " ++ toString program.toNat)))
  | .connect none => some (.connect c.endpoint (dial c.endpoint))
  | .connect (some text) =>
    match Endpoint.read text with
    | .error _ => none
    | .ok endpoint => some (.connect endpoint (dial endpoint))
  | .terminate => some .terminate
  | .disconnect => some .disconnect
  | .showBreakpoints | .showSettings | .help | .quit => none

/-- The turns that the session takes when something happens to the console. -/
def turns (c : Console) : Input → List (Turn Asker)
  | .command command files dial => (c.turn? files dial command).toList
  | .arrive events => [.arrive events]
  | .pump => .replicate c.session.pump.1 .next

/-- The plays of the session in a run of the console. -/
def plays (c : Console) : List Input → List (Play Asker)
  | [] => []
  | i :: is => c.session.plays (c.turns i) ++ (c.meet i).plays is

/-- From `c` to `c'` the session takes turns. What it tells in them is printed, and then lines. -/
structure Meets (c : Console) (ts : List (Turn Asker)) (c' : Console) : Prop where
  session : c'.session = { c.session.run ts with log := [] }
  printed : ∃ texts : List String,
    c'.printed = c.printed ++ ((c.session.run ts).log.map .notice ++ texts.map .line)

variable {c c' c'' : Console}

/-! ## Commands -/

theorem foldl_print (c : Console) (texts : List String) :
    texts.foldl print c = { c with printed := c.printed ++ texts.map .line } := by
  induction texts generalizing c with
  | nil => rw [List.map_nil, List.append_nil, List.foldl_nil]
  | cons text texts ih =>
    rw [List.foldl_cons, ih, print, List.append_assoc]
    rfl

/-- Lines may be printed, and whatever else a console keeps may change. -/
theorem Settled.meets_none (h : c.Settled) (texts : List String) (session : c'.session = c.session)
    (printed : c'.printed = c.printed ++ texts.map .line) : c.Meets [] c' := by
  have quiet : (c.session.run []).log = [] := h.log
  refine ⟨?_, texts, ?_⟩
  · rw [session, ← h.log]
    rfl
  · rw [printed, quiet]
    rfl

theorem meets_one (t : Turn Asker) (texts : List String)
    (session : c'.session = { c.session.after t with log := [] })
    (printed : c'.printed =
      c.printed ++ ((c.session.after t).log.map .notice ++ texts.map .line)) :
    c.Meets [t] c' :=
  ⟨session, texts, printed⟩

theorem meets_turn (t : Turn Asker)
    (session : c'.session = { c.session.after t with log := [] })
    (printed : c'.printed = c.printed ++ (c.session.after t).log.map .notice) : c.Meets [t] c' :=
  meets_one t [] session (by rw [List.map_nil, List.append_nil]; exact printed)

/-- A command comes to its turn. -/
theorem Settled.meets_execute (h : c.Settled) (files : Files) (dial : Endpoint → Link)
    (command : Command) :
    c.Meets (c.turn? files dial command).toList (c.execute files dial command).2 := by
  cases command with
  | goOn => exact meets_turn .goOn rfl rfl
  | step mode => exact meets_turn (.step mode) rfl rfl
  | interrupt => exact meets_turn .interrupt rfl rfl
  | showBreakpoints | showSettings => exact h.meets_none [_] rfl rfl
  | setBreakpoints entrypoints => exact meets_turn (.setBreakpoints entrypoints) rfl rfl
  | setFlags flags => exact meets_turn (.configure _) rfl rfl
  | trace window =>
    cases window with
    | some window => exact meets_turn (.queryTrace window) rfl rfl
    | none => exact meets_turn (.queryTrace c.nextPage.1) rfl rfl
  | watch kind name => exact meets_one (.subscribe name kind _) [_] rfl (List.append_assoc _ _ _)
  | unwatch id =>
    simp only [turn?, execute, unwatch]
    cases c.watches.lookup id with
    | none => exact h.meets_none [_] rfl rfl
    | some watch => exact meets_turn (.unsubscribe watch) rfl rfl
  | editShader context shader source =>
    cases source with
    | supplied => exact meets_turn (.request _ _ _) rfl rfl
    | file path =>
      simp only [turn?, execute, editShader]
      cases files.read ⟨path⟩ with
      | error => exact h.meets_none [_] rfl rfl
      | ok => exact meets_turn (.request _ _ _) rfl rfl
  | link context program => exact meets_turn (.request _ _ _) rfl rfl
  | connect endpoint =>
    cases endpoint with
    | none => exact meets_turn (.connect _ _) rfl rfl
    | some text =>
      simp only [turn?, execute, connect]
      cases Endpoint.read text with
      | error => exact h.meets_none [_] rfl rfl
      | ok => exact meets_turn (.connect _ _) rfl rfl
  | terminate => exact meets_turn .terminate rfl rfl
  | disconnect => exact meets_turn .disconnect rfl rfl
  | help =>
    simp only [turn?, execute, done, foldl_print]
    exact h.meets_none Command.helpLines rfl rfl
  | quit => exact h.meets_none [] rfl (List.append_nil _).symm

/-! ## Inputs -/

/-- Whatever happens, the session takes its turns. -/
theorem Settled.meets (h : c.Settled) (i : Input) : c.Meets (c.turns i) (c.meet i) := by
  cases i with
  | command command files dial => exact h.meets_execute files dial command
  | arrive events =>
    have quiet : (c.session.after (.arrive events)).log = [] := h.log
    refine meets_one (.arrive events) [] ?_ ?_
    · rw [← quiet]
      rfl
    · rw [quiet]
      exact (List.append_nil _).symm
  | pump =>
    refine ⟨?_, [], ?_⟩
    · rw [turns, ← Session.pump_eq_run]
      rfl
    · rw [turns, ← Session.pump_eq_run, List.map_nil, List.append_nil]
      rfl

theorem Settled.meet (h : c.Settled) (i : Input) : (c.meet i).Settled := by
  have session := (h.meets i).session
  constructor
  · rw [session]
    exact (h.consistent.run _).log []
  · rw [session]

/-- The notices that are printed are those that the session tells in its plays. -/
theorem Settled.notices_meet (h : c.Settled) (i : Input) :
    ∃ more, (c.meet i).printed = c.printed ++ more ∧
      more.filterMap Printed.notice? = (c.session.plays (c.turns i)).flatMap Play.told := by
  obtain ⟨texts, printed⟩ := (h.meets i).printed
  refine ⟨_, printed, ?_⟩
  have notices (ns : List (Notice Asker)) :
      (ns.map Printed.notice).filterMap Printed.notice? = ns := by
    rw [List.filterMap_map]
    exact List.filterMap_some
  have lines : (texts.map Printed.line).filterMap Printed.notice? = [] := by
    simp [List.filterMap_eq_nil_iff, Printed.notice?]
  rw [List.filterMap_append, notices, lines, List.append_nil, h.consistent.log_run, h.log,
    List.nil_append]

/-- Whether an input changes nothing of what the console keeps for pages and for watches. -/
def Input.isPlain : Input → Bool
  | .command (.watch ..) .. | .command (.unwatch _) .. | .command (.trace none) .. => false
  | _ => true

theorem meet_plain {i : Input} (plain : i.isPlain = true) :
    ∃ session endpoint printed, c.meet i = { c with session, endpoint, printed } := by
  cases i with
  | arrive | pump => exact ⟨_, _, _, rfl⟩
  | command command files dial =>
    simp only [Console.meet]
    cases command with
    | watch | unwatch => nomatch plain
    | trace window =>
      cases window with
      | none => nomatch plain
      | some window => exact ⟨_, _, _, rfl⟩
    | editShader context shader source =>
      cases source with
      | supplied => exact ⟨_, _, _, rfl⟩
      | file path =>
        simp only [execute, editShader]
        split <;> exact ⟨_, _, _, rfl⟩
    | connect endpoint =>
      cases endpoint with
      | none => exact ⟨_, _, _, rfl⟩
      | some text =>
        simp only [execute, connect]
        split <;> exact ⟨_, _, _, rfl⟩
    | help =>
      simp only [execute, done, foldl_print]
      exact ⟨_, _, _, rfl⟩
    | _ => exact ⟨_, _, _, rfl⟩

/-! ## Runs -/

theorem settled_new (config : Config) (endpoint : Endpoint) : (new config endpoint).Settled :=
  ⟨((Session.consistent_new.after (.setBreakpoints config.breakpoints)).after
    (.configure config.breaks)).after .register, rfl⟩

theorem Settled.run (h : c.Settled) (is : List Input) : (c.run is).Settled := by
  induction is generalizing c with
  | nil => exact h
  | cons i is ih => exact ih (h.meet i)

/-- What holds of the plays of every input holds of the plays of a run. -/
theorem Settled.forall_plays {P : Play Asker → Prop} (h : c.Settled)
    (each : ∀ (c : Console) (i : Input), c.Settled → ∀ p ∈ c.session.plays (c.turns i), P p)
    (is : List Input) : ∀ p ∈ c.plays is, P p := by
  induction is generalizing c with
  | nil => exact fun p mem => nomatch mem
  | cons i is ih =>
    intro p mem
    rcases List.mem_append.1 mem with mem | mem
    · exact each c i h p mem
    · exact ih (h.meet i) p mem

theorem run_append (c : Console) (is js : List Input) : c.run (is ++ js) = (c.run is).run js :=
  List.foldl_append

end Console

end CallDebugger
