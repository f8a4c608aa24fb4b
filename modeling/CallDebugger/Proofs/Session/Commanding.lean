import CallDebugger.Proofs.Session.Ahead
import CallDebugger.Proofs.Session.Settings

/-!
# Commands in and out of place

Each command that the owner has for the process is for certain phases (`Action.phases`). In another
phase it fails and nothing has happened; in these it makes one attempt to send its message, and
succeeds just if the link takes it (`Session.Obeyed`). A command that lets the process go on is for
a paused process, which is then no longer paused: on each link such messages alternate with pauses
(`Play.Licensed`).
-/

namespace CallDebugger

variable {ι : Type}

/-- The phases that an action is for. -/
def Action.phases : Action → List Phase
  | .goOn | .step => [.breaked]
  | .interrupt => [.running]
  | .acceptHello => [.connecting]
  | .terminate | .queryTrace | .sendRequest | .acceptBreak | .acceptTrace => [.running, .breaked]

theorem Action.ne_disconnected {a : Action} {phase : Phase} (mem : phase ∈ a.phases) :
    phase ≠ .disconnected := by
  rintro rfl
  cases a <;> exact absurd mem (by decide)

namespace Turn

/-- The action that a command is, if it is for certain phases only. -/
def action? : Turn ι → Option Action
  | .goOn => some .goOn
  | .step _ => some .step
  | .interrupt => some .interrupt
  | .terminate => some .terminate
  | .queryTrace _ => some .queryTrace
  | .request .. => some .sendRequest
  | _ => none

/-- A query for a window that ends before it starts. -/
def Reversed (t : Turn ι) : Prop := ∃ window, t = .queryTrace window ∧ window.stop < window.start

end Turn

namespace Session

/-- What a command comes back with. -/
def response (s : Session ι) : Turn ι → Except SessionError Unit
  | .goOn => s.goOn.1
  | .step mode => (s.step mode).1
  | .interrupt => s.interrupt.1
  | .terminate => s.terminate.1
  | .setBreakpoints es => (s.setBreakpoints es).1
  | .configure settings => (s.configure settings).1
  | .queryTrace window => (s.queryTrace window).1
  | .request handler errand label => (s.request handler errand label).1.map fun _ => ()
  | _ => .ok ()

/-- A session `s'` differs from `s` in its link in use at most, and in the numbers used up. -/
structure Unmoved (s s' : Session ι) : Prop where
  phase : s'.phase = s.phase
  pending : s'.requests.pending = s.requests.pending
  watches : s'.watches = s.watches
  breakpoints : s'.breakpoints = s.breakpoints
  settings : s'.settings = s.settings
  synced : s'.synced = s.synced
  lastBreak : s'.lastBreak = s.lastBreak
  peerName : s'.peerName = s.peerName
  retired : s'.retired = s.retired
  log : s'.log = s.log

/-- How the command `t`, which is the action `a`, turns out. -/
structure Obeyed (s : Session ι) (t : Turn ι) (a : Action) : Prop where
  notConnected : s.response t = .error .notConnected ↔ s.phase = .disconnected
  invalidPhase : ∀ b phase, s.response t = .error (.invalidPhase b phase) ↔
    (b = a ∧ phase = s.phase) ∧ s.phase ≠ .disconnected ∧ s.phase ∉ a.phases
  invalidWindow : ∀ window, s.response t = .error (.invalidWindow window) ↔
    s.phase ∈ a.phases ∧ t = .queryTrace window ∧ window.stop < window.start
  /-- Where it is out of place, nothing is attempted. -/
  declined : s.phase ∉ a.phases ∨ t.Reversed → s.after t = s
  /-- Where it is in place, one message is offered once to a link that is up, and that is decisive. -/
  tried : s.phase ∈ a.phases → ¬ t.Reversed → ∃ l m, s.link = some l ∧ l.aborted = false ∧
    s.offers? t = some m ∧ (s.after t).link = some (l.send m).2 ∧
    (l.send m).2.attempts = l.attempts + 1 ∧ s.response t = (l.send m).1.mapError .link
  failed : ∀ e, s.response t = .error e →
    s.Unmoved (s.after t) ∧ ∀ i, (⟨s, t⟩ : Play ι).sentOn i = []
  succeeded : s.response t = .ok () →
    (∃ m, s.offers? t = some m ∧ ∀ i, (⟨s, t⟩ : Play ι).sentOn i =
      if i = s.retired.length then [m] else []) ∧
    (s.after t).phase = if a = .goOn ∨ a = .step then .running else s.phase

end Session

namespace Play

/-- After these plays the process is held: it has paused, and has not been sent anything since on
the link at a place that lets it go on. -/
def Held (ps : List (Play ι)) (i : Nat) : Prop :=
  ∃ before pause after, ps = before ++ pause :: after ∧ pause.Pauses i ∧
    ∀ q ∈ after, ∀ m ∈ q.sentOn i, m.releases = false

/-- A play sends a message that lets the process go on only to a process that is held, and then it
sends nothing else. -/
def Licensed (earlier : List (Play ι)) (i : Nat) (p : Play ι) : Prop :=
  ∀ m ∈ p.sentOn i, m.releases = true → p.sentOn i = [m] ∧ Held earlier i

end Play

namespace Session

variable {s s' : Session ι} {t : Turn ι} {a : Action} {l : Link} {m : Message}

/-! ## Commands -/

theorem isConnected_iff_mem : s.isConnected = true ↔ s.phase ∈ [Phase.running, .breaked] := by
  rw [isConnected_iff, Connected, List.mem_pair]

theorem isCommand_of_action (command : t.action? = some a) : t.isCommand = true := by
  cases t <;> first | rfl | nomatch command

/-- Out of place a command offers nothing. -/
theorem offers_of_misplaced (command : t.action? = some a) (out : s.phase ∉ a.phases) :
    s.offers? t = none ∧ s.response t = .error (s.misplaced a) := by
  cases t <;> cases command
  case goOn | step =>
    have out : s.phase ≠ .breaked := mt List.mem_singleton.2 out
    exact ⟨if_neg out, by simp only [response, goOn, step, resume, demand_of_ne out]⟩
  case interrupt =>
    have out : s.phase ≠ .running := mt List.mem_singleton.2 out
    exact ⟨if_neg out, by simp only [response, interrupt, demand_of_ne out]⟩
  case terminate =>
    have out := mt isConnected_iff_mem.1 out
    exact ⟨if_neg out, by simp only [response, terminate, demandConnected_of_not out]⟩
  case queryTrace =>
    have out := mt isConnected_iff_mem.1 out
    exact ⟨if_neg fun h => out h.1, by simp only [response, queryTrace, demandConnected_of_not out]⟩
  case request =>
    have out := mt isConnected_iff_mem.1 out
    exact ⟨if_neg out, by simp only [response, request, demandConnected_of_not out]; rfl⟩

/-- A query for a window that ends before it starts offers nothing. -/
theorem offers_of_reversed (connected : s.isConnected = true) {window : TraceWindow}
    (reversed : window.stop < window.start) :
    s.offers? (.queryTrace window) = none ∧
      s.response (.queryTrace window) = .error (.invalidWindow window) := by
  constructor
  · apply if_neg
    intro h
    exact h.2 reversed
  · simp only [response, queryTrace, demandConnected_of connected, if_pos reversed]

/-- In place a command offers its message. -/
theorem offers_of_placed (command : t.action? = some a) (placed : s.phase ∈ a.phases)
    (forward : ¬ t.Reversed) : ∃ m, s.offers? t = some m := by
  cases t <;> cases command
  case goOn | step | interrupt => exact ⟨_, if_pos (List.mem_singleton.1 placed)⟩
  case terminate | request => exact ⟨_, if_pos (isConnected_iff_mem.2 placed)⟩
  case queryTrace window =>
    have forward : ¬ window.stop < window.start := fun reversed => forward ⟨window, rfl, reversed⟩
    exact ⟨_, if_pos ⟨isConnected_iff_mem.2 placed, forward⟩⟩

/-- The answer of the link is what a command that offers its message comes back with. -/
theorem response_of_offers (command : t.action? = some a) (linked : s.link = some l)
    (offered : s.offers? t = some m) : s.response t = (l.send m).1.mapError .link := by
  cases t <;> cases command <;>
    simp only [offers?, Option.ite_none_right_eq_some, Option.some.injEq] at offered
  case goOn | step =>
    obtain ⟨phase, rfl⟩ := offered
    simp only [response, goOn, step, resume, demand_of_eq phase (by decide), send, linked]
    rcases l.send _ with ⟨_ | ⟨⟨⟩⟩, l'⟩ <;> rfl
  case interrupt =>
    obtain ⟨phase, rfl⟩ := offered
    simp only [response, interrupt, demand_of_eq phase (by decide), send, linked]
    rcases l.send _ with ⟨_ | ⟨⟨⟩⟩, l'⟩ <;> rfl
  case terminate =>
    obtain ⟨connected, rfl⟩ := offered
    simp only [response, terminate, demandConnected_of connected, send, linked]
    rcases l.send _ with ⟨_ | ⟨⟨⟩⟩, l'⟩ <;> rfl
  case queryTrace window =>
    obtain ⟨⟨connected, forward⟩, rfl⟩ := offered
    simp only [response, queryTrace, demandConnected_of connected, if_neg forward, send, linked]
    rcases l.send _ with ⟨_ | ⟨⟨⟩⟩, l'⟩ <;> rfl
  case request =>
    obtain ⟨connected, rfl⟩ := offered
    simp only [response, request, demandConnected_of connected, linked, Requests.issue]
    rcases l.send _ with ⟨_ | ⟨⟨⟩⟩, l'⟩ <;> rfl

theorem store_of_action (command : t.action? = some a) : s.store t = s := by
  cases t <;> first | rfl | nomatch command

/-- A link that refuses the message of a command leaves everything as it was, apart from the number
of a request. -/
theorem unmoved_refuse (ahead : s.requests.Ahead) (command : t.action? = some a) (l : Link) :
    s.Unmoved (s.refuse l t) := by
  cases t <;> cases command
  case request handler errand label =>
    constructor
    case pending => exact ahead.strike_note handler (.reply label)
    all_goals rfl
  all_goals constructor <;> rfl

/-- A link that takes it leaves the phase as it was, unless it lets the process go on. -/
theorem phase_grant (command : t.action? = some a) (l : Link) :
    (s.grant l t).phase = if a = .goOn ∨ a = .step then .running else s.phase := by
  cases t <;> cases command <;> rfl

/-- What a command that offers its message sends. -/
theorem sentOn_of_offers (consistent : s.Consistent) (linked : s.link = some l)
    (offered : s.offers? t = some m) (i : Nat) :
    (⟨s, t⟩ : Play ι).sentOn i = if i = s.retired.length then l.taken [m] else [] := by
  split
  · rename_i place
    have sent : (⟨s, t⟩ : Play ι).sentOn s.retired.length = l.taken (s.offered t) :=
      Play.sentOn_of_uses consistent linked
    rw [offered_of_command (isCommand_of_offers offered), offered] at sent
    rw [place]
    exact sent
  · rename_i apart
    apply Play.sentOn_of_not_uses consistent
    intro uses
    exact apart uses.2

/-- A command that offers nothing sends nothing. -/
theorem sentOn_of_silent (consistent : s.Consistent) (command : t.action? = some a)
    (silent : s.offers? t = none) (i : Nat) : (⟨s, t⟩ : Play ι).sentOn i = [] := by
  rw [List.eq_nil_iff_forall_not_mem]
  intro m sent
  have offered : m ∈ s.offered t := (Play.uses_of_sent consistent sent).2
  rw [offered_of_command (isCommand_of_action command), silent] at offered
  nomatch offered

/-- What may become of the command `t`, which is the action `a`: it is out of place, it asks for what
is not there, or its message is offered to the link. -/
inductive Verdict (s : Session ι) (t : Turn ι) (a : Action) : Prop where
  | misplaced (out : s.phase ∉ a.phases) (silent : s.offers? t = none)
      (response : s.response t = .error (s.misplaced a))
  | reversed (placed : s.phase ∈ a.phases) {window : TraceWindow} (query : t = .queryTrace window)
      (reversed : window.stop < window.start) (silent : s.offers? t = none)
      (response : s.response t = .error (.invalidWindow window))
  | tried (placed : s.phase ∈ a.phases) (forward : ¬ t.Reversed) {l : Link} {m : Message}
      (linked : s.link = some l) (offered : s.offers? t = some m)
      (response : s.response t = (l.send m).1.mapError .link)

theorem verdict (tied : s.Tied) (command : t.action? = some a) : s.Verdict t a := by
  by_cases placed : s.phase ∈ a.phases
  · by_cases forward : t.Reversed
    · obtain ⟨window, rfl, reversed⟩ := forward
      cases command
      obtain ⟨silent, response⟩ := offers_of_reversed (isConnected_iff_mem.2 placed) reversed
      exact .reversed placed rfl reversed silent response
    · obtain ⟨m, offered⟩ := offers_of_placed command placed forward
      obtain ⟨l, linked⟩ := tied.link (isConnected_of_offers offered)
      exact .tried placed forward linked offered (response_of_offers command linked offered)
  · obtain ⟨silent, response⟩ := offers_of_misplaced command placed
    exact .misplaced placed silent response

theorem unmoved_refl (s : Session ι) : s.Unmoved s := by constructor <;> rfl

/-- A command that offers nothing does nothing. -/
theorem after_of_silent (command : t.action? = some a) (silent : s.offers? t = none) :
    s.after t = s := by
  rw [after_of_declined (isCommand_of_action command) silent, store_of_action command]

theorem failed_of_silent (consistent : s.Consistent) (command : t.action? = some a)
    (silent : s.offers? t = none) :
    s.Unmoved (s.after t) ∧ ∀ i, (⟨s, t⟩ : Play ι).sentOn i = [] := by
  rw [after_of_silent command silent]
  exact ⟨s.unmoved_refl, sentOn_of_silent consistent command silent⟩

theorem misplaced_eq_notConnected : s.misplaced a = .notConnected ↔ s.phase = .disconnected := by
  rw [misplaced]
  split <;> simp [*]

theorem misplaced_eq_invalidPhase {b : Action} {phase : Phase} :
    s.misplaced a = .invalidPhase b phase ↔
      (b = a ∧ phase = s.phase) ∧ s.phase ≠ .disconnected := by
  rw [misplaced]
  split
  · simp [*]
  · rename_i linked
    rw [SessionError.invalidPhase.injEq]
    constructor
    · rintro ⟨rfl, rfl⟩
      exact ⟨⟨rfl, rfl⟩, linked⟩
    · rintro ⟨⟨rfl, rfl⟩, -⟩
      exact ⟨rfl, rfl⟩

theorem misplaced_ne_invalidWindow (window : TraceWindow) :
    s.misplaced a ≠ .invalidWindow window := by
  rw [misplaced]
  split <;> rintro ⟨⟩

/-- Out of place a command fails for its phase. -/
theorem obeyed_of_misplaced (consistent : s.Consistent) (command : t.action? = some a)
    (out : s.phase ∉ a.phases) (silent : s.offers? t = none)
    (response : s.response t = .error (s.misplaced a)) : s.Obeyed t a where
  notConnected := by rw [response, Except.error.injEq, misplaced_eq_notConnected]
  invalidPhase b phase := by
    rw [response, Except.error.injEq, misplaced_eq_invalidPhase]
    constructor
    · rintro ⟨same, linked⟩
      exact ⟨same, linked, out⟩
    · rintro ⟨same, linked, -⟩
      exact ⟨same, linked⟩
  invalidWindow window := by
    rw [response, Except.error.injEq]
    apply iff_of_false (misplaced_ne_invalidWindow window)
    intro h
    exact out h.1
  declined _ := after_of_silent command silent
  tried placed := absurd placed out
  failed e _ := failed_of_silent consistent command silent
  succeeded ok := by
    rw [response] at ok
    nomatch ok

/-- A query that asks for what is not there fails for its window. -/
theorem obeyed_of_reversed (consistent : s.Consistent) (command : t.action? = some a)
    (placed : s.phase ∈ a.phases) {window : TraceWindow} (query : t = .queryTrace window)
    (reversed : window.stop < window.start) (silent : s.offers? t = none)
    (response : s.response t = .error (.invalidWindow window)) : s.Obeyed t a where
  notConnected := by simp [response, Action.ne_disconnected placed]
  invalidPhase b phase := by simp [response, placed]
  invalidWindow window' := by
    rw [response, query]
    constructor
    · rintro ⟨⟩
      exact ⟨placed, rfl, reversed⟩
    · rintro ⟨-, ⟨⟩, -⟩
      rfl
  declined _ := after_of_silent command silent
  tried _ forward := absurd ⟨window, query, reversed⟩ forward
  failed e _ := failed_of_silent consistent command silent
  succeeded ok := by
    rw [response] at ok
    nomatch ok

/-- The answer of the link is no complaint of the session. -/
theorem ne_of_mapError {answer : Except LinkError Unit} {e : SessionError}
    (own : ∀ e', e ≠ .link e') : answer.mapError SessionError.link ≠ .error e := by
  intro h
  cases answer with
  | error e' =>
    cases h
    exact own e' rfl
  | ok => nomatch h

/-- In place a command stands or falls with the answer of the link. -/
theorem obeyed_of_tried (consistent : s.Consistent) (ahead : s.requests.Ahead)
    (up : l.aborted = false) (command : t.action? = some a) (placed : s.phase ∈ a.phases)
    (forward : ¬ t.Reversed) (linked : s.link = some l) (offered : s.offers? t = some m)
    (response : s.response t = (l.send m).1.mapError .link) : s.Obeyed t a where
  notConnected := by
    rw [response]
    exact iff_of_false (ne_of_mapError (by rintro _ ⟨⟩)) (Action.ne_disconnected placed)
  invalidPhase b phase := by
    rw [response]
    exact iff_of_false (ne_of_mapError (by rintro _ ⟨⟩)) fun h => h.2.2 placed
  invalidWindow window := by
    rw [response]
    exact iff_of_false (ne_of_mapError (by rintro _ ⟨⟩)) fun h => forward ⟨window, h.2⟩
  declined := by
    rintro (out | reversed)
    · exact absurd placed out
    · exact absurd reversed forward
  tried _ _ := by
    refine ⟨l, m, linked, up, offered, ?_, Link.attempts_send up m, response⟩
    rcases answer : l.send m with ⟨e | ⟨⟨⟩⟩, l'⟩
    · rw [after_of_refused linked offered answer]
      exact (s.link_refuse l' t).1
    · rw [after_of_granted linked offered answer]
      exact (s.link_grant l' t).1
  failed e failed := by
    rcases answer : l.send m with ⟨e' | ⟨⟨⟩⟩, l'⟩
    · rw [after_of_refused linked offered answer]
      refine ⟨unmoved_refuse ahead command l', fun i => ?_⟩
      rw [sentOn_of_offers consistent linked offered, Link.taken, answer]
      exact ite_self _
    · rw [response, answer] at failed
      cases failed
  succeeded ok := by
    rcases answer : l.send m with ⟨e | ⟨⟨⟩⟩, l'⟩
    · rw [response, answer] at ok
      cases ok
    · rw [after_of_granted linked offered answer]
      refine ⟨⟨m, offered, fun i => ?_⟩, phase_grant command l'⟩
      rw [sentOn_of_offers consistent linked offered, Link.taken, answer]
      rfl

/-- Every command of the owner turns out as it should. -/
theorem Heard.obeyed {ps : List (Play ι)} (heard : Heard ps s) (consistent : s.Consistent)
    (ahead : s.Ahead) (command : t.action? = some a) : s.Obeyed t a := by
  cases verdict consistent.tied command with
  | misplaced out silent response => exact obeyed_of_misplaced consistent command out silent response
  | reversed placed query reversed silent response =>
    exact obeyed_of_reversed consistent command placed query reversed silent response
  | tried placed forward linked offered response =>
    have up := heard.up (isConnected_of_offers offered) _ linked
    exact obeyed_of_tried consistent ahead.requests up command placed forward linked offered
      response

/-! ## Runs -/

/-- A message that lets the process go on is sent to a paused process, which then is running. -/
theorem released (consistent : s.Consistent) {i : Nat} (sent : m ∈ (⟨s, t⟩ : Play ι).sentOn i)
    (releases : m.releases = true) :
    s.phase = .breaked ∧ i = s.retired.length ∧ (⟨s, t⟩ : Play ι).sentOn i = [m] ∧
      (s.after t).phase = .running := by
  obtain ⟨uses, offered⟩ := Play.uses_of_sent consistent sent
  have offers : s.offers? t = some m := by
    by_cases pauses : Play.Pauses ⟨s, t⟩ s.retired.length
    · have held : m.releases = false := by
        rw [offered_of_pauses pauses] at offered
        rcases List.mem_append.1 offered with mem | mem
        · exact (s.orders_announcement m mem).2
        · exact (orders_queries s.watches.live s.requests.nextRequest m mem).2
      rw [releases] at held
      cases held
    · exact offers_of_offered pauses offered
  obtain ⟨breaked, going⟩ := (offers_order offers).2 releases
  obtain ⟨l, linked⟩ := Option.isSome_iff_exists.1 uses.1
  have taken : (⟨s, t⟩ : Play ι).sentOn i = l.taken [m] := by
    rw [sentOn_of_offers consistent linked offers, if_pos uses.2]
  rcases answer : l.send m with ⟨e | ⟨⟨⟩⟩, l'⟩
  · rw [taken, Link.taken, answer] at sent
    cases sent
  · refine ⟨breaked, uses.2, ?_, ?_⟩
    · rw [taken, Link.taken, answer]
      rfl
    · rw [after_of_granted linked offers answer]
      rcases going with rfl | ⟨mode, rfl⟩ <;> rfl

theorem phase_lose (linked : s.link = some l) (reason : String) :
    (s.lose reason).phase = .disconnected := by
  rw [lose_of_link linked]
  rfl

/-- Nothing but a pause makes a session paused. -/
theorem Effect.breaked (effect : Effect s t s') (breaked : s'.phase = .breaked) :
    s.phase = .breaked ∨ Play.Pauses ⟨s, t⟩ s.retired.length := by
  cases effect with
  | connect | connectWith | disconnect | greeted => nomatch breaked
  | ended | rejected | unsynced | unqueried =>
    rw [phase_lose rfl] at breaked
    nomatch breaked
  | declined | refused => cases t <;> exact .inl breaked
  | granted linked offered => cases t <;> first | exact .inl breaked | nomatch breaked
  | paused linked polled connected =>
    have waits := poll_of_event linked polled
    exact .inr ⟨connected, _, rfl, ⟨Option.isSome_of_eq_some linked, rfl⟩, _, waits⟩
  | replied =>
    rw [acceptReply_eq] at breaked
    exact .inl breaked
  | register | unregister | subscribe | unsubscribe | arrive | idle | noticed | traced =>
    exact .inl breaked

variable {ps : List (Play ι)}

/-- A paused process is held, and stays held for as long as it is paused. -/
theorem held_after (consistent : s.Consistent)
    (held : s.phase = .breaked → Play.Held ps s.retired.length) (t : Turn ι)
    (breaked : (s.after t).phase = .breaked) :
    Play.Held (ps ++ [⟨s, t⟩]) (s.after t).retired.length := by
  have retired : (s.after t).retired = s.retired := by
    cases fate consistent.tied t with
    | kept f served adopts link retired => exact retired
    | replaced f served link retired =>
      exact absurd (isConnected_of_breaked breaked) (consistent.unheard_of_replaced link).1
  rw [retired]
  rcases (effect consistent.tied t).breaked breaked with before | pauses
  · obtain ⟨front, pause, back, rfl, pauses, quiet⟩ := held before
    refine ⟨front, pause, back ++ [⟨s, t⟩], by simp, pauses, ?_⟩
    intro q mem m sent
    rcases List.mem_append.1 mem with mem | mem
    · exact quiet q mem m sent
    · rw [List.mem_singleton.1 mem] at sent
      rw [Bool.eq_false_iff]
      intro releases
      have running := (released consistent sent releases).2.2.2
      rw [breaked] at running
      nomatch running
  · exact ⟨ps, ⟨s, t⟩, [], rfl, pauses, List.forall_mem_nil _⟩

theorem held_run (consistent : s.Consistent)
    (held : s.phase = .breaked → Play.Held ps s.retired.length) (ts : List (Turn ι))
    (breaked : (s.run ts).phase = .breaked) :
    Play.Held (ps ++ s.plays ts) (s.run ts).retired.length := by
  induction ts generalizing ps s with
  | nil =>
    rw [plays_nil, List.append_nil]
    exact held breaked
  | cons t ts ih =>
    have later := ih (consistent.after t) (held_after consistent held t) breaked
    rw [List.append_assoc] at later
    exact later

/-- **Commands.** Take any session that comes about, and one of the commands for certain phases.

* Without a connection it fails for that reason, and otherwise, in a phase that it is not for, for
  the phase; and then a query fails for a window that ends before it starts. Nothing is attempted.
* Otherwise it makes one attempt to send its message, over a link that is up, and fails just if the
  link refuses it.
* When it fails, nothing is sent, the owner is told nothing, and the session is as it was, but for
  the count of attempts and a number that was used up.
* When it succeeds, that message and no other is sent; the process goes on if it was let go on, and
  no other command changes the phase.

So on every link, whatever lets the process go on was sent to a process that had paused since it was
last sent anything of the kind. -/
theorem commands_obeyed (ts : List (Turn ι)) (i : Nat) :
    (∀ t a, t.action? = some a → ((new : Session ι).run ts).Obeyed t a) ∧
      ∀ earlier p later, (new : Session ι).plays ts = earlier ++ p :: later →
        p.Licensed earlier i := by
  have start : (new : Session ι).Consistent := consistent_new
  constructor
  · intro t a command
    exact (heard_run ts).obeyed (start.run ts) (ahead_new.run start ts) command
  · intro earlier p later split m sent releases
    obtain ⟨us, rfl, before⟩ := plays_split split
    obtain ⟨s, t⟩ := p
    have before : s = new.run us := before
    have consistent : s.Consistent := before ▸ start.run us
    obtain ⟨breaked, place, alone, -⟩ := released consistent sent releases
    subst place
    refine ⟨alone, ?_⟩
    rw [before] at breaked ⊢
    have first : (new : Session ι).phase = .breaked → Play.Held ([] : List (Play ι)) 0 := nofun
    exact held_run start first us breaked

/-- A paused process is let go on, once. -/
theorem commands_obeyed_paused :
    ∃ ts : List (Turn Unit),
      ts = [.connectWith (.withBudget none),
        .arrive [.message (.hello "demo"), .message (.paused default)], .next, .next] ∧
      (new.run ts).phase = .breaked ∧ (new.run ts).Obeyed .goOn .goOn ∧
      (new.run ts).response .goOn = .ok () ∧
      (⟨new.run ts, .goOn⟩ : Play Unit).sentOn 0 = [.proceed .resume] ∧
      (⟨new.run ts, .goOn⟩ : Play Unit).Licensed (new.plays ts) 0 ∧
      ((new.run ts).after .goOn).response .goOn = .error (.invalidPhase .goOn .running) := by
  refine ⟨_, rfl, rfl, ?_, rfl, rfl, ?_, rfl⟩
  · exact (commands_obeyed [.connectWith (.withBudget none),
      .arrive [.message (.hello "demo"), .message (.paused default)], .next, .next] 0).1 _ _ rfl
  · exact (commands_obeyed [.connectWith (.withBudget none),
      .arrive [.message (.hello "demo"), .message (.paused default)], .next, .next, .goOn] 0).2
      _ _ [] rfl

end Session

end CallDebugger
