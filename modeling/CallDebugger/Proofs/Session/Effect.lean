import CallDebugger.Proofs.Session.Turn

/-!
# What a turn does

`Session.Effect s t s'` says once for all what the turn `t` may make of the session `s`, one way for
each: a command is declined, or its message is refused or taken; an event is noticed, rejected,
handled, or ends the link. Every turn has one of these effects (`Session.effect`), and what holds
after every turn is shown by going through them.
-/

namespace CallDebugger

variable {ι : Type}

/-- The queries of watches, numbered from `next` on. -/
def Watches.queries : List (Watch ι) → Nat → List Message
  | [], _ => []
  | w :: ws, next => .request ⟨.ofNat next, .query w.kind w.name⟩ :: queries ws (next + 1)

/-- Querying watches is offering their queries. -/
theorem Watches.query_eq_offer (ws : List (Watch ι)) (requests : Requests (Callback ι)) (l : Link) :
    ∃ requests', query ws requests l =
      (match (l.offer (queries ws requests.nextRequest)).1 with
        | none => .ok ()
        | some e => .error e,
       requests', (l.offer (queries ws requests.nextRequest)).2) := by
  induction ws generalizing requests l with
  | nil => exact ⟨requests, rfl⟩
  | cons w ws ih =>
    simp only [query, queries, Requests.issue, Link.offer]
    rcases l.send (.request ⟨.ofNat requests.nextRequest, .query w.kind w.name⟩) with ⟨e | _, l'⟩
    · exact ⟨_, rfl⟩
    · exact ih _ l'

/-- Whether a turn is a command that may offer a message. -/
def Turn.isCommand : Turn ι → Bool
  | .goOn | .step _ | .interrupt | .terminate | .setBreakpoints _ | .configure _ | .queryTrace _
  | .request .. => true
  | _ => false

namespace Session

/-- The message that a command offers to the link, if the session is in a phase for it. -/
def offers? (s : Session ι) : Turn ι → Option Message
  | .goOn => if s.phase = .breaked then some (.proceed .resume) else none
  | .step mode => if s.phase = .breaked then some (.proceed (.stepping mode)) else none
  | .interrupt => if s.phase = .running then some (.proceed .interrupting) else none
  | .terminate => if s.isConnected then some .terminate else none
  | .setBreakpoints es => if s.isConnected then some (.breakpoints (.ofList es)) else none
  | .configure settings => if s.isConnected then some (.configuration settings) else none
  | .queryTrace window =>
    if s.isConnected ∧ ¬ window.stop < window.start then some (.queryTrace window) else none
  | .request _ errand _ =>
    if s.isConnected then some (.request ⟨.ofNat s.requests.nextRequest, errand⟩) else none
  | _ => none

/-- What a command changes by itself. -/
def store (s : Session ι) : Turn ι → Session ι
  | .setBreakpoints es => { s with breakpoints := .ofList es }
  | .configure settings => { s with settings }
  | _ => s

/-- The session after the link has refused the message of a command. -/
def refuse (s : Session ι) (l : Link) : Turn ι → Session ι
  | .request handler _ label =>
    { s with
      link := some l
      requests := (s.requests.note handler (.reply label)).strike s.requests.nextRequest }
  | t => { s.store t with link := some l }

/-- The session after the link has taken the message of a command. -/
def grant (s : Session ι) (l : Link) : Turn ι → Session ι
  | .goOn | .step _ => { s with link := some l, phase := .running }.status "Running..."
  | .interrupt => { s with link := some l }.status "Interrupting..."
  | .request handler _ label =>
    { s with link := some l, requests := s.requests.note handler (.reply label) }
  | t => { s.store t with link := some l }

/-- What is wrong with an action in the phase of the session. -/
def misplaced (s : Session ι) (action : Action) : SessionError :=
  if s.phase = .disconnected then .notConnected else .invalidPhase action s.phase

/-- Why a message is rejected, if nothing else is to be done about it. -/
def rejects? (s : Session ι) : Message → Option SessionError
  | .hello _ => if s.phase = .connecting then none else some (s.misplaced .acceptHello)
  | .paused _ => if s.isConnected then none else some (s.misplaced .acceptBreak)
  | .trace _ => if s.isConnected then none else some (s.misplaced .acceptTrace)
  | .reply _ => none
  | m => some (.protocol (.unhandled m.kind))

/-- What the owner is told of an event that changes nothing. -/
def notice? : LinkEvent → Option (Notice ι)
  | .connected => some (.status "Connected, waiting for peer...")
  | .sendingStarted => some .sendingStarted
  | .sendingStopped => some .sendingStopped
  | .message _ | .disconnected _ => none

/-- What the first pause on a link makes the session send. -/
def announcement (s : Session ι) : List Message :=
  if s.synced then [] else [.configuration s.settings, .breakpoints s.breakpoints]

/-- The process has paused, and the settings and breakpoints are out. -/
def pausedAt (s : Session ι) (pause : Pause) : Session ι :=
  { { s with synced := true, phase := .breaked }.tell (.breaked pause) with lastBreak := some pause }

/-- The process has said its name. -/
def greetedBy (s : Session ι) (name : String) : Session ι :=
  { ({ s with phase := .running }.tell (.connected name)).status ("Connected to " ++ name ++ ".")
    with peerName := some name }

/-- What a turn may make of a session. -/
inductive Effect (s : Session ι) : Turn ι → Session ι → Prop where
  | connect (endpoint : Endpoint) (link : Link) :
      Effect s (.connect endpoint link) (s.connect endpoint link)
  | connectWith (link : Link) : Effect s (.connectWith link) (s.connectWith link)
  | disconnect : Effect s .disconnect s.disconnect
  | register : Effect s .register s.register.2
  | unregister (handler : HandlerId) : Effect s (.unregister handler) (s.unregister handler)
  | subscribe (name : ObjectName) (kind : ObjectKind) (label : ι) :
      Effect s (.subscribe name kind label) (s.subscribe name kind label).2
  | unsubscribe (id : WatchId) : Effect s (.unsubscribe id) (s.unsubscribe id).2
  | arrive (events : List LinkEvent) : Effect s (.arrive events) (s.arrive events)
  /-- The command offers nothing. -/
  | declined {t : Turn ι} (command : t.isCommand = true) (nothing : s.offers? t = none) :
      Effect s t (s.store t)
  | refused {t : Turn ι} {m : Message} {l l' : Link} {e : LinkError} (linked : s.link = some l)
      (offered : s.offers? t = some m) (refusal : l.send m = (.error e, l')) :
      Effect s t (s.refuse l' t)
  | granted {t : Turn ι} {m : Message} {l l' : Link} (linked : s.link = some l)
      (offered : s.offers? t = some m) (sent : l.send m = (.ok (), l')) : Effect s t (s.grant l' t)
  /-- No event waits. -/
  | idle (nothing : s.poll = none) : Effect s .next s
  | noticed {e : LinkEvent} {n : Notice ι} {l l' : Link} (linked : s.link = some l)
      (polled : l.poll = some (e, l')) (told : notice? e = some n) :
      Effect s .next ({ s with link := some l' }.tell n)
  | ended {reason : String} {l l' : Link} (linked : s.link = some l)
      (polled : l.poll = some (.disconnected reason, l')) :
      Effect s .next ({ s with link := some l' }.lose reason)
  | rejected {m : Message} {e : SessionError} {l l' : Link} (linked : s.link = some l)
      (polled : l.poll = some (.message m, l')) (rejection : s.rejects? m = some e) :
      Effect s .next ({ s with link := some l' }.lose e.message)
  | greeted {name : String} {l l' : Link} (linked : s.link = some l)
      (polled : l.poll = some (.message (.hello name), l')) (phase : s.phase = .connecting) :
      Effect s .next ({ s with link := some l' }.greetedBy name)
  /-- The settings or the breakpoints do not get out. -/
  | unsynced {pause : Pause} {l l₀ l' : Link} {e : LinkError} (linked : s.link = some l)
      (polled : l.poll = some (.message (.paused pause), l₀)) (connected : s.isConnected = true)
      (refusal : l₀.offer s.announcement = (some e, l')) :
      Effect s .next ({ s with link := some l', synced := true }.lose e.message)
  /-- A query does not get out. -/
  | unqueried {pause : Pause} {l l₀ l₁ l' : Link} {e : LinkError}
      {requests : Requests (Callback ι)} (linked : s.link = some l)
      (polled : l.poll = some (.message (.paused pause), l₀)) (connected : s.isConnected = true)
      (sent : l₀.offer s.announcement = (.none, l₁))
      (refusal : Watches.query s.watches.live s.requests l₁ = (.error e, requests, l')) :
      Effect s .next ({ s.pausedAt pause with link := some l', requests }.lose e.message)
  | paused {pause : Pause} {l l₀ l₁ l' : Link} {requests : Requests (Callback ι)}
      (linked : s.link = some l) (polled : l.poll = some (.message (.paused pause), l₀))
      (connected : s.isConnected = true) (sent : l₀.offer s.announcement = (.none, l₁))
      (queried : Watches.query s.watches.live s.requests l₁ = (.ok (), requests, l')) :
      Effect s .next ({ s.pausedAt pause with link := some l', requests }.status
        "Breaked execution.")
  | traced {page : TracePage} {l l' : Link} (linked : s.link = some l)
      (polled : l.poll = some (.message (.trace page), l')) (connected : s.isConnected = true) :
      Effect s .next ({ s with link := some l' }.tell (.trace page))
  | replied {reply : Reply} {l l' : Link} (linked : s.link = some l)
      (polled : l.poll = some (.message (.reply reply), l')) :
      Effect s .next ({ s with link := some l' }.acceptReply reply)

/-! ## Commands -/

/-- A session that has a link whenever the process has said hello. -/
def Tied (s : Session ι) : Prop := s.isConnected = true → s.link.isSome = true

theorem isConnected_of_breaked {s : Session ι} (h : s.phase = .breaked) : s.isConnected = true := by
  simp [isConnected, h]

theorem isConnected_of_running {s : Session ι} (h : s.phase = .running) : s.isConnected = true := by
  simp [isConnected, h]

theorem isConnected_congr {s s' : Session ι} (phase : s'.phase = s.phase) :
    s'.isConnected = s.isConnected := by
  rw [isConnected, isConnected, phase]

/-- Only a session that heard the hello offers the message of a command. -/
theorem isConnected_of_offers {s : Session ι} {t : Turn ι} {m : Message}
    (h : s.offers? t = some m) : s.isConnected = true := by
  cases t <;> simp only [offers?, Option.ite_none_right_eq_some, reduceCtorEq] at h
  case goOn | step => exact isConnected_of_breaked h.1
  case interrupt => exact isConnected_of_running h.1
  case queryTrace => exact h.1.1
  all_goals exact h.1

theorem Tied.link {s : Session ι} (h : s.Tied) (connected : s.isConnected = true) :
    ∃ l, s.link = some l :=
  Option.isSome_iff_exists.1 (h connected)

theorem send_of_error {s : Session ι} {l l' : Link} {m : Message} {e : LinkError}
    (linked : s.link = some l) (refusal : l.send m = (.error e, l')) :
    s.send m = (.error (.link e), { s with link := some l' }) := by
  simp only [send, linked, refusal]

theorem send_of_ok {s : Session ι} {l l' : Link} {m : Message} (linked : s.link = some l)
    (sent : l.send m = (.ok (), l')) : s.send m = (.ok (), { s with link := some l' }) := by
  simp only [send, linked, sent]

theorem demand_of_eq {s : Session ι} {phase : Phase} (h : s.phase = phase)
    (linked : phase ≠ .disconnected) (action : Action) : s.demand action phase = .ok () := by
  rw [demand, if_neg (h ▸ linked), if_pos h]

theorem demand_of_ne {s : Session ι} {phase : Phase} (h : s.phase ≠ phase) (action : Action) :
    s.demand action phase = .error (s.misplaced action) := by
  rw [demand, if_neg h, misplaced]
  split <;> rfl

theorem demandConnected_of {s : Session ι} (h : s.isConnected = true) (action : Action) :
    s.demandConnected action = .ok () := by
  rw [demandConnected, if_pos h]

theorem demandConnected_of_not {s : Session ι} (h : ¬ s.isConnected = true) (action : Action) :
    s.demandConnected action = .error (s.misplaced action) := by
  rw [demandConnected, if_neg h, misplaced]
  split <;> rfl

theorem setBreakpoints_eq (s : Session ι) (es : List Entrypoint) :
    s.setBreakpoints es =
      if s.isConnected then (s.store (.setBreakpoints es)).send (.breakpoints (.ofList es))
      else (.ok (), s.store (.setBreakpoints es)) := rfl

theorem configure_eq (s : Session ι) (settings : BreakSettings) :
    s.configure settings =
      if s.isConnected then (s.store (.configure settings)).send (.configuration settings)
      else (.ok (), s.store (.configure settings)) := rfl

/-- A command that offers nothing stores what it was given, if anything. -/
theorem after_of_declined {s : Session ι} {t : Turn ι} (command : t.isCommand = true)
    (nothing : s.offers? t = none) : s.after t = s.store t := by
  cases t <;> simp only [offers?, ite_eq_right_iff, reduceCtorEq, imp_false] at nothing
  case goOn | step => simp only [after, goOn, step, resume, demand_of_ne nothing, store]
  case interrupt => simp only [after, interrupt, demand_of_ne nothing, store]
  case terminate => simp only [after, terminate, demandConnected_of_not nothing, store]
  case setBreakpoints es => rw [after, setBreakpoints_eq, if_neg nothing]
  case configure settings => rw [after, configure_eq, if_neg nothing]
  case queryTrace window =>
    by_cases connected : s.isConnected = true
    · have reversed : window.stop < window.start := Decidable.not_not.1 fun h =>
        nothing ⟨connected, h⟩
      simp only [after, queryTrace, demandConnected_of connected, if_pos reversed, store]
    · simp only [after, queryTrace, demandConnected_of_not connected, store]
  case request => simp only [after, request, demandConnected_of_not nothing, store]
  all_goals exact absurd command Bool.false_ne_true

/-- A command whose message the link refuses. -/
theorem after_of_refused {s : Session ι} {t : Turn ι} {m : Message} {l l' : Link} {e : LinkError}
    (linked : s.link = some l) (offered : s.offers? t = some m)
    (refusal : l.send m = (.error e, l')) : s.after t = s.refuse l' t := by
  have no := send_of_error linked refusal
  have stored : (s.store t).link = some l := by cases t <;> exact linked
  have noStored := send_of_error stored refusal
  cases t <;> simp only [offers?, Option.ite_none_right_eq_some, Option.some.injEq,
    reduceCtorEq] at offered
  case goOn | step =>
    obtain ⟨phase, rfl⟩ := offered
    simp only [after, goOn, step, resume, demand_of_eq phase (by decide), no, refuse, store]
  case interrupt =>
    obtain ⟨phase, rfl⟩ := offered
    simp only [after, interrupt, demand_of_eq phase (by decide), no, refuse, store]
  case terminate =>
    obtain ⟨connected, rfl⟩ := offered
    simp only [after, terminate, demandConnected_of connected, no, refuse, store]
  case setBreakpoints es =>
    obtain ⟨connected, rfl⟩ := offered
    simp only [after, setBreakpoints_eq, if_pos connected, noStored, refuse]
  case configure settings =>
    obtain ⟨connected, rfl⟩ := offered
    simp only [after, configure_eq, if_pos connected, noStored, refuse]
  case queryTrace window =>
    obtain ⟨⟨connected, forward⟩, rfl⟩ := offered
    simp only [after, queryTrace, demandConnected_of connected, if_neg forward, no, refuse, store]
  case request =>
    obtain ⟨connected, rfl⟩ := offered
    simp only [after, request, demandConnected_of connected, linked, Requests.issue, refusal,
      refuse]

/-- A command whose message the link takes. -/
theorem after_of_granted {s : Session ι} {t : Turn ι} {m : Message} {l l' : Link}
    (linked : s.link = some l) (offered : s.offers? t = some m)
    (sent : l.send m = (.ok (), l')) : s.after t = s.grant l' t := by
  have yes := send_of_ok linked sent
  have stored : (s.store t).link = some l := by cases t <;> exact linked
  have yesStored := send_of_ok stored sent
  cases t <;> simp only [offers?, Option.ite_none_right_eq_some, Option.some.injEq,
    reduceCtorEq] at offered
  case goOn | step =>
    obtain ⟨phase, rfl⟩ := offered
    simp only [after, goOn, step, resume, demand_of_eq phase (by decide), yes, grant]
  case interrupt =>
    obtain ⟨phase, rfl⟩ := offered
    simp only [after, interrupt, demand_of_eq phase (by decide), yes, grant]
  case terminate =>
    obtain ⟨connected, rfl⟩ := offered
    simp only [after, terminate, demandConnected_of connected, yes, grant, store]
  case setBreakpoints es =>
    obtain ⟨connected, rfl⟩ := offered
    simp only [after, setBreakpoints_eq, if_pos connected, yesStored, grant]
  case configure settings =>
    obtain ⟨connected, rfl⟩ := offered
    simp only [after, configure_eq, if_pos connected, yesStored, grant]
  case queryTrace window =>
    obtain ⟨⟨connected, forward⟩, rfl⟩ := offered
    simp only [after, queryTrace, demandConnected_of connected, if_neg forward, yes, grant, store]
  case request =>
    obtain ⟨connected, rfl⟩ := offered
    simp only [after, request, demandConnected_of connected, linked, Requests.issue, sent, grant]

/-- A command stores what it was given, or offers its message. -/
theorem effect_command {s : Session ι} (tied : s.Tied) {t : Turn ι} (command : t.isCommand = true) :
    Effect s t (s.after t) := by
  cases offered : s.offers? t with
  | none =>
    rw [after_of_declined command offered]
    exact .declined command offered
  | some m =>
    obtain ⟨l, linked⟩ := tied.link (isConnected_of_offers offered)
    rcases sent : l.send m with ⟨e | ⟨⟨⟩⟩, l'⟩
    · rw [after_of_refused linked offered sent]
      exact .refused linked offered sent
    · rw [after_of_granted linked offered sent]
      exact .granted linked offered sent

/-! ## Events -/

/-- Sending what goes out once for each link is offering the announcement. -/
theorem sync_of_link {s : Session ι} {l l' : Link} {r : Option LinkError} (linked : s.link = some l)
    (offered : l.offer s.announcement = (r, l')) :
    s.sync =
      (match r with
        | none => .ok ()
        | some e => .error (.link e),
       { s with link := some l', synced := true }) := by
  unfold sync
  split
  · rename_i synced
    rw [announcement, if_pos synced] at offered
    cases offered
    rw [← linked, ← synced]
  · rename_i fresh
    rw [announcement, if_neg fresh] at offered
    simp only [Link.offer] at offered
    have linked : ({ s with synced := true } : Session ι).link = some l := linked
    rcases first : l.send (.configuration s.settings) with ⟨e | ⟨⟨⟩⟩, l₁⟩ <;> rw [first] at offered
    · cases offered
      rw [send_of_error linked first]
    · simp only at offered
      rw [send_of_ok linked first]
      have linked : ({ s with synced := true, link := some l₁ } : Session ι).link = some l₁ := rfl
      rcases second : l₁.send (.breakpoints s.breakpoints) with ⟨e | ⟨⟨⟩⟩, l₂⟩ <;>
        rw [second] at offered <;> cases offered
      · exact send_of_error linked second
      · exact send_of_ok linked second

/-- A message that is rejected changes nothing. -/
theorem accept_of_rejects {s : Session ι} {m : Message} {e : SessionError}
    (h : s.rejects? m = some e) : s.accept m = (.error e, s) := by
  cases m <;> simp only [rejects?, Option.ite_none_left_eq_some, Option.some.injEq,
    reduceCtorEq] at h
  case hello =>
    obtain ⟨phase, rfl⟩ := h
    simp only [accept, acceptHello, demand_of_ne phase]
  case paused =>
    obtain ⟨apart, rfl⟩ := h
    simp only [accept, acceptBreak, demandConnected_of_not apart]
  case trace =>
    obtain ⟨apart, rfl⟩ := h
    simp only [accept, acceptTrace, demandConnected_of_not apart]
  all_goals exact h ▸ rfl

/-- The settings or the breakpoints do not get out when the process pauses. -/
theorem handle_of_unsynced {s : Session ι} {l l' : Link} {pause : Pause} {e : LinkError}
    (connected : s.isConnected = true) (refusal : l.offer s.announcement = (some e, l')) :
    { s with link := some l }.handle (.message (.paused pause)) =
      { s with link := some l', synced := true }.lose e.message := by
  have linked : ({ s with link := some l } : Session ι).link = some l := rfl
  have connected : ({ s with link := some l } : Session ι).isConnected = true := connected
  simp only [handle, accept, acceptBreak, demandConnected_of connected, sync_of_link linked refusal]
  rfl

/-- They get out, and what is watched is queried. -/
theorem handle_of_synced {s : Session ι} {l l₁ l' : Link} {pause : Pause}
    {result : Except LinkError Unit} {requests : Requests (Callback ι)}
    (connected : s.isConnected = true) (sent : l.offer s.announcement = (none, l₁))
    (queried : Watches.query s.watches.live s.requests l₁ = (result, requests, l')) :
    { s with link := some l }.handle (.message (.paused pause)) =
      match result with
      | .error e => { s.pausedAt pause with link := some l', requests }.lose e.message
      | .ok () => { s.pausedAt pause with link := some l', requests }.status "Breaked execution." := by
  have linked : ({ s with link := some l } : Session ι).link = some l := rfl
  have connected : ({ s with link := some l } : Session ι).isConnected = true := connected
  simp only [handle, accept, acceptBreak, demandConnected_of connected, sync_of_link linked sent,
    refresh, Watches.refresh, tell, queried]
  rcases result with e | ⟨⟨⟩⟩ <;> rfl

/-- A pause of a process that has said hello. -/
theorem effect_paused {s : Session ι} {l l₀ : Link} (linked : s.link = some l) {pause : Pause}
    (polled : l.poll = some (.message (.paused pause), l₀)) (connected : s.isConnected = true) :
    Effect s .next ({ s with link := some l₀ }.handle (.message (.paused pause))) := by
  rcases sent : l₀.offer s.announcement with ⟨_ | e, l₁⟩
  · rcases queried : Watches.query s.watches.live s.requests l₁ with ⟨e | ⟨⟨⟩⟩, requests, l'⟩
    · rw [handle_of_synced connected sent queried]
      exact .unqueried linked polled connected sent queried
    · rw [handle_of_synced connected sent queried]
      exact .paused linked polled connected sent queried
  · rw [handle_of_unsynced connected sent]
    exact .unsynced linked polled connected sent

/-- What a message makes of a session. -/
theorem effect_message {s : Session ι} {l l' : Link} (linked : s.link = some l) {m : Message}
    (polled : l.poll = some (.message m, l')) :
    Effect s .next ({ s with link := some l' }.handle (.message m)) := by
  cases rejection : s.rejects? m with
  | some e =>
    have rejection' : ({ s with link := some l' } : Session ι).rejects? m = some e := rejection
    simp only [handle, accept_of_rejects rejection']
    exact .rejected linked polled rejection
  | none =>
    cases m <;> simp only [rejects?, ite_eq_left_iff, reduceCtorEq, imp_false,
      Decidable.not_not] at rejection
    case hello name =>
      have phase : ({ s with link := some l' } : Session ι).phase = .connecting := rejection
      simp only [handle, accept, acceptHello, demand_of_eq phase (by decide)]
      exact .greeted linked polled rejection
    case paused pause => exact effect_paused linked polled rejection
    case trace page =>
      have connected : ({ s with link := some l' } : Session ι).isConnected = true := rejection
      simp only [handle, accept, acceptTrace, demandConnected_of connected]
      exact .traced linked polled rejection
    case reply reply => exact .replied linked polled

theorem poll_of_link {s : Session ι} {l : Link} (linked : s.link = some l) :
    s.poll = l.poll.map fun (e, l') => (e, { s with link := some l' }) := by
  rw [poll, linked]

theorem poll_of_event {s : Session ι} {l l' : Link} {e : LinkEvent} (linked : s.link = some l)
    (polled : l.poll = some (e, l')) : s.poll = some (e, { s with link := some l' }) := by
  rw [poll_of_link linked, polled]
  rfl

/-- The next event comes from the link. -/
theorem poll_eq_some {s s' : Session ι} {e : LinkEvent} (polled : s.poll = some (e, s')) :
    ∃ l l', s.link = some l ∧ l.poll = some (e, l') ∧ s' = { s with link := some l' } := by
  cases linked : s.link with
  | none =>
    rw [poll, linked] at polled
    nomatch polled
  | some l =>
    rw [poll_of_link linked] at polled
    obtain ⟨⟨e, l'⟩, waits, eq⟩ := Option.map_eq_some_iff.1 polled
    cases eq
    exact ⟨l, l', rfl, waits, rfl⟩

/-- What the next event makes of a session. -/
theorem effect_next (s : Session ι) : Effect s .next (s.after .next) := by
  cases linked : s.link with
  | none =>
    have nothing : s.poll = none := by rw [poll, linked]
    rw [after, handleNext, nothing]
    exact .idle nothing
  | some l =>
    cases polled : l.poll with
    | none =>
      have nothing : s.poll = none := by
        rw [poll_of_link linked, polled]
        rfl
      rw [after, handleNext, nothing]
      exact .idle nothing
    | some event =>
      obtain ⟨e, l'⟩ := event
      rw [after, handleNext, poll_of_event linked polled]
      cases e with
      | message m => exact effect_message linked polled
      | disconnected reason => exact .ended linked polled
      | connected | sendingStarted | sendingStopped => exact .noticed linked polled rfl

/-- A reply makes the session forget a request at most, and tell its owner. -/
theorem acceptReply_eq (s : Session ι) (reply : Reply) :
    s.acceptReply reply =
      { s with
        requests := (s.requests.answer reply).2
        log := s.log ++ ((s.requests.answer reply).1.map (·.notice reply)).toList } := by
  unfold acceptReply
  rcases s.requests.answer reply with ⟨_ | callback, requests⟩
  · simp only [Option.map_none, Option.toList_none, List.append_nil]
  · rfl

/-! ## Giving up the link -/

theorem dropLink_eq (s : Session ι) :
    s.dropLink =
      { s with link := none, retired := s.retired ++ (s.link.map Link.abort).toList } := by
  unfold dropLink
  cases linked : s.link with
  | none =>
    simp only [Option.map_none, Option.toList_none, List.append_nil]
    rw [← linked]
  | some l => rfl

theorem lose_of_link {s : Session ι} {l : Link} (linked : s.link = some l) (reason : String) :
    s.lose reason =
      { s with link := none, retired := s.retired ++ [l.abort] }.reset.tell
        (.disconnected reason) := by
  rw [lose, dropLink_eq, linked, if_neg (by nofun)]
  rfl

/-! ## Every turn -/

/-- Every turn has one of the effects. -/
theorem effect {s : Session ι} (tied : s.Tied) (t : Turn ι) : Effect s t (s.after t) := by
  cases t with
  | connect endpoint link => exact .connect endpoint link
  | connectWith link => exact .connectWith link
  | disconnect => exact .disconnect
  | register => exact .register
  | unregister handler => exact .unregister handler
  | subscribe name kind label => exact .subscribe name kind label
  | unsubscribe id => exact .unsubscribe id
  | arrive events => exact .arrive events
  | next => exact effect_next s
  | _ => exact effect_command tied rfl

end Session

end CallDebugger
