import CallDebugger.Proofs.Traced.Heeding

/-!
# Losing the link and being told to exit

A process is in one hook at a time (`Peer.Serial`). So a hook in which the link is lost reports
that, gives the link up and sends nothing more (`Peer.Obeys`), and from then on nothing that arrives
reaches the server: its state is changed only by what the process itself reports, and every hook
fails with the first reason. A process that was told to exit is let through no more
(`Peer.losses_final`).
-/

namespace CallDebugger

variable {σ : Type}

namespace Peer

variable {p₀ p q p' p₁ : Peer σ} {es : List LinkEvent}

/-- The process does something other than going on with the hook that it waits in. -/
def Occurrence.begins : Occurrence → Bool
  | .does .attach | .does (.before _) | .does (.after ..) | .does .compilerError => true
  | .does .wake | .arrives _ => false

/-- A process is in one hook at a time: it begins nothing while a hook waits. -/
def Serial : Peer σ → List Occurrence → Prop
  | _, [] => True
  | p, o :: os => (o.begins = true → p.inside = none) ∧ (p.occur o).Serial os

/-! ## What a hook reports -/

/-- A hook that goes on from `q` obeys a loss of the link first, and an order to exit next. -/
structure Obeys (q : Peer σ) (r : Outcome) (p' : Peer σ) : Prop where
  lost : p'.lost = q.lost
  terminating : p'.terminating = q.terminating
  gone : ∀ reason, q.lost = some reason →
    r = some (.error (.disconnected reason)) ∧ p' = { q with link := q.link.abort, inside := none }
  told : q.terminating = true → ∃ e, r = some (.error e)
  inbox : q.lost = none → p'.link.inbox = q.link.inbox

theorem Checked.obeys {e : PeerError} (checked : q.Checked (.error e) p') :
    q.Obeys (some (.error e)) { p' with inside := none } := by
  cases checked with
  | gone lost =>
    refine ⟨rfl, rfl, ?_, fun _ => ⟨_, rfl⟩, ?_⟩
    · intro reason lost'
      cases lost.symm.trans lost'
      exact ⟨rfl, rfl⟩
    · intro up
      nomatch lost.symm.trans up
  | told up ending =>
    refine ⟨rfl, rfl, ?_, fun _ => ⟨_, rfl⟩, fun _ => rfl⟩
    intro reason lost
    nomatch up.symm.trans lost

/-- A hook that is not barred has nothing to obey. -/
theorem Checked.free_obeys {r : Outcome} (checked : q.Checked (.ok ()) q) (lost : p'.lost = q.lost)
    (terminating : p'.terminating = q.terminating) (inbox : p'.link.inbox = q.link.inbox) :
    q.Obeys r p' := by
  cases checked with
  | free up staying =>
    refine ⟨lost, terminating, ?_, ?_, fun _ => inbox⟩
    · intro reason lost
      nomatch up.symm.trans lost
    · intro ending
      nomatch staying.symm.trans ending

theorem inbox_of_send {m : Message} {r : Except LinkError Unit} {link : Link}
    (sent : q.link.send m = (r, link)) : link.inbox = q.link.inbox := by
  have frame := q.link.send_frame m
  rw [sent] at frame
  exact frame.2.1

theorem Begins.obeys {c : Call} {r : Outcome} (begins : q.Begins c r p') : q.Obeys r p' := by
  cases begins with
  | barred barred => exact barred.obeys
  | passes free => exact free.free_obeys rfl rfl rfl
  | unannounced free _ refused => exact free.free_obeys rfl rfl (inbox_of_send refused)
  | stops free _ taken => exact free.free_obeys rfl rfl (inbox_of_send taken)

theorem Resumes.obeys {hook : Hook} {r : Outcome} (resumes : q.Resumes hook r p') :
    q.Obeys r p' := by
  cases resumes with
  | barred barred => exact barred.obeys
  | waits free | rests free | goesOn free => exact free.free_obeys rfl rfl rfl
  | ungreeted free refused => exact free.free_obeys rfl rfl (inbox_of_send refused)
  | greets free taken => exact free.free_obeys rfl rfl (inbox_of_send taken)

/-- A hook that could not send its answers has its link. -/
theorem Pumped.obeys {e : PeerError} (pumped : p.Pumped (.error e) q) :
    q.Obeys (some (.error e)) { q with inside := none } := by
  refine ⟨rfl, rfl, ?_, fun _ => ⟨_, rfl⟩, fun _ => rfl⟩
  intro reason lost
  nomatch (pumped.dropped (by rw [lost]; rfl)).1

theorem Steady.obeys_beforeCall (h : Steady p₀ p) (c : Call) :
    p.pump.2.Obeys (p.beforeCall c).1 (p.beforeCall c).2 := by
  have pumped := h.pumped
  obtain ⟨r, p', performs, enters⟩ := p.enters_beforeCall c
  rw [performs]
  cases enters with
  | unanswered pump =>
    rw [pump] at pumped ⊢
    exact pumped.obeys
  | begins pump begins =>
    rw [pump]
    exact begins.obeys

/-! ## Having parted -/

/-- A server that has lost its link has given it up, and waits in no hook. -/
structure Parts (p₀ p : Peer σ) : Prop extends Steady p₀ p where
  parted : p.lost.isSome = true → p.link.aborted = true ∧ p.inside = none

/-- What ends the work of a server by something that happens: it takes events from the link and
comes to a result. -/
structure Ends (p : Peer σ) (es : List LinkEvent) (r : Outcome) (p' : Peer σ) : Prop where
  taken : p.link.inbox = es ++ p'.link.inbox
  lost : p'.lost = p.lost.or (es.findSome? LinkEvent.fatality?)
  terminating : p'.terminating = (p.terminating || (p.heard es).any Message.ends)
  parted : p'.lost.isSome = true → p'.link.aborted = true ∧ p'.inside = none
  gone : ∀ reason, p'.lost = some reason → ∀ x, r = some x → x = .error (.disconnected reason)
  told : p'.terminating = true → r ≠ some (.ok ())
  silent : p'.lost.isSome = true → p'.link.sent = p.link.sent

/-- A hook that goes on from what the server has made of the events obeys what they say. -/
theorem Obeys.ends {r : Outcome} (obeys : q.Obeys r p')
    (taken : p.link.inbox = es ++ p'.link.inbox)
    (lost : q.lost = p.lost.or (es.findSome? LinkEvent.fatality?))
    (terminating : q.terminating = (p.terminating || (p.heard es).any Message.ends))
    (silent : q.lost.isSome = true → q.link.sent = p.link.sent) : p.Ends es r p' where
  taken := taken
  lost := obeys.lost.trans lost
  terminating := obeys.terminating.trans terminating
  parted isLost := by
    rw [obeys.lost] at isLost
    obtain ⟨reason, gone⟩ := Option.isSome_iff_exists.1 isLost
    rw [(obeys.gone reason gone).2]
    exact ⟨rfl, rfl⟩
  gone reason isLost x result := by
    rw [obeys.lost] at isLost
    rw [(obeys.gone reason isLost).1] at result
    exact (Option.some.inj result).symm
  told ending := by
    rw [obeys.terminating] at ending
    obtain ⟨e, result⟩ := obeys.told ending
    rw [result]
    nofun
  silent isLost := by
    rw [obeys.lost] at isLost
    obtain ⟨reason, gone⟩ := Option.isSome_iff_exists.1 isLost
    rw [(obeys.gone reason gone).2]
    exact silent isLost

/-- A hook that has handled what had arrived. -/
theorem Pumped.ends {r₀ : Except PeerError Unit} {r : Outcome} (pumped : p.Pumped r₀ q)
    (obeys : q.Obeys r p') : p.Ends p.link.inbox r p' := by
  apply obeys.ends _ pumped.lost pumped.terminating
  · intro isLost
    rw [(pumped.dropped isLost).2]
  · have none : p'.link.inbox = [] := by
      cases gone : q.lost with
      | some reason =>
        rw [(obeys.gone reason gone).2]
        rfl
      | none => rw [obeys.inbox gone, (pumped.offered gone).2]
    rw [none, List.append_nil]

/-- A hook that handles nothing. -/
theorem Parts.ends_obeys (h : Parts p₀ p) {r : Outcome} (obeys : q.Obeys r p')
    (link : q.link = p.link) (lost : q.lost = p.lost)
    (terminating : q.terminating = p.terminating) : p.Ends [] r p' := by
  apply obeys.ends
  · rw [List.nil_append]
    cases gone : q.lost with
    | some reason =>
      rw [(obeys.gone reason gone).2]
      exact (h.down (h.parted (by rw [← lost, gone]; rfl)).1).2
    | none => rw [obeys.inbox gone, link]
  · rw [lost, List.findSome?_nil, Option.or_none]
  · rw [terminating, heard_nil]
    exact (Bool.or_false _).symm
  · intro _
    rw [link]

/-- A server that only reports something, or waits, comes to no result. -/
theorem Parts.ends_still (h : Parts p₀ p) (breaks : BreakState) :
    p.Ends [] none { p with breaks } where
  taken := rfl
  lost := Option.or_none.symm
  terminating := by
    rw [heard_nil]
    exact (Bool.or_false _).symm
  parted := h.parted
  gone _ _ _ := nofun
  told _ := nofun
  silent _ := rfl

/-- What an activity of a process comes to. -/
theorem Parts.ends_does (h : Parts p₀ p) (a : Activity)
    (serial : (Occurrence.does a).begins = true → p.inside = none) :
    ∃ es, p.Ends es (p.perform a).1 (p.perform a).2 := by
  cases a with
  | before c => exact ⟨_, h.pumped.ends (h.obeys_beforeCall c)⟩
  | compilerError => exact ⟨[], h.ends_still _⟩
  | attach =>
    obtain ⟨r, p', performs, resumes⟩ := p.resumes_waitForController
    rw [perform, performs]
    exact ⟨[], h.ends_obeys resumes.obeys rfl rfl rfl⟩
  | after result error output =>
    obtain ⟨breaks, r, p', -, performs, checked⟩ := p.checked_afterCall result error output
    rw [perform, performs]
    have outside : p.inside = none := serial rfl
    have same : { p' with inside := none } = p' := by
      rw [← outside]
      cases checked <;> rfl
    have obeys : Obeys { p with history := p.history.returned result error output, breaks } (some r)
        p' := by
      rcases r with e | ⟨⟨⟩⟩
      · rw [← same]
        exact checked.obeys
      · obtain rfl := checked.eq
        exact checked.free_obeys rfl rfl rfl
    exact ⟨[], h.ends_obeys obeys rfl rfl rfl⟩
  | wake =>
    have pumped := h.pumped
    obtain ⟨r, p', performs, continues⟩ := p.continues_wake
    rw [perform, performs]
    cases continues with
    | idle => exact ⟨[], h.ends_still p.breaks⟩
    | torn inside down => cases inside.symm.trans (h.parted (h.down down).1).2
    | unanswered _ _ pump =>
      rw [pump] at pumped
      exact ⟨_, pumped.ends pumped.obeys⟩
    | resumes _ _ pump resumes =>
      rw [pump] at pumped
      exact ⟨_, pumped.ends resumes.obeys⟩

/-- What comes of something that happens, as far as it ends the work of the server. -/
structure Episode.Counts (e : Episode σ) : Prop where
  lost : e.after.lost = e.before.lost.or (e.batch.findSome? LinkEvent.fatality?)
  terminating : e.after.terminating = (e.before.terminating || e.handled.any Message.ends)
  parted : e.after.lost.isSome = true → e.after.link.aborted = true ∧ e.after.inside = none

theorem Steady.tidy (h : Steady p₀ p) : p.Tidy := ⟨h.outbox, fun down => (h.down down).1⟩

theorem Parts.counts (h : Parts p₀ p) (o : Occurrence)
    (serial : o.begins = true → p.inside = none) : Episode.Counts ⟨p, o⟩ := by
  have inbox := (Tidy.episode (e := ⟨p, o⟩) h.tidy).inbox
  cases o with
  | does a =>
    obtain ⟨es, ends⟩ := h.ends_does a serial
    have batch : Episode.batch ⟨p, .does a⟩ = es :=
      List.append_cancel_right (inbox.symm.trans ((List.append_nil _).trans ends.taken))
    refine ⟨?_, ?_, ends.parted⟩
    · rw [batch]
      exact ends.lost
    · rw [Episode.handled, batch]
      exact ends.terminating
  | arrives events =>
    have batch := p.batch_arrives events
    refine ⟨?_, ?_, ?_⟩
    · rw [batch]
      exact Option.or_none.symm
    · rw [Episode.handled, batch, heard_nil]
      exact (Bool.or_false _).symm
    · intro lost
      obtain ⟨down, outside⟩ := h.parted lost
      refine ⟨?_, outside⟩
      show (p.link.push events).aborted = true
      rw [Link.push, if_pos down]
      exact down

/-- What comes of a run, as far as it ends the work of the server. -/
structure Counted (p : Peer σ) (es : List (Episode σ)) (p' : Peer σ) : Prop where
  lost : p'.lost = p.lost.or ((es.flatMap Episode.batch).findSome? LinkEvent.fatality?)
  terminating :
    p'.terminating = (p.terminating || (es.flatMap Episode.handled).any Message.ends)

theorem Parts.live (h : Parts p₀ p) {os : List Occurrence} (serial : p.Serial os) :
    Parts p₀ (p.live os) ∧ p.Counted (p.episodes os) (p.live os) := by
  induction os generalizing p with
  | nil => exact ⟨h, Option.or_none.symm, (Bool.or_false _).symm⟩
  | cons o os ih =>
    have counts := h.counts o serial.1
    obtain ⟨parts, counted⟩ := ih ⟨h.toSteady.occur o, counts.parted⟩ serial.2
    refine ⟨parts, ?_, ?_⟩
    · rw [episodes, List.flatMap_cons, List.findSome?_append, ← Option.or_assoc, ← counts.lost]
      exact counted.lost
    · rw [episodes, List.flatMap_cons, List.any_append, ← Bool.or_assoc, ← counts.terminating]
      exact counted.terminating

/-! ## After the loss -/

theorem Parts.abort (h : Parts p₀ p) (lost : p.lost.isSome = true) : p.link.abort = p.link := by
  obtain ⟨down, -⟩ := h.parted lost
  have none := (h.down down).2
  rw [Link.abort, ← down, ← none]

/-- Once the link is lost, a hook only says so. -/
theorem Parts.obeyed (h : Parts p₀ p) {reason : String} (lost : p.lost = some reason)
    {r : Outcome} (inside : Option Hook) (obeys : Obeys { p with inside } r p') :
    r = some (.error (.disconnected reason)) ∧ p' = p := by
  obtain ⟨result, same⟩ := obeys.gone reason lost
  have isLost : p.lost.isSome = true := by rw [lost]; rfl
  refine ⟨result, same.trans ?_⟩
  show ({ p with link := p.link.abort, inside := none } : Peer σ) = p
  rw [h.abort isLost, ← (h.parted isLost).2]

/-- Once the link is lost, there is nothing to handle. -/
theorem Parts.pump (h : Parts p₀ p) (lost : p.lost.isSome = true) : p.pump = (.ok (), p) := by
  have drained : p.drain = p := if_pos (h.parted lost).1
  rw [Peer.pump, drained, flush_of_lost lost, ← h.outbox]

/-- What becomes of a server that has lost its link. -/
structure Deaf (p : Peer σ) (reason : String) : Prop where
  attach : p.waitForController = (some (.error (.disconnected reason)), p)
  before : ∀ c, p.beforeCall c = (some (.error (.disconnected reason)), p)
  after : ∀ result error output, ∃ breaks, Warned p.breaks breaks ∧
    p.afterCall result error output = (.error (.disconnected reason),
      { p with history := p.history.returned result error output, breaks })
  wake : p.wake = (none, p)
  arrive : ∀ events, p.arrive events = p

theorem Parts.deaf (h : Parts p₀ p) {reason : String} (lost : p.lost = some reason) :
    p.Deaf reason := by
  have isLost : p.lost.isSome = true := by rw [lost]; rfl
  obtain ⟨down, outside⟩ := h.parted isLost
  constructor
  · obtain ⟨r, p', performs, resumes⟩ := p.resumes_waitForController
    obtain ⟨rfl, rfl⟩ := h.obeyed lost (some .attach) resumes.obeys
    exact performs
  · intro c
    obtain ⟨r, p', performs, begins⟩ := begins_beforeCall (h.pump isLost) c
    obtain ⟨rfl, rfl⟩ := h.obeyed lost p.inside begins.obeys
    exact performs
  · intro result error output
    obtain ⟨breaks, r, p', warned, performs, checked⟩ := p.checked_afterCall result error output
    refine ⟨breaks, warned, performs.trans ?_⟩
    cases checked with
    | gone lost' =>
      have same : some _ = some reason := lost'.symm.trans lost
      cases same
      simp only [h.abort isLost]
    | told up | free up =>
      have up : p.lost = none := up
      nomatch up.symm.trans lost
  · exact wake_of_idle (.inl outside)
  · intro events
    unfold Peer.arrive Link.push
    rw [if_pos down]

theorem Deaf.occur {reason : String} (deaf : p.Deaf reason) (o : Occurrence) :
    ∃ history breaks, p.occur o = { p with history, breaks } := by
  cases o with
  | arrives events => exact ⟨p.history, p.breaks, deaf.arrive events⟩
  | does a =>
    cases a with
    | attach => exact ⟨p.history, p.breaks, congrArg Prod.snd deaf.attach⟩
    | before c => exact ⟨p.history, p.breaks, congrArg Prod.snd (deaf.before c)⟩
    | wake => exact ⟨p.history, p.breaks, congrArg Prod.snd deaf.wake⟩
    | compilerError => exact ⟨p.history, p.breaks.reportCompilerError, rfl⟩
    | after result error output =>
      obtain ⟨breaks, -, performs⟩ := deaf.after result error output
      refine ⟨p.history.returned result error output, breaks, ?_⟩
      show (p.perform (.after result error output)).2 = _
      rw [perform, performs]

/-- Whatever happens once the link is lost, only what the process reports makes a difference. -/
theorem Parts.live_of_lost (h : Parts p₀ p) {reason : String} (lost : p.lost = some reason)
    (os : List Occurrence) : ∃ history breaks, p.live os = { p with history, breaks } := by
  induction os generalizing p with
  | nil => exact ⟨p.history, p.breaks, rfl⟩
  | cons o os ih =>
    obtain ⟨history, breaks, same⟩ := (h.deaf lost).occur o
    have steady := h.toSteady.occur o
    rw [same] at steady
    obtain ⟨history', breaks', later⟩ :=
      ih (p := { p with history, breaks }) ⟨steady, h.parted⟩ lost
    refine ⟨history', breaks', ?_⟩
    show (p.occur o).live os = _
    rw [same, later]

/-! ## In the same batch -/

/-- A server that fails because its link is lost. -/
def failed (q : Peer σ) : Peer σ := { q with outbox := [], link := q.link.abort, inside := none }

theorem Steady.lost_drain (h : Steady p₀ p) :
    p.drain.lost = p.lost.or (p.link.inbox.findSome? LinkEvent.fatality?) := by
  rw [h.drain_eq, lost_foldl]

/-- What arrives after an event that is fatal makes no difference. -/
theorem Steady.drain_arrive (h : Steady p₀ p) (lost : p.drain.lost.isSome = true)
    (later : List LinkEvent) :
    ∃ connected, (p.arrive later).drain = { p.drain with connected } := by
  by_cases down : p.link.aborted = true
  · have same : p.arrive later = p := by
      unfold Peer.arrive Link.push
      rw [if_pos down]
    rw [same]
    exact ⟨p.drain.connected, rfl⟩
  · have inbox : (p.arrive later).link = { p.link with inbox := p.link.inbox ++ later } :=
      if_neg down
    rw [(h.arrive later).drain_eq, inbox, List.foldl_append]
    rw [h.drain_eq] at lost ⊢
    exact ⟨_, foldl_of_lost lost later⟩

theorem pump_of_lost (lost : p.drain.lost.isSome = true) :
    p.pump = (.ok (), { p.drain with outbox := [] }) := by
  rw [Peer.pump, flush_of_lost lost]

theorem beforeCall_of_lost {reason : String} (lost : p.drain.lost = some reason) (c : Call) :
    p.beforeCall c = (some (.error (.disconnected reason)), p.drain.failed) := by
  have isLost : p.drain.lost.isSome = true := by rw [lost]; rfl
  obtain ⟨r, p', performs, begins⟩ := begins_beforeCall (pump_of_lost isLost) c
  obtain ⟨rfl, rfl⟩ := begins.obeys.gone reason lost
  exact performs

theorem wake_of_lost {reason : String} (lost : p.drain.lost = some reason) {hook : Hook}
    (inside : p.inside = some hook) (awake : p.canWake = true) (up : p.link.aborted = false) :
    p.wake = (some (.error (.disconnected reason)), p.drain.failed) := by
  have isLost : p.drain.lost.isSome = true := by rw [lost]; rfl
  have block : p.block = (.ok (), { p.drain with outbox := [] }) :=
    (if_neg (by rw [up]; nofun)).trans (pump_of_lost isLost)
  obtain ⟨r, p', performs, resumes⟩ := resumes_wake inside awake block
  obtain ⟨rfl, rfl⟩ := resumes.obeys.gone reason lost
  exact performs

/-- What arrives after an event that is fatal makes no difference to the hook that handles it. -/
theorem Steady.loses (h : Steady p₀ p) {reason : String} (up : p.lost = none)
    (fatal : p.link.inbox.findSome? LinkEvent.fatality? = some reason) (later : List LinkEvent) :
    ∃ connected,
      (∀ c, (p.arrive later).beforeCall c =
        (some (.error (.disconnected reason)), { (p.beforeCall c).2 with connected })) ∧
      (p.inside.isSome = true → (p.arrive later).wake =
        (some (.error (.disconnected reason)), { p.wake.2 with connected })) := by
  have lost : p.drain.lost = some reason := by
    rw [h.lost_drain, up, fatal]
    rfl
  have live := h.not_aborted up
  have some_awake : ∀ inbox : List LinkEvent, inbox ≠ [] → ∀ q : Peer σ, q.link.inbox = inbox →
      q.canWake = true := by
    intro inbox some q same
    unfold canWake
    rw [same, Bool.or_eq_true]
    right
    simpa using some
  have arrived : p.link.inbox ≠ [] := by
    intro none
    rw [none] at fatal
    nomatch fatal
  obtain ⟨connected, same⟩ := h.drain_arrive (by rw [lost]; rfl) later
  have lost' : (p.arrive later).drain.lost = some reason := by
    rw [same]
    exact lost
  refine ⟨connected, ?_, ?_⟩
  · intro c
    rw [beforeCall_of_lost lost c, beforeCall_of_lost lost' c, same]
    rfl
  · intro waits
    obtain ⟨hook, inside⟩ := Option.isSome_iff_exists.1 waits
    have link : (p.arrive later).link = { p.link with inbox := p.link.inbox ++ later } :=
      Link.push_of_up live later
    have more : p.link.inbox ++ later ≠ [] := by
      intro none
      exact arrived (List.append_eq_nil_iff.1 none).1
    rw [wake_of_lost lost inside (some_awake _ arrived p rfl) live,
      wake_of_lost lost' inside (some_awake _ more _ (by rw [link])) (by rw [link]; exact live),
      same]
    rfl

/-! ## The whole run -/

theorem mem_of_ends {ms : List Message} :
    ms.any Message.ends = true ↔ .terminate ∈ ms := by
  rw [List.any_eq_true]
  constructor
  · rintro ⟨m, mem, ends⟩
    cases m with
    | terminate => exact mem
    | _ => nomatch ends
  · intro mem
    exact ⟨_, mem, rfl⟩

/-- **A loss is final, and so is an order to exit.** Let anything happen to a server, over whatever
link, the process being in one hook at a time.

* The link is lost by the first event that a hook has taken from it and that is fatal: a failure of
  the link, or a message that no controller sends. The process was told to exit if a hook has
  handled a message that says so.
* A hook that comes to a result once the link is lost reports the loss, whatever else it was told,
  and has sent nothing; one that comes to a result once the process was told to exit fails.
* What arrives after the fatal event makes no difference to the hook that takes both, beside that
  the server may learn that there is a controller.
* Once the link is lost every hook says so, with the same reason, nothing that arrives reaches the
  server, and whatever happens only the history and the break state change, by what the process
  itself reports.
* An order to exit is not forgotten. -/
theorem losses_final (verdict : Nat → Message → Option LinkError) (inspector : Inspector σ)
    (objects : σ) (capacity : Nat) (os : List Occurrence)
    (serial : (listen (.fresh verdict) inspector objects capacity).Serial os) :
    let start := listen (.fresh verdict) inspector objects capacity
    let p := start.live os
    p.lost = ((start.episodes os).flatMap Episode.batch).findSome? LinkEvent.fatality? ∧
    (p.terminating = true ↔ .terminate ∈ (start.episodes os).flatMap Episode.handled) ∧
    (∀ a r, ((Occurrence.does a).begins = true → p.inside = none) → (p.perform a).1 = some r →
      (∀ reason, (p.perform a).2.lost = some reason →
        r = .error (.disconnected reason) ∧ (p.perform a).2.link.sent = p.link.sent) ∧
      ((p.perform a).2.terminating = true → r ≠ .ok ())) ∧
    (∀ reason, p.lost = none → p.link.inbox.findSome? LinkEvent.fatality? = some reason →
      ∀ later, ∃ connected,
        (∀ c, (p.arrive later).beforeCall c =
          (some (.error (.disconnected reason)), { (p.beforeCall c).2 with connected })) ∧
        (p.inside.isSome = true → (p.arrive later).wake =
          (some (.error (.disconnected reason)), { p.wake.2 with connected }))) ∧
    (∀ reason, p.lost = some reason →
      p.waitForController = (some (.error (.disconnected reason)), p) ∧
      (∀ c, p.beforeCall c = (some (.error (.disconnected reason)), p)) ∧
      (∀ result error output, ∃ breaks, p.afterCall result error output =
        (.error (.disconnected reason),
          { p with history := p.history.returned result error output, breaks })) ∧
      (∀ events, p.arrive events = p) ∧ p.wake = (none, p) ∧
      ∀ more, ∃ history breaks, p.live more = { p with history, breaks }) ∧
    (p.terminating = true → ∀ more, p.Serial more → (p.live more).terminating = true) := by
  intro start p
  have listening : Parts start start := ⟨steady_listen verdict inspector objects capacity, nofun⟩
  obtain ⟨parts, counted⟩ := listening.live serial
  refine ⟨counted.lost, ?_, ?_, ?_, ?_, ?_⟩
  · rw [← mem_of_ends]
    exact iff_of_eq (congrArg (· = true) counted.terminating)
  · intro a r outside result
    obtain ⟨es, ends⟩ := parts.ends_does a outside
    refine ⟨?_, ?_⟩
    · intro reason lost
      exact ⟨ends.gone reason lost r result, ends.silent (by rw [lost]; rfl)⟩
    · rintro ending rfl
      exact ends.told ending result
  · intro reason up fatal later
    exact parts.loses up fatal later
  · intro reason lost
    have deaf := parts.deaf lost
    refine ⟨deaf.attach, deaf.before, ?_, deaf.arrive, deaf.wake, parts.live_of_lost lost⟩
    intro result error output
    obtain ⟨breaks, -, performs⟩ := deaf.after result error output
    exact ⟨breaks, performs⟩
  · intro ending more serial
    rw [(parts.live serial).2.terminating, ending, Bool.true_or]

/-- While the process is paused, one batch brings an order to exit, a message that no controller
sends, an order to go on and a failure of the link. -/
theorem losses_final_one_batch :
    ∃ os : List Occurrence,
      (listen (.fresh fun _ _ => none) Exhibition.inspector default 8).Serial os ∧
      let p := (listen (.fresh fun _ _ => none) Exhibition.inspector default 8).live os
      p.terminating = true ∧ p.lost = some "unhandled message: msg.hello" ∧
      p.waitForController =
        (some (.error (.disconnected "unhandled message: msg.hello")), p) := by
  have serial : (listen (.fresh fun _ _ => none) Exhibition.inspector default 8).Serial
      [.does .attach, .arrives [.connected], .does .wake, .does (.before default),
        .arrives [.message .terminate, .message (.hello "demo"),
          .message (.proceed (.stepping .call)), .disconnected "reset"], .does .wake] :=
    ⟨fun _ => rfl, nofun, nofun, fun _ => rfl, nofun, nofun, trivial⟩
  obtain ⟨-, -, -, -, lost, -⟩ :=
    losses_final (fun _ _ => none) Exhibition.inspector default 8 _ serial
  exact ⟨_, serial, rfl, rfl, (lost _ rfl).1⟩

end Peer

end CallDebugger
