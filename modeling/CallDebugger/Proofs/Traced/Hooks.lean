import CallDebugger.Proofs.Link.Offer
import CallDebugger.Traced.Peer

/-!
# What hooks come to

The hook before a call (`Peer.Enters`) and a hook that goes on (`Peer.Continues`) first handle and
answer what has arrived. From there on they come to one of a few things (`Peer.Begins`,
`Peer.Resumes`): the hook is barred because the link is lost or the process was told to exit
(`Peer.Checked`), or the link refuses what it has to say, or it lets the process go on or waits. The
hook after a call reports what came back, and is barred or not (`Peer.checked_afterCall`).
-/

namespace CallDebugger

variable {σ : Type}

/-- Whatever is reported may make the next call pause, no more. -/
structure Warned (s s' : BreakState) : Prop where
  paused : s'.paused = s.paused
  settings : s'.settings = s.settings
  breakpoints : s'.breakpoints = s.breakpoints

theorem Warned.refl (s : BreakState) : Warned s s := ⟨rfl, rfl, rfl⟩

theorem Warned.trans {s₁ s₂ s₃ : BreakState} (first : Warned s₁ s₂) (second : Warned s₂ s₃) :
    Warned s₁ s₃ :=
  ⟨second.paused.trans first.paused, second.settings.trans first.settings,
    second.breakpoints.trans first.breakpoints⟩

theorem warned_reportError (s : BreakState) : Warned s s.reportError := by
  unfold BreakState.reportError
  split <;> exact ⟨rfl, rfl, rfl⟩

theorem warned_reportDebugOutput (s : BreakState) : Warned s s.reportDebugOutput := by
  unfold BreakState.reportDebugOutput
  split <;> exact ⟨rfl, rfl, rfl⟩

theorem warned_reportCompilerError (s : BreakState) : Warned s s.reportCompilerError := by
  unfold BreakState.reportCompilerError
  split <;> exact ⟨rfl, rfl, rfl⟩

theorem warned_after (s : BreakState) (kind : CallKind) : Warned s (s.after kind) := by
  unfold BreakState.after
  split <;> exact ⟨rfl, rfl, rfl⟩

/-- The break state of a process that has paused. -/
def BreakState.held (s : BreakState) : BreakState :=
  { s with paused := true, breakNext := false, pendingStep := none }

theorem BreakState.before_of_hits {s : BreakState} {e : Entrypoint} (hits : s.hits e = true) :
    s.before e = (true, s.held) :=
  if_pos hits

theorem BreakState.before_of_misses {s : BreakState} {e : Entrypoint} (misses : s.hits e = false) :
    s.before e = (false, s) :=
  if_neg (by rw [misses]; nofun)

/-- The break state after the newest call has returned, if there is one. -/
def BreakState.returned (s : BreakState) (kind : Call → CallKind) : Option Call → BreakState
  | some c => s.after (kind c)
  | none => s

theorem Warned.returned {s s' : BreakState} (warned : Warned s s') (kind : Call → CallKind)
    (newest : Option Call) : Warned s (s'.returned kind newest) := by
  cases newest with
  | none => exact warned
  | some c => exact warned.trans (warned_after s' (kind c))

/-- The history after a call has returned. -/
def History.returned (h : History) (result : Option Value) (error : UInt32)
    (output : Option String) : History :=
  let h := match result with
    | some value => h.setResult value
    | none => h
  let h := if error = 0 then h else h.setError error
  match output with
  | some text => h.setDebugOutput text
  | none => h

namespace Peer

variable {p q p' : Peer σ}

/-! ## Sending -/

/-- The result of a hook that has offered messages to its link. -/
def result : Option LinkError → Except PeerError Unit
  | none => .ok ()
  | some e => .error (.link e)

theorem eq_none_of_result {refusal : Option LinkError} (ok : .ok () = result refusal) :
    refusal = none := by
  cases refusal with
  | none => rfl
  | some e => cases ok

theorem exists_of_result {refusal : Option LinkError} {e : PeerError}
    (failed : .error e = result refusal) : ∃ reason, refusal = some reason ∧ e = .link reason := by
  cases refusal with
  | none => cases failed
  | some reason =>
    cases failed
    exact ⟨reason, rfl, rfl⟩

theorem sendAll_eq (p : Peer σ) (ms : List Message) :
    p.sendAll ms = (result (p.link.offer ms).1, { p with link := (p.link.offer ms).2 }) := by
  induction ms generalizing p with
  | nil => rfl
  | cons m ms ih =>
    rw [sendAll, send, Link.offer]
    rcases p.link.send m with ⟨_ | _, link⟩
    · rfl
    · exact ih _

/-- The answers of a server that has lost its link are dropped. -/
theorem flush_of_lost (lost : p.lost.isSome = true) : p.flush = (.ok (), { p with outbox := [] }) :=
  if_pos lost

theorem flush_of_up (up : p.lost = none) :
    p.flush = (result (p.link.offer p.outbox).1,
      { p with outbox := [], link := (p.link.offer p.outbox).2 }) := by
  have going : ¬ p.lost.isSome = true := by rw [up]; nofun
  rw [flush, if_neg going, sendAll_eq]

/-! ## Being barred -/

/-- What a server may do is told by whether it has its link, and whether the process was told to
exit. -/
inductive Checked (q : Peer σ) : Except PeerError Unit → Peer σ → Prop where
  | gone {reason : String} (lost : q.lost = some reason) :
      Checked q (.error (.disconnected reason)) { q with link := q.link.abort }
  | told (up : q.lost = none) (ending : q.terminating = true) :
      Checked q (.error .terminateRequested) q
  | free (up : q.lost = none) (staying : q.terminating = false) : Checked q (.ok ()) q

theorem check_of_gone {reason : String} (lost : q.lost = some reason) :
    q.check = (.error (.disconnected reason), { q with link := q.link.abort }) := by
  simp only [check, lost]

theorem check_of_ending (up : p.lost = none) (ending : p.terminating = true) :
    p.check = (.error .terminateRequested, p) := by
  simp only [check, up, if_pos ending]

theorem check_of_staying (up : p.lost = none) (staying : ¬ p.terminating = true) :
    p.check = (.ok (), p) := by
  simp only [check, up, if_neg staying]

theorem checked (q : Peer σ) : ∃ r q', q.check = (r, q') ∧ q.Checked r q' := by
  cases gone : q.lost with
  | some reason => exact ⟨_, _, check_of_gone gone, .gone gone⟩
  | none =>
    cases ending : q.terminating with
    | true => exact ⟨_, _, check_of_ending gone ending, .told gone ending⟩
    | false => exact ⟨_, _, check_of_staying gone (by simp [ending]), .free gone ending⟩

theorem Checked.eq (checked : q.Checked (.ok ()) p') : p' = q := by
  cases checked
  rfl

/-- It does not matter where the process is. -/
theorem Checked.elsewhere {r : Except PeerError Unit} (checked : q.Checked r p')
    (inside : Option Hook) : Checked { q with inside } r { p' with inside } := by
  cases checked with
  | gone lost => exact .gone lost
  | told up ending => exact .told up ending
  | free up staying => exact .free up staying

/-! ## What hooks come to -/

/-- The pause that is announced before a call. -/
def pauseAt (p : Peer σ) (c : Call) : Pause :=
  ⟨c, UInt64.ofNat p.history.length, p.inspector.currentContext p.objects,
    p.inspector.contextReports p.objects⟩

/-- A process that is let through to a call. -/
def permitted (p : Peer σ) (c : Call) : Peer σ :=
  { p with history := p.history.add c, inside := none }

/-- What the hook before a call comes to once the server is `q`, which has handled and answered what
had arrived. -/
inductive Begins (q : Peer σ) (c : Call) : Outcome → Peer σ → Prop where
  | barred {e : PeerError} {q' : Peer σ} (barred : q.Checked (.error e) q') :
      Begins q c (some (.error e)) { q' with inside := none }
  | passes (free : q.Checked (.ok ()) q) (misses : q.breaks.hits c.entrypoint = false) :
      Begins q c (some (.ok ())) (q.permitted c)
  | unannounced {e : LinkError} {link : Link} (free : q.Checked (.ok ()) q)
      (hits : q.breaks.hits c.entrypoint = true)
      (refused : q.link.send (.paused (q.pauseAt c)) = (.error e, link)) :
      Begins q c (some (.error (.link e))) { q with link, breaks := q.breaks.held, inside := none }
  | stops {link : Link} (free : q.Checked (.ok ()) q) (hits : q.breaks.hits c.entrypoint = true)
      (taken : q.link.send (.paused (q.pauseAt c)) = (.ok (), link)) :
      Begins q c none { q with link, breaks := q.breaks.held, inside := some (.call c) }

/-- What a hook that waits comes to once the server is `q`, which has handled and answered what had
arrived. -/
inductive Resumes (q : Peer σ) : Hook → Outcome → Peer σ → Prop where
  | barred {hook : Hook} {e : PeerError} {q' : Peer σ} (barred : q.Checked (.error e) q') :
      Resumes q hook (some (.error e)) { q' with inside := none }
  /-- There is no controller yet. -/
  | waits (free : q.Checked (.ok ()) q) (alone : q.connected = false) : Resumes q .attach none q
  | ungreeted {e : LinkError} {link : Link} (free : q.Checked (.ok ()) q)
      (refused : q.link.send (.hello (q.inspector.processName q.objects)) = (.error e, link)) :
      Resumes q .attach (some (.error (.link e))) { q with link, inside := none }
  | greets {link : Link} (free : q.Checked (.ok ()) q)
      (taken : q.link.send (.hello (q.inspector.processName q.objects)) = (.ok (), link)) :
      Resumes q .attach (some (.ok ())) { q with link, inside := none }
  | rests {c : Call} (free : q.Checked (.ok ()) q) (paused : q.breaks.paused = true) :
      Resumes q (.call c) none q
  | goesOn {c : Call} (free : q.Checked (.ok ()) q) (going : q.breaks.paused = false) :
      Resumes q (.call c) (some (.ok ())) (q.permitted c)

/-- A hook that could not send its answers fails. -/
theorem beforeCall_of_error {e : PeerError} (pump : p.pump = (.error e, q)) (c : Call) :
    p.beforeCall c = (some (.error e), { q with inside := none }) := by
  simp only [beforeCall, pump, leave]

theorem begins_beforeCall (pump : p.pump = (.ok (), q)) (c : Call) :
    ∃ r p', p.beforeCall c = (r, p') ∧ q.Begins c r p' := by
  obtain ⟨r, q', check, checked⟩ := q.checked
  rcases r with e | ⟨⟨⟩⟩
  · refine ⟨_, _, ?_, .barred checked⟩
    simp only [beforeCall, pump, check, leave]
  obtain rfl := checked.eq
  cases hits : q'.breaks.hits c.entrypoint with
  | false =>
    refine ⟨_, _, ?_, .passes checked hits⟩
    simp only [beforeCall, pump, check, BreakState.before_of_misses hits, Bool.false_eq_true,
      if_false, permit, leave, permitted]
  | true =>
    rcases sent : q'.link.send (.paused (q'.pauseAt c)) with ⟨e | ⟨⟨⟩⟩, link⟩
    · refine ⟨_, _, ?_, .unannounced checked hits sent⟩
      unfold pauseAt at sent
      simp only [beforeCall, pump, check, BreakState.before_of_hits hits, if_true, send, sent,
        leave]
    · refine ⟨_, _, ?_, .stops checked hits sent⟩
      unfold pauseAt at sent
      simp only [beforeCall, pump, check, BreakState.before_of_hits hits, if_true, send, sent]

/-- What the hook before a call comes to. -/
inductive Enters (p : Peer σ) (c : Call) : Outcome → Peer σ → Prop where
  /-- The link refuses an answer. -/
  | unanswered {e : PeerError} {q : Peer σ} (pump : p.pump = (.error e, q)) :
      Enters p c (some (.error e)) { q with inside := none }
  | begins {r : Outcome} {q p' : Peer σ} (pump : p.pump = (.ok (), q))
      (begins : q.Begins c r p') : Enters p c r p'

theorem enters_beforeCall (p : Peer σ) (c : Call) :
    ∃ r p', p.beforeCall c = (r, p') ∧ p.Enters c r p' := by
  rcases pump : p.pump with ⟨e | ⟨⟨⟩⟩, q⟩
  · exact ⟨_, _, beforeCall_of_error pump c, .unanswered pump⟩
  · obtain ⟨r, p', performs, begins⟩ := begins_beforeCall pump c
    exact ⟨r, p', performs, .begins pump begins⟩

theorem Checked.bars {e : PeerError} (checked : q.Checked (.error e) p') (inside : Option Hook)
    (hook : Hook) :
    Resumes { q with inside } hook (some (.error e)) { p' with inside := none } := by
  have barred : Resumes { q with inside } hook _ _ := .barred (checked.elsewhere inside)
  exact barred

/-- Introducing the process, wherever it is. -/
theorem resumes_introduce (q : Peer σ) :
    ∃ r p', q.introduce = (some r, p') ∧
      ∀ inside, Resumes { q with inside } .attach (some r) p' := by
  obtain ⟨r, q', check, checked⟩ := q.checked
  rcases r with e | ⟨⟨⟩⟩
  · refine ⟨.error e, { q' with inside := none }, ?_, ?_⟩
    · simp only [introduce, check, leave]
    · intro inside
      exact checked.bars inside _
  obtain rfl := checked.eq
  rcases sent : q'.link.send (.hello (q'.inspector.processName q'.objects)) with ⟨e | ⟨⟨⟩⟩, link⟩
  · refine ⟨.error (.link e), { q' with link, inside := none }, ?_, ?_⟩
    · simp only [introduce, check, send, sent, leave]
    · intro inside
      exact .ungreeted (checked.elsewhere inside) sent
  · refine ⟨.ok (), { q' with link, inside := none }, ?_, ?_⟩
    · simp only [introduce, check, send, sent, leave]
    · intro inside
      exact .greets (checked.elsewhere inside) sent

/-- Waiting for a controller is going on with that wait. -/
theorem resumes_waitForController (p : Peer σ) : ∃ r p', p.waitForController = (r, p') ∧
    Resumes { p with inside := some .attach } .attach r p' := by
  unfold waitForController
  by_cases connected : p.connected = true
  · obtain ⟨r, p', introduce, resumes⟩ := p.resumes_introduce
    refine ⟨some r, p', ?_, resumes _⟩
    rw [if_pos connected, introduce]
  · rw [if_neg connected]
    obtain ⟨r, q, check, checked⟩ := p.checked
    rw [check]
    rcases r with e | ⟨⟨⟩⟩
    · exact ⟨some (.error e), { q with inside := none }, rfl, checked.bars _ _⟩
    · obtain rfl := checked.eq
      exact ⟨_, _, rfl, .waits (checked.elsewhere _) (Bool.eq_false_iff.2 connected)⟩

/-! ## Going on -/

/-- A hook waits as long as there is nothing to handle. -/
theorem wake_of_idle (idle : p.inside = none ∨ p.canWake = false) : p.wake = (none, p) := by
  unfold wake
  rcases idle with outside | asleep
  · simp only [outside]
  · cases p.inside with
    | none => rfl
    | some hook => simp only [asleep, Bool.not_false, if_true]

/-- A hook that could not send its answers fails. -/
theorem wake_of_error {hook : Hook} {e : PeerError} (inside : p.inside = some hook)
    (awake : p.canWake = true) (block : p.block = (.error e, q)) :
    p.wake = (some (.error e), { q with inside := none }) := by
  simp only [wake, inside, awake, Bool.not_true, Bool.false_eq_true, if_false, block, leave]

theorem resumes_wake {hook : Hook} (inside : p.inside = some hook) (awake : p.canWake = true)
    (block : p.block = (.ok (), q)) :
    ∃ r p', p.wake = (r, p') ∧ q.Resumes hook r p' := by
  unfold wake
  obtain ⟨r, q', check, checked⟩ := q.checked
  cases hook with
  | attach =>
    simp only [inside, awake, Bool.not_true, Bool.false_eq_true, if_false, block]
    by_cases connected : q.connected = true
    · obtain ⟨r, p', introduce, resumes⟩ := q.resumes_introduce
      refine ⟨some r, p', ?_, resumes q.inside⟩
      rw [if_pos connected, introduce]
    · rw [if_neg connected, check]
      rcases r with e | ⟨⟨⟩⟩
      · exact ⟨_, _, rfl, .barred checked⟩
      · obtain rfl := checked.eq
        exact ⟨_, _, rfl, .waits checked (Bool.eq_false_iff.2 connected)⟩
  | call c =>
    simp only [inside, awake, Bool.not_true, Bool.false_eq_true, if_false, block, check]
    rcases r with e | ⟨⟨⟩⟩
    · exact ⟨_, _, rfl, .barred checked⟩
    obtain rfl := checked.eq
    by_cases paused : q'.breaks.paused = true
    · exact ⟨_, _, if_pos paused, .rests checked paused⟩
    · exact ⟨_, _, if_neg paused, .goesOn checked (Bool.eq_false_iff.2 paused)⟩

/-- What going on with the hook that waits comes to. -/
inductive Continues (p : Peer σ) : Outcome → Peer σ → Prop where
  /-- No hook waits, or there is nothing to handle. -/
  | idle (idle : p.inside = none ∨ p.canWake = false) : Continues p none p
  | torn {hook : Hook} (inside : p.inside = some hook) (down : p.link.aborted = true) :
      Continues p (some (.error (.link .closed))) { p with inside := none }
  /-- The link refuses an answer. -/
  | unanswered {hook : Hook} {e : PeerError} {q : Peer σ} (inside : p.inside = some hook)
      (up : p.link.aborted = false) (pump : p.pump = (.error e, q)) :
      Continues p (some (.error e)) { q with inside := none }
  | resumes {hook : Hook} {r : Outcome} {q p' : Peer σ} (inside : p.inside = some hook)
      (up : p.link.aborted = false) (pump : p.pump = (.ok (), q)) (resumes : q.Resumes hook r p') :
      Continues p r p'

theorem continues_wake (p : Peer σ) : ∃ r p', p.wake = (r, p') ∧ p.Continues r p' := by
  cases inside : p.inside with
  | none => exact ⟨_, _, wake_of_idle (.inl inside), .idle (.inl inside)⟩
  | some hook =>
    cases awake : p.canWake with
    | false => exact ⟨_, _, wake_of_idle (.inr awake), .idle (.inr awake)⟩
    | true =>
      cases down : p.link.aborted with
      | true => exact ⟨_, _, wake_of_error inside awake (if_pos down), .torn inside down⟩
      | false =>
        have block : p.block = p.pump := if_neg (by simp [down])
        rcases pump : p.pump with ⟨e | ⟨⟨⟩⟩, q⟩
        · exact ⟨_, _, wake_of_error inside awake (block.trans pump), .unanswered inside down pump⟩
        · obtain ⟨r, p', performs, resumes⟩ := resumes_wake inside awake (block.trans pump)
          exact ⟨r, p', performs, .resumes inside down pump resumes⟩

/-! ## After a call -/

/-- The hook after a call reports what came back. -/
theorem checked_afterCall (p : Peer σ) (result : Option Value) (error : UInt32)
    (output : Option String) : ∃ breaks r p', Warned p.breaks breaks ∧
      p.afterCall result error output = (r, p') ∧
      Checked { p with history := p.history.returned result error output, breaks } r p' := by
  let kind (c : Call) : CallKind :=
    ⟨p.inspector.draws p.objects c.entrypoint, p.inspector.endsFrame p.objects c.entrypoint⟩
  obtain ⟨breaks, warned, reports⟩ : ∃ breaks, Warned p.breaks breaks ∧
      p.afterCall result error output =
        check { p with history := p.history.returned result error output, breaks } := by
    unfold afterCall History.returned
    by_cases silent : error = 0
    · simp only [if_pos silent]
      cases output with
      | none => exact ⟨_, (Warned.refl _).returned kind _, rfl⟩
      | some text => exact ⟨_, (warned_reportDebugOutput _).returned kind _, rfl⟩
    · simp only [if_neg silent]
      have warned := warned_reportError p.breaks
      cases output with
      | none => exact ⟨_, warned.returned kind _, rfl⟩
      | some text => exact ⟨_, (warned.trans (warned_reportDebugOutput _)).returned kind _, rfl⟩
  obtain ⟨r, p', check, checked⟩ :=
    checked { p with history := p.history.returned result error output, breaks }
  exact ⟨breaks, r, p', warned, reports.trans check, checked⟩

end Peer

end CallDebugger
