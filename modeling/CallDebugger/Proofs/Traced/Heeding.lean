import CallDebugger.Proofs.Traced.Replies

/-!
# What holds of a debug server

Handling what has arrived and answering it comes to the messages that the server hears
(`Peer.Pumped`): it loses its link by the first event that is fatal, and then drops its answers;
otherwise it offers them to the link. Whatever happens to a server, no answers wait between two
things that happen, a link that was torn down was lost before and brings nothing, and no more calls
are kept than there is room for (`Peer.Steady`).
-/

namespace CallDebugger

variable {σ : Type}

/-- The reason for which a server loses its link by an event, if it does. -/
def LinkEvent.fatality? : LinkEvent → Option String
  | .message m => if m.isOrder then none else some (ProtocolError.unhandled m.kind).message
  | .disconnected reason => some reason
  | .connected | .sendingStarted | .sendingStopped => none

/-- A controller is there. -/
def LinkEvent.connects : LinkEvent → Bool
  | .connected => true
  | .message _ | .sendingStarted | .sendingStopped | .disconnected _ => false

theorem LinkEvent.isSome_fatality? (e : LinkEvent) : e.fatality?.isSome = e.isFatal := by
  cases e with
  | message m =>
    cases order : m.isOrder <;> simp [fatality?, isFatal, order]
  | _ => rfl

namespace History

/-- There is room for the calls that are kept. -/
def Fits (capacity : Nat) (h : History) : Prop := h.capacity = capacity ∧ h.length ≤ capacity

variable {capacity : Nat} {h : History}

theorem fits_new (capacity : Nat) : (new capacity).Fits (max capacity 1) := ⟨rfl, Nat.zero_le _⟩

theorem Fits.add (fits : h.Fits capacity) (c : Call) : (h.add c).Fits capacity := by
  refine ⟨fits.1, ?_⟩
  show ((c :: h.newestFirst).take h.capacity).length ≤ capacity
  rw [List.length_take, fits.1]
  exact Nat.min_le_left _ _

theorem Fits.amend (fits : h.Fits capacity) (f : Call → Call) : (h.amend f).Fits capacity := by
  obtain ⟨room, calls⟩ := h
  cases calls <;> exact fits

theorem Fits.returned (fits : h.Fits capacity) (result : Option Value) (error : UInt32)
    (output : Option String) : (h.returned result error output).Fits capacity := by
  have failed : ∀ {h : History}, h.Fits capacity →
      (if error = 0 then h else h.setError error).Fits capacity := by
    intro h fits
    split
    · exact fits
    · exact fits.amend _
  have told : ∀ {h : History}, h.Fits capacity → (h.returned none error output).Fits capacity := by
    intro h fits
    cases output with
    | none => exact failed fits
    | some text => exact (failed fits).amend _
  cases result with
  | none => exact told fits
  | some value => exact told (fits.amend _)

end History

namespace Peer

variable {p₀ p q p' p₁ : Peer σ} {es : List LinkEvent}

/-! ## What arrives -/

/-- What one event makes of a server comes to the message that is heard. -/
theorem heeded_handle (p : Peer σ) (e : LinkEvent) : p.Heeded (p.heard [e]) (p.handle e) := by
  have unheard {q : Peer σ} (none : p.heard [e] = []) (same : p.Heeded [] q) :
      p.Heeded (p.heard [e]) q := by
    rw [none]
    exact same
  cases gone : p.lost with
  | some reason =>
    have lost : p.lost.isSome = true := by rw [gone]; rfl
    refine unheard (heard_of_lost lost [e]) ?_
    cases e with
    | message m =>
      rw [handle, if_pos lost]
      exact p.heeded_nil
    | _ => exact ⟨rfl, p.heeded_nil.terminating, p.heeded_nil.paused, rfl, rfl, rfl, rfl⟩
  | none =>
    have going : ¬ p.lost.isSome = true := by simp [gone]
    cases e with
    | message m =>
      rw [handle, if_neg going]
      cases order : m.isOrder with
      | true =>
        obtain ⟨q, accepts, accepted⟩ := accept_order (p := p) order
        rw [accepts, heard_order gone order]
        exact accepted.toHeeded
      | false =>
        rw [accept_of_alien order, heard_alien order]
        exact ⟨rfl, p.heeded_nil.terminating, p.heeded_nil.paused, rfl, rfl, rfl, rfl⟩
    | _ =>
      refine unheard ?_ ⟨rfl, p.heeded_nil.terminating, p.heeded_nil.paused, rfl, rfl, rfl, rfl⟩
      simp [heard, gone, LinkEvent.isFatal, messages, LinkEvent.message?]

/-- What events make of a server comes to the messages that are heard. -/
theorem heeded_foldl (p : Peer σ) (es : List LinkEvent) :
    p.Heeded (p.heard es) (es.foldl handle p) := by
  induction es generalizing p with
  | nil =>
    rw [heard_nil]
    exact p.heeded_nil
  | cons e es ih =>
    have lost : (p.handle e).lost.isSome = (p.lost.isSome || e.isFatal) := by
      rw [(p.hears_handle e).lost, List.any_cons, List.any_nil, Bool.or_false]
    rw [heard_cons lost]
    exact (p.heeded_handle e).trans (ih (p.handle e))

theorem lost_handle (p : Peer σ) (e : LinkEvent) :
    (p.handle e).lost = p.lost.or e.fatality? := by
  cases e with
  | connected | sendingStarted | sendingStopped => exact Option.or_none.symm
  | disconnected reason =>
    show some (p.lost.getD reason) = p.lost.or (some reason)
    cases p.lost <;> rfl
  | message m =>
    unfold handle
    cases gone : p.lost with
    | some reason => exact gone
    | none =>
      cases m with
      | hello | paused | trace | reply => rfl
      | _ => exact gone

/-- The link is lost by the first event that is fatal, unless it was lost before. -/
theorem lost_foldl (p : Peer σ) (es : List LinkEvent) :
    (es.foldl handle p).lost = p.lost.or (es.findSome? LinkEvent.fatality?) := by
  induction es generalizing p with
  | nil => exact Option.or_none.symm
  | cons e es ih =>
    rw [List.foldl_cons, ih, lost_handle, Option.or_assoc, List.findSome?_cons]
    cases e.fatality? <;> rfl

/-- Once the link is lost, nothing that arrives makes a difference. -/
theorem foldl_of_lost (lost : p.lost.isSome = true) (es : List LinkEvent) :
    es.foldl handle p = { p with connected := p.connected || es.any LinkEvent.connects } := by
  induction es generalizing p with
  | nil =>
    rw [List.any_nil, Bool.or_false]
    rfl
  | cons e es ih =>
    have handled : p.handle e = { p with connected := p.connected || e.connects } := by
      cases e with
      | connected =>
        rw [LinkEvent.connects, Bool.or_true]
        rfl
      | message m =>
        rw [handle, if_pos lost, LinkEvent.connects, Bool.or_false]
      | disconnected reason =>
        obtain ⟨first, gone⟩ := Option.isSome_iff_exists.1 lost
        rw [handle, LinkEvent.connects, Bool.or_false, gone, Option.getD_some, ← gone]
      | sendingStarted | sendingStopped =>
        rw [handle, LinkEvent.connects, Bool.or_false]
    have later := ih (p := { p with connected := p.connected || e.connects }) lost
    rw [List.foldl_cons, handled, later, List.any_cons, Bool.or_assoc]

/-! ## Handling and answering -/

/-- The answers to what has arrived. -/
def due (p : Peer σ) : List Message :=
  p.inspector.answers p.history p.objects (p.heard p.link.inbox)

/-- What a server has made of all that had arrived, and with what result. -/
structure Pumped (p : Peer σ) (r : Except PeerError Unit) (q : Peer σ) : Prop
    extends Heeded p (p.heard p.link.inbox) q where
  history : q.history = p.history
  outbox : q.outbox = []
  lost : q.lost = p.lost.or (p.link.inbox.findSome? LinkEvent.fatality?)
  dropped : q.lost.isSome = true → r = .ok () ∧ q.link = { p.link with inbox := [] }
  offered : q.lost = none → r = result (p.link.offer p.due).1 ∧
    q.link = { (p.link.offer p.due).2 with inbox := [] }

/-- What holds of a server that was `p₀` once, and listened. -/
structure Steady (p₀ p : Peer σ) : Prop where
  verdict : p.link.verdict = p₀.link.verdict
  inspector : p.inspector = p₀.inspector
  fits : p.history.Fits p₀.history.capacity
  outbox : p.outbox = []
  down : p.link.aborted = true → p.lost.isSome = true ∧ p.link.inbox = []

/-- A link that is not lost was not torn down. -/
theorem Steady.not_aborted (h : Steady p₀ p) (up : p.lost = none) : p.link.aborted = false := by
  rw [← Bool.not_eq_true]
  intro down
  have lost := (h.down down).1
  rw [up] at lost
  nomatch lost

/-- Handling what has arrived takes everything from the link. -/
theorem Steady.drain_eq (h : Steady p₀ p) :
    p.drain = p.link.inbox.foldl handle { p with link := { p.link with inbox := [] } } := by
  unfold drain
  split
  · have none := (h.down ‹_›).2
    rw [none, List.foldl_nil, ← none]
  · rfl

theorem Steady.pumped (h : Steady p₀ p) : p.Pumped p.pump.1 p.pump.2 := by
  have hears := hears_foldl { p with link := { p.link with inbox := [] } } p.link.inbox
  have heeded := heeded_foldl { p with link := { p.link with inbox := [] } } p.link.inbox
  have lost := lost_foldl { p with link := { p.link with inbox := [] } } p.link.inbox
  rw [pump, h.drain_eq]
  generalize p.link.inbox.foldl handle { p with link := { p.link with inbox := [] } } = q
    at hears heeded lost
  have outbox : q.outbox = p.due := by
    rw [hears.outbox, h.outbox]
    rfl
  have still : ∀ link, p.Heeded (p.heard p.link.inbox) { q with outbox := [], link } :=
    fun _ => ⟨heeded.inside, heeded.terminating, heeded.paused, heeded.settings,
      heeded.breakpoints, heeded.inspector, heeded.objects⟩
  cases gone : q.lost with
  | some reason =>
    have isLost : q.lost.isSome = true := by rw [gone]; rfl
    have down : q.lost ≠ none := by simp [gone]
    rw [flush_of_lost isLost]
    exact ⟨still _, hears.history, rfl, lost, fun _ => ⟨rfl, hears.link⟩, fun up => absurd up down⟩
  | none =>
    have up : ¬ q.lost.isSome = true := by simp [gone]
    rw [flush_of_up gone, outbox, hears.link, Link.offer_inbox]
    exact ⟨still _, hears.history, rfl, lost, fun isLost => absurd isLost up, fun _ => ⟨rfl, rfl⟩⟩

/-! ## What stays -/

theorem Steady.pump (h : Steady p₀ p) : Steady p₀ p.pump.2 := by
  have pumped := h.pumped
  have link : p.pump.2.link.verdict = p.link.verdict ∧ p.pump.2.link.inbox = [] ∧
      p.pump.2.link.aborted = p.link.aborted := by
    cases gone : p.pump.2.lost with
    | some reason =>
      rw [(pumped.dropped (by rw [gone]; rfl)).2]
      exact ⟨rfl, rfl, rfl⟩
    | none =>
      rw [(pumped.offered gone).2]
      exact ⟨(p.link.offer_frame _).1, rfl, (p.link.offer_frame _).2.2⟩
  refine ⟨link.1.trans h.verdict, pumped.inspector.trans h.inspector, ?_, pumped.outbox, ?_⟩
  · rw [pumped.history]
    exact h.fits
  · intro down
    rw [link.2.2] at down
    rw [pumped.lost, Option.isSome_or, (h.down down).1]
    exact ⟨rfl, link.2.1⟩

/-- What a server does beside its link leaves it steady. -/
theorem Steady.still (h : Steady p₀ q) (breaks : BreakState) (inside : Option Hook) :
    Steady p₀ { q with breaks, inside } :=
  ⟨h.verdict, h.inspector, h.fits, h.outbox, h.down⟩

theorem Steady.sends (h : Steady p₀ q) {m : Message} {r : Except LinkError Unit} {link : Link}
    (sent : q.link.send m = (r, link)) (breaks : BreakState) (inside : Option Hook) :
    Steady p₀ { q with link, breaks, inside } := by
  obtain ⟨verdict, inbox, aborted⟩ := q.link.send_frame m
  rw [sent] at verdict inbox aborted
  refine ⟨verdict.trans h.verdict, h.inspector, h.fits, h.outbox, ?_⟩
  intro down
  have down : link.aborted = true := down
  rw [aborted] at down
  obtain ⟨lost, none⟩ := h.down down
  exact ⟨lost, inbox.trans none⟩

theorem Steady.permitted (h : Steady p₀ q) (c : Call) : Steady p₀ (q.permitted c) :=
  ⟨h.verdict, h.inspector, h.fits.add c, h.outbox, h.down⟩

theorem Checked.steady {r : Except PeerError Unit} (checked : q.Checked r p') (h : Steady p₀ q)
    (inside : Option Hook) : Steady p₀ { p' with inside } := by
  cases checked with
  | gone lost =>
    refine ⟨h.verdict, h.inspector, h.fits, h.outbox, fun _ => ⟨?_, rfl⟩⟩
    exact Option.isSome_iff_exists.2 ⟨_, lost⟩
  | told | free => exact h.still _ inside

theorem Begins.steady {c : Call} {r : Outcome} (begins : q.Begins c r p') (h : Steady p₀ q) :
    Steady p₀ p' := by
  cases begins with
  | barred barred => exact barred.steady h none
  | passes => exact h.permitted c
  | unannounced _ _ refused => exact h.sends refused _ none
  | stops _ _ taken => exact h.sends taken _ (some (.call c))

theorem Resumes.steady {hook : Hook} {r : Outcome} (resumes : q.Resumes hook r p')
    (h : Steady p₀ q) : Steady p₀ p' := by
  cases resumes with
  | barred barred => exact barred.steady h none
  | waits | rests => exact h
  | ungreeted _ refused => exact h.sends refused q.breaks none
  | greets _ taken => exact h.sends taken q.breaks none
  | goesOn => exact h.permitted _

theorem Steady.beforeCall (h : Steady p₀ p) (c : Call) : Steady p₀ (p.beforeCall c).2 := by
  have steady := h.pump
  obtain ⟨r, p', performs, enters⟩ := p.enters_beforeCall c
  rw [performs]
  cases enters with
  | unanswered pump =>
    rw [pump] at steady
    exact steady.still _ none
  | begins pump begins =>
    rw [pump] at steady
    exact begins.steady steady

theorem Steady.wake (h : Steady p₀ p) : Steady p₀ p.wake.2 := by
  have steady := h.pump
  obtain ⟨r, p', performs, continues⟩ := p.continues_wake
  rw [performs]
  cases continues with
  | idle => exact h
  | torn => exact h.still p.breaks none
  | unanswered _ _ pump =>
    rw [pump] at steady
    exact steady.still _ none
  | resumes _ _ pump resumes =>
    rw [pump] at steady
    exact resumes.steady steady

theorem Steady.arrive (h : Steady p₀ p) (events : List LinkEvent) :
    Steady p₀ (p.arrive events) := by
  unfold Peer.arrive Link.push
  split
  · exact h
  · refine ⟨h.verdict, h.inspector, h.fits, h.outbox, ?_⟩
    intro down
    exact absurd down ‹_›

/-- **What holds of a server.** It keeps holding whatever happens. -/
theorem Steady.occur (h : Steady p₀ p) (o : Occurrence) : Steady p₀ (p.occur o) := by
  cases o with
  | arrives events => exact h.arrive events
  | does a =>
    show Steady p₀ (p.perform a).2
    cases a with
    | before c => exact h.beforeCall c
    | wake => exact h.wake
    | compilerError => exact h.still _ p.inside
    | attach =>
      obtain ⟨r, p', performs, resumes⟩ := p.resumes_waitForController
      rw [perform, performs]
      exact resumes.steady (h.still p.breaks (some .attach))
    | after result error output =>
      obtain ⟨breaks, r, p', -, performs, checked⟩ := p.checked_afterCall result error output
      rw [perform, performs]
      have returned : Steady p₀
          { p with history := p.history.returned result error output, breaks } :=
        ⟨h.verdict, h.inspector, h.fits.returned result error output, h.outbox, h.down⟩
      exact checked.steady returned p'.inside

theorem Steady.live (h : Steady p₀ p) (os : List Occurrence) : Steady p₀ (p.live os) := by
  induction os generalizing p with
  | nil => exact h
  | cons o os ih => exact ih (h.occur o)

theorem steady_listen (verdict : Nat → Message → Option LinkError) (inspector : Inspector σ)
    (objects : σ) (capacity : Nat) :
    Steady (listen (.fresh verdict) inspector objects capacity)
      (listen (.fresh verdict) inspector objects capacity) :=
  ⟨rfl, rfl, History.fits_new capacity, rfl, nofun⟩

end Peer

end CallDebugger
