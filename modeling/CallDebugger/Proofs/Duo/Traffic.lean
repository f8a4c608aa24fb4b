import CallDebugger.Proofs.Duo.BreakToken

/-!
# What goes over the queues

A turn of the session takes the first of the messages that are on their way to it, and adds what it
offers to those on their way to the process (`Duo.Sound.toPeer_take`). An activity of the process
does the same from the other side (`Duo.Sound.acts`). All other steps leave what is on its way as it
is (`Duo.Arrival`).
-/

namespace CallDebugger

variable {ι σ : Type}

namespace Duo

variable {d d' : Duo ι σ}

/-- An activity, seen from both ends. -/
theorem Sound.acts (h : d.Sound) (a : Activity) : ∃ p' handled sent ran,
    d.peer.Acted a p' handled sent ran ∧ (d.act a).peer = p' ∧
      d.toPeer = handled ++ (d.act a).toPeer ∧ (d.act a).toSession = d.toSession ++ sent := by
  obtain ⟨handled, answers, q, news, attended, comes⟩ := h.calm.comes a
  have acted := attended.acted (comes.follows attended.calm)
  obtain ⟨peer, arrives, split, -⟩ := act_eq acted
  exact ⟨_, handled, _, _, acted, peer, split, arrives⟩

/-- A session sends what its turn offers, all of it. -/
theorem Sound.toPeer_take (h : d.Sound) {t : Turn ι} (own : t.isOwn = true) :
    (d.take t).toPeer = d.toPeer ++ d.session.offered t := by
  obtain ⟨l, l', handled, linked, outcome⟩ := h.outcome own
  exact (take_eq linked.link (outcome.moved linked)).2.2

/-- A message that is handled comes first of those on their way. -/
theorem toSession_of_poll {m : Message} {s : Session ι}
    (polled : d.session.poll = some (.message m, s)) : ∃ rest, d.toSession = m :: rest := by
  obtain ⟨l, l', link, event, -⟩ := Session.poll_eq_some polled
  rw [toSession_of_link link, messages_of_poll event]
  exact ⟨_, rfl⟩

/-! ## Arrivals -/

/-- Something that was on its way arrives, or a link tells something of itself. -/
structure Arrival (d d' : Duo ι σ) : Prop where
  toPeer : d'.toPeer = d.toPeer
  toSession : d'.toSession = d.toSession
  session : ∃ l, d'.session = { d.session with link := l }
  peer : ∃ l, d'.peer = { d.peer with link := l }

theorem Sound.arrival_peer (h : d.Sound) {es : List LinkEvent} {rest : List Message}
    (queue : d.outward = messages es ++ rest) :
    d.Arrival { d with peer := d.peer.arrive es, outward := rest } :=
  ⟨toPeer_arrive h.calm.opened.up queue, rfl, ⟨_, rfl⟩, ⟨_, rfl⟩⟩

theorem Sound.arrival_session (h : d.Sound) {es : List LinkEvent} {rest : List Message}
    (queue : d.inward = messages es ++ rest) :
    d.Arrival { d with session := d.session.arrive es, inward := rest } := by
  obtain ⟨l, link, opened, -⟩ := h.linked
  exact ⟨rfl, toSession_arrive link opened.up queue, ⟨_, rfl⟩, ⟨_, rfl⟩⟩

/-- A step, seen from the two ends. -/
inductive Passage (d : Duo ι σ) : Duo ι σ → Prop where
  | turn (t : Turn ι) (own : t.isOwn = true) : Passage d (d.take t)
  | activity (a : Activity) (allowed : d.Allows a) : Passage d (d.act a)
  | arrival {d' : Duo ι σ} (arrival : d.Arrival d') : Passage d d'

theorem Sound.passage (h : d.Sound) (step : d.Step d') : d.Passage d' := by
  cases step with
  | take t own => exact .turn t own
  | act a allowed => exact .activity a allowed
  | @outward m rest next =>
    have queue : d.outward = messages [.message m] ++ rest := next
    exact .arrival (h.arrival_peer queue)
  | @inward m rest next =>
    have queue : d.inward = messages [.message m] ++ rest := next
    exact .arrival (h.arrival_session queue)
  | peerSignal e signal =>
    refine .arrival (h.arrival_peer ?_)
    rw [(lasting_of_signal signal).1, List.nil_append]
  | sessionSignal e signal =>
    refine .arrival (h.arrival_session ?_)
    rw [(lasting_of_signal signal).1, List.nil_append]

end Duo

end CallDebugger
