import CallDebugger.Proofs.Traced.Recording
import Mathlib.Data.List.TakeWhile

/-!
# What a hook owes

As long as the link stays up and the controller neither sends what no controller sends nor tells the
process to exit, what the hook before a call has to send is told by what arrives: the answers to
what it handles first, and if the process pauses the pause and the answers to what arrives until it
is let go on (`Peer.owes`). The hook offers just that to the link, in this order, and fails just
where the link refuses (`Peer.Steady.offers`).
-/

namespace CallDebugger

variable {σ : Type}

/-- Neither is the link lost by an event, nor the process told to exit. -/
def LinkEvent.isHarmless : LinkEvent → Bool
  | .message m => m.isOrder && !m.ends
  | .disconnected _ => false
  | .connected | .sendingStarted | .sendingStopped => true

namespace Peer

variable {p₀ p q p' p₁ : Peer σ} {c : Call}

/-! ## What a hook owes -/

/-- The batches that a hook handles that waits until the process is let go on. -/
def untilReleased : List (List LinkEvent) → List (List LinkEvent)
  | [] => []
  | es :: script => es :: if (messages es).any Message.releases then [] else untilReleased script

/-- The answers to what arrives. -/
def dueTo (p : Peer σ) (es : List LinkEvent) : List Message :=
  p.inspector.answers p.history p.objects (messages es)

theorem dueTo_append (p : Peer σ) (es fs : List LinkEvent) :
    p.dueTo (es ++ fs) = p.dueTo es ++
      p.inspector.answers p.history (p.inspector.objectsAfter p.objects (messages es))
        (messages fs) := by
  rw [dueTo, messages_append, Inspector.answers_append]
  rfl

/-- Whether the process pauses before a call, once what has arrived is handled. -/
def pauses (p : Peer σ) (c : Call) : Bool := p.pump.2.breaks.hits c.entrypoint

/-- What the hook before a call has to send: the answers to what has arrived, and if the process
pauses the pause and the answers to what arrives until it is let go on. -/
def owes (p : Peer σ) (c : Call) (script : List (List LinkEvent)) : List Message :=
  p.dueTo p.link.inbox ++
    if p.pauses c then
      .paused (p.pauseBefore c) ::
        p.inspector.answers p.history
          (p.inspector.objectsAfter p.objects (messages p.link.inbox))
          (messages (untilReleased script).flatten)
    else []

/-- The result of a hook that has offered what it owes, if it has anything to wait for. -/
def settled (waits : Bool) : Option LinkError → Outcome
  | some e => some (.error (.link e))
  | none => if waits then none else some (.ok ())

/-! ## Harmless events -/

/-- A server that has its link and was not told to exit. -/
structure Free (p : Peer σ) : Prop where
  up : p.lost = none
  staying : p.terminating = false

theorem not_isFatal {e : LinkEvent} (harmless : e.isHarmless = true) : e.isFatal = false := by
  cases e with
  | message m =>
    simp only [LinkEvent.isHarmless, Bool.and_eq_true] at harmless
    simp only [LinkEvent.isFatal, harmless.1, Bool.not_true]
  | disconnected reason => cases harmless
  | connected | sendingStarted | sendingStopped => rfl

variable {es : List LinkEvent}

theorem Free.heard (free : p.Free) (harmless : ∀ e ∈ es, e.isHarmless = true) :
    p.heard es = messages es := by
  have all : es.takeWhile (fun e => !e.isFatal) = es := by
    rw [List.takeWhile_eq_self_iff]
    intro e mem
    rw [not_isFatal (harmless e mem), Bool.not_false]
  rw [Peer.heard, free.up, all]
  rfl

theorem fatality_of_harmless (harmless : ∀ e ∈ es, e.isHarmless = true) :
    es.findSome? LinkEvent.fatality? = none := by
  rw [List.findSome?_eq_none_iff]
  intro e mem
  rw [← Option.isNone_iff_eq_none, ← Option.not_isSome, LinkEvent.isSome_fatality?,
    not_isFatal (harmless e mem)]
  rfl

theorem not_ends_of_harmless (harmless : ∀ e ∈ es, e.isHarmless = true) :
    (messages es).any Message.ends = false := by
  rw [List.any_eq_false]
  intro m mem
  obtain ⟨e, arrives, carried⟩ := List.mem_filterMap.1 mem
  cases e with
  | message n =>
    cases carried
    have harmless := harmless _ arrives
    simp only [LinkEvent.isHarmless, Bool.and_eq_true, Bool.not_eq_true'] at harmless
    rw [harmless.2]
    nofun
  | _ => nomatch carried

/-- Handling harmless events leaves a server free, with what the link makes of its answers. -/
theorem Pumped.answers {r : Except PeerError Unit} (pumped : p.Pumped r q) (free : p.Free)
    (harmless : ∀ e ∈ p.link.inbox, e.isHarmless = true) :
    q.Free ∧ p.Heeded (messages p.link.inbox) q ∧
      r = result (p.link.offer (p.dueTo p.link.inbox)).1 ∧
      q.link = { (p.link.offer (p.dueTo p.link.inbox)).2 with inbox := [] } := by
  have heeded := pumped.toHeeded
  have up : q.lost = none := by
    rw [pumped.lost, free.up, fatality_of_harmless harmless]
    rfl
  have offered := pumped.offered up
  rw [due, free.heard harmless] at offered
  rw [free.heard harmless] at heeded
  refine ⟨⟨up, ?_⟩, heeded, offered⟩
  rw [heeded.terminating, free.staying, not_ends_of_harmless harmless]
  rfl

theorem Free.not_barred {e : PeerError} (free : q.Free) : ¬ q.Checked (.error e) p' := by
  intro barred
  cases barred with
  | gone lost => nomatch free.up.symm.trans lost
  | told _ ending => nomatch free.staying.symm.trans ending

/-! ## Waiting -/

/-- A server whose process is paused before a call, and that has nothing to handle. -/
structure Idles (p₀ p : Peer σ) (c : Call) : Prop extends Steady p₀ p, Free p where
  inside : p.inside = some (.call c)
  paused : p.breaks.paused = true
  inbox : p.link.inbox = []
  live : p.link.aborted = false

/-- What a hook that waits owes for what arrives. -/
def dueFor (p : Peer σ) (script : List (List LinkEvent)) : List Message :=
  p.dueTo (untilReleased script).flatten

/-- What a hook that waits comes to by one batch, which it answers. -/
inductive Wakes (p₀ p : Peer σ) (c : Call) (es : List LinkEvent) : Outcome → Peer σ → Prop where
  | refused {e : LinkError} {p' : Peer σ} (refused : (p.link.offer (p.dueTo es)).1 = some e)
      (link : p'.link = { (p.link.offer (p.dueTo es)).2 with inbox := [] }) :
      Wakes p₀ p c es (some (.error (.link e))) p'
  | goesOn {p' : Peer σ} (taken : (p.link.offer (p.dueTo es)).1 = none)
      (released : (messages es).any Message.releases = true)
      (link : p'.link = { (p.link.offer (p.dueTo es)).2 with inbox := [] }) :
      Wakes p₀ p c es (some (.ok ())) p'
  | waits {p' : Peer σ} (taken : (p.link.offer (p.dueTo es)).1 = none)
      (held : (messages es).any Message.releases = false) (idles : Idles p₀ p' c)
      (link : p'.link = { (p.link.offer (p.dueTo es)).2 with inbox := [] })
      (history : p'.history = p.history) (inspector : p'.inspector = p.inspector)
      (objects : p'.objects = p.inspector.objectsAfter p.objects (messages es)) :
      Wakes p₀ p c es none p'

theorem Idles.wakes (h : Idles p₀ p c) (es : List LinkEvent)
    (harmless : ∀ e ∈ es, e.isHarmless = true) :
    Wakes p₀ p c es (p.arrive es).wake.1 (p.arrive es).wake.2 := by
  have link : (p.arrive es).link = { p.link with inbox := es } := by
    show p.link.push es = _
    rw [Link.push_of_up h.live, h.inbox, List.nil_append]
  have inbox : (p.arrive es).link.inbox = es := by rw [link]
  have place : (p.arrive es).inside = some (.call c) := h.inside
  have steady : Steady p₀ (p.arrive es) := h.toSteady.arrive es
  have pumped := steady.pumped
  have answers := pumped.answers ⟨h.up, h.staying⟩ (by rw [inbox]; exact harmless)
  rw [inbox, link, Link.offer_inbox] at answers
  obtain ⟨free, heeded, result, left⟩ := answers
  have paused : (p.arrive es).pump.2.breaks.paused = !(messages es).any Message.releases := by
    rw [heeded.paused]
    show (p.breaks.paused && _) = _
    rw [h.paused, Bool.true_and]
  obtain ⟨r, p', performs, continues⟩ := (p.arrive es).continues_wake
  rw [performs]
  cases continues with
  | idle idle =>
    have none : es = [] := by
      obtain outside | asleep := idle
      · cases place.symm.trans outside
      · simp only [canWake, link, Bool.or_eq_false_iff, Bool.not_eq_false', List.isEmpty_iff]
          at asleep
        exact asleep.2
    have same : p.arrive es = p := by
      show ({ p with link := (p.arrive es).link } : Peer σ) = p
      rw [link, none, ← h.inbox]
    have link : p.link = { p.link with inbox := [] } := by rw [← h.inbox]
    rw [same, none]
    exact .waits rfl rfl h link rfl rfl rfl
  | torn _ down =>
    rw [link] at down
    cases h.live.symm.trans down
  | unanswered _ _ pump =>
    rw [pump] at result left
    obtain ⟨reason, refused, rfl⟩ := exists_of_result result
    exact .refused refused left
  | resumes place' _ pump resumes =>
    cases place.symm.trans place'
    have steady' := steady.pump
    rw [pump] at pumped steady' free heeded result left paused
    have taken : (p.link.offer (p.dueTo es)).1 = none := eq_none_of_result result
    cases resumes with
    | barred barred => exact absurd barred free.not_barred
    | rests _ still =>
      have held : (messages es).any Message.releases = false := by
        rw [still] at paused
        simpa using paused
      have live : p'.link.aborted = false := by
        rw [left]
        exact (p.link.offer_frame _).2.2.trans h.live
      have idles : Idles p₀ p' c :=
        ⟨steady', free, pumped.inside.trans place, still, by rw [left], live⟩
      exact .waits taken held idles left pumped.history pumped.inspector heeded.objects
    | goesOn _ going =>
      have released : (messages es).any Message.releases = true := by
        rw [going] at paused
        simpa using paused
      exact .goesOn taken released left

theorem untilReleased_cons_of_released {script : List (List LinkEvent)}
    (released : (messages es).any Message.releases = true) :
    untilReleased (es :: script) = [es] := by
  rw [untilReleased, if_pos released]

theorem untilReleased_cons_of_held {script : List (List LinkEvent)}
    (held : (messages es).any Message.releases = false) :
    untilReleased (es :: script) = es :: untilReleased script := by
  rw [untilReleased, if_neg (by rw [held]; nofun)]

/-- What a server owes for what arrives, told by what it was before it handled a batch. -/
theorem dueFor_eq (history : q.history = p.history) (inspector : q.inspector = p.inspector)
    (objects : q.objects = p.inspector.objectsAfter p.objects (messages es))
    (script : List (List LinkEvent)) :
    q.dueFor script = p.inspector.answers p.history
      (p.inspector.objectsAfter p.objects (messages es))
      (messages (untilReleased script).flatten) := by
  rw [dueFor, dueTo, history, inspector, objects]

/-- What is owed for a batch comes first. -/
theorem dueFor_cons (p : Peer σ) (es : List LinkEvent) (script : List (List LinkEvent)) :
    ∃ rest, p.dueFor (es :: script) = p.dueTo es ++ rest := by
  rw [dueFor, untilReleased, List.flatten_cons, dueTo_append]
  exact ⟨_, rfl⟩

/-- A hook that waits fails just where the link refuses an answer. -/
theorem Idles.offers (h : Idles p₀ p c) {script : List (List LinkEvent)}
    (harmless : ∀ e ∈ script.flatten, e.isHarmless = true) :
    (p.await script).1 = settled (!(messages script.flatten).any Message.releases)
        (p.link.offer (p.dueFor script)).1 ∧
      (p.await script).2.link.sent = p.link.sent ++ p.link.taken (p.dueFor script) := by
  induction script generalizing p with
  | nil => exact ⟨rfl, (List.append_nil _).symm⟩
  | cons es script ih =>
    rw [List.flatten_cons] at harmless
    have first := h.wakes es fun e mem => harmless e (List.mem_append_left _ mem)
    rw [List.flatten_cons, messages_append, List.any_append, await]
    rcases performs : (p.arrive es).wake with ⟨r, q⟩
    rw [performs] at first
    cases first with
    | @refused e _ refused link =>
      obtain ⟨rest, due⟩ := p.dueFor_cons es script
      have whole : p.link.offer (p.dueTo es) = (some e, (p.link.offer (p.dueTo es)).2) :=
        Prod.ext refused rfl
      rw [due, Link.offer_append, Link.taken_append_of_error whole, whole]
      exact ⟨rfl, by rw [link, p.link.sent_offer]⟩
    | goesOn taken released link =>
      have due : p.dueFor (es :: script) = p.dueTo es := by
        rw [dueFor, untilReleased_cons_of_released released, List.flatten_singleton]
      rw [due, released, taken]
      exact ⟨rfl, by rw [link, p.link.sent_offer]⟩
    | waits taken held idles link history inspector objects =>
      have due : p.dueFor (es :: script) = p.dueTo es ++ q.dueFor script := by
        rw [dueFor, untilReleased_cons_of_held held, List.flatten_cons, dueTo_append,
          dueFor_eq history inspector objects]
      have whole : p.link.offer (p.dueTo es) = (none, (p.link.offer (p.dueTo es)).2) :=
        Prod.ext taken rfl
      obtain ⟨result, sent⟩ := ih idles fun e mem => harmless e (List.mem_append_right _ mem)
      rw [link, Link.offer_inbox] at result
      rw [link, Link.taken_inbox, p.link.sent_offer] at sent
      rw [due, Link.offer_append, Link.taken_append whole, whole, held, Bool.false_or]
      exact ⟨result, sent.trans (List.append_assoc _ _ _)⟩

/-! ## The whole hook -/

/-- What is offered to a link that has taken some messages is offered after them. -/
theorem offer_after {l l' : Link} {ms : List Message} (taken : (l.offer ms).1 = none)
    (left : l' = { (l.offer ms).2 with inbox := [] }) (ns : List Message) :
    (l.offer (ms ++ ns)).1 = (l'.offer ns).1 ∧
      l.sent ++ l.taken (ms ++ ns) = l'.sent ++ l'.taken ns := by
  have whole : l.offer ms = (none, (l.offer ms).2) := Prod.ext taken rfl
  have sent : l'.sent = l.sent ++ l.taken ms := by rw [left, l.sent_offer]
  have later : l'.taken ns = (l.offer ms).2.taken ns := by rw [left, Link.taken_inbox]
  have offered : (l'.offer ns).1 = ((l.offer ms).2.offer ns).1 := by
    rw [left, (l.offer ms).2.offer_inbox]
  constructor
  · rw [Link.offer_append, whole, offered]
  · rw [Link.taken_append whole, later, sent, List.append_assoc]

/-- **A hook fails just where the link refuses what it owes.** -/
theorem Steady.offers (h : Steady p₀ p) (free : p.Free) (c : Call)
    {script : List (List LinkEvent)} (harmless : ∀ e ∈ p.link.inbox, e.isHarmless = true)
    (harmless' : ∀ e ∈ script.flatten, e.isHarmless = true) :
    (p.runBefore c script).1 =
        settled (p.pauses c && !(messages script.flatten).any Message.releases)
          (p.link.offer (p.owes c script)).1 ∧
      (p.runBefore c script).2.link.sent = p.link.sent ++ p.link.taken (p.owes c script) := by
  have pumped := h.pumped
  have steady := h.pump
  obtain ⟨free', heeded, result, left⟩ := pumped.answers free harmless
  rw [owes, runBefore, pauses]
  obtain ⟨r, p', performs, enters⟩ := p.enters_beforeCall c
  rw [performs]
  cases enters with
  | unanswered pump =>
    rw [pump] at result left
    obtain ⟨e, refused, rfl⟩ := exists_of_result result
    have whole : p.link.offer (p.dueTo p.link.inbox) =
        (some e, (p.link.offer (p.dueTo p.link.inbox)).2) := Prod.ext refused rfl
    rw [Link.offer_append, Link.taken_append_of_error whole, whole]
    exact ⟨rfl, by rw [left, p.link.sent_offer]⟩
  | @begins _ q _ pump begins =>
    rw [pump] at pumped steady free' heeded result left ⊢
    have taken : (p.link.offer (p.dueTo p.link.inbox)).1 = none := eq_none_of_result result
    rw [(offer_after taken left _).1, (offer_after taken left _).2]
    cases begins with
    | barred barred => exact absurd barred free'.not_barred
    | passes _ misses =>
      simp only [misses, Bool.false_eq_true, if_false, Bool.false_and]
      exact ⟨rfl, (List.append_nil _).symm⟩
    | unannounced _ hits refused =>
      rw [pumped.pauseAt] at refused
      simp only [hits, if_true, Link.offer, Link.taken, refused]
      exact ⟨rfl, by rw [Link.sent_send_error refused, List.append_nil]⟩
    | @stops link _ hits said =>
      rw [pumped.pauseAt] at said
      have frame := q.link.send_frame (.paused (p.pauseBefore c))
      rw [said] at frame
      have idles : Idles p₀ { q with link, breaks := q.breaks.held, inside := some (.call c) } c :=
        ⟨steady.sends said _ _, ⟨free'.up, free'.staying⟩, rfl, rfl,
          frame.2.1.trans (by rw [left]), frame.2.2.trans (steady.not_aborted free'.up)⟩
      obtain ⟨result, sent⟩ := idles.offers harmless'
      have due :
          dueFor { q with link, breaks := q.breaks.held, inside := some (.call c) } script = _ :=
        dueFor_eq pumped.history heeded.inspector heeded.objects script
      rw [due] at result sent
      simp only [hits, if_true, Link.offer, Link.taken, said, Bool.true_and]
      refine ⟨result, sent.trans ?_⟩
      rw [(Link.sent_send_ok said).1, List.append_assoc]
      rfl

end Peer

end CallDebugger
