import CallDebugger.Proofs.Duo.SessionMoves
import CallDebugger.Proofs.Session.Settings
import CallDebugger.Proofs.Traced.Hooks

/-!
# What a process makes of messages

A process takes over the settings and the breakpoints that it is told last, and it answers requests
one by one, each with the objects that the requests before it have left (`Peer.Accepted`). Over a
link that takes everything it handles and answers whatever has arrived (`Peer.Calm.pump`).
-/

namespace CallDebugger

variable {σ : Type}

namespace Message

/-- The message by which a controller tells the process to exit. -/
def ends : Message → Bool
  | .terminate => true
  | _ => false

end Message

namespace Inspector

/-- The objects after the requests among some messages were answered. -/
def objectsAfter (i : Inspector σ) (s : σ) : List Message → σ
  | [] => s
  | .request request :: ms => i.objectsAfter (i.answer request s).2 ms
  | _ :: ms => i.objectsAfter s ms

/-- The replies to the requests among some messages, in order. -/
def replies (i : Inspector σ) (s : σ) : List Message → List Reply
  | [] => []
  | .request request :: ms => (i.answer request s).1 :: i.replies (i.answer request s).2 ms
  | _ :: ms => i.replies s ms

theorem objectsAfter_append (i : Inspector σ) (s : σ) (ms ns : List Message) :
    i.objectsAfter s (ms ++ ns) = i.objectsAfter (i.objectsAfter s ms) ns := by
  induction ms generalizing s with
  | nil => rfl
  | cons m ms ih => cases m <;> exact ih _

theorem replies_append (i : Inspector σ) (s : σ) (ms ns : List Message) :
    i.replies s (ms ++ ns) = i.replies s ms ++ i.replies (i.objectsAfter s ms) ns := by
  induction ms generalizing s with
  | nil => rfl
  | cons m ms ih =>
    cases m with
    | request request => exact congrArg _ (ih _)
    | _ => exact ih _

end Inspector

namespace Peer

variable {p p' p₁ : Peer σ}

/-- A process between two activities, over a link that is up and brings orders only. -/
structure Calm (p : Peer σ) : Prop where
  opened : p.link.Open
  lasting : ∀ e ∈ p.link.inbox, ∀ reason, e ≠ .disconnected reason
  orders : ∀ m ∈ messages p.link.inbox, m.isOrder = true
  lost : p.lost = none
  outbox : p.outbox = []

/-! ## Handling what has arrived -/

/-- What a process has made of messages that it has handled. -/
structure Heeded (p : Peer σ) (ms : List Message) (p' : Peer σ) : Prop where
  inside : p'.inside = p.inside
  terminating : p'.terminating = (p.terminating || ms.any Message.ends)
  paused : p'.breaks.paused = (p.breaks.paused && !ms.any Message.releases)
  settings : p'.breaks.settings = (lastTold Message.settings? ms).getD p.breaks.settings
  breakpoints : p'.breaks.breakpoints =
    (lastTold Message.breakpoints? ms).getD p.breaks.breakpoints
  inspector : p'.inspector = p.inspector
  objects : p'.objects = p.inspector.objectsAfter p.objects ms

/-- The answers of a process to messages. -/
structure Answering (p : Peer σ) (ms answers : List Message) : Prop where
  kind : ∀ m ∈ answers, m.isAnswer = true
  replies : answers.filterMap Message.reply? = p.inspector.replies p.objects ms
  none : ms = [] → answers = []

/-- A process has handled messages, and has its answers ready. -/
structure Accepted (p : Peer σ) (ms : List Message) (p' : Peer σ) : Prop
    extends Heeded p ms p' where
  link : p'.link = p.link
  lost : p'.lost = p.lost
  outbox : ∃ answers, p'.outbox = p.outbox ++ answers ∧ p.Answering ms answers

theorem heeded_nil (p : Peer σ) : p.Heeded [] p :=
  ⟨rfl, (Bool.or_false _).symm, (Bool.and_true _).symm, rfl, rfl, rfl, rfl⟩

theorem answering_nil (p : Peer σ) : p.Answering [] [] :=
  ⟨List.forall_mem_nil _, rfl, fun _ => rfl⟩

theorem accepted_nil (p : Peer σ) : p.Accepted [] p :=
  ⟨p.heeded_nil, rfl, rfl, [], (List.append_nil _).symm, p.answering_nil⟩

theorem Heeded.trans {ms ns : List Message} (first : p.Heeded ms p₁) (second : p₁.Heeded ns p') :
    p.Heeded (ms ++ ns) p' where
  inside := second.inside.trans first.inside
  terminating := by rw [second.terminating, first.terminating, List.any_append, Bool.or_assoc]
  paused := by rw [second.paused, first.paused, List.any_append, Bool.not_or, Bool.and_assoc]
  settings := by rw [second.settings, first.settings, getD_lastTold_append]
  breakpoints := by rw [second.breakpoints, first.breakpoints, getD_lastTold_append]
  inspector := second.inspector.trans first.inspector
  objects := by
    rw [second.objects, first.objects, first.inspector, Inspector.objectsAfter_append]

theorem Answering.append {ms ns as bs : List Message} (first : p.Answering ms as)
    (heeded : p.Heeded ms p₁) (second : p₁.Answering ns bs) :
    p.Answering (ms ++ ns) (as ++ bs) where
  kind m mem := (List.mem_append.1 mem).elim (first.kind m) (second.kind m)
  replies := by
    rw [List.filterMap_append, first.replies, second.replies, heeded.inspector, heeded.objects,
      Inspector.replies_append]
  none := by
    intro none
    obtain ⟨rfl, rfl⟩ := List.append_eq_nil_iff.1 none
    rw [first.none rfl, second.none rfl]
    rfl

theorem Accepted.trans {ms ns : List Message} (first : p.Accepted ms p₁)
    (second : p₁.Accepted ns p') : p.Accepted (ms ++ ns) p' := by
  obtain ⟨as, outbox, answering⟩ := first.outbox
  obtain ⟨bs, outbox', answering'⟩ := second.outbox
  refine ⟨first.toHeeded.trans second.toHeeded, second.link.trans first.link,
    second.lost.trans first.lost, as ++ bs, ?_, answering.append first.toHeeded answering'⟩
  rw [outbox', outbox, List.append_assoc]

/-- An order to go on or to pause changes no settings. -/
theorem proceed_frame (s : BreakState) (how : Proceed) :
    (s.proceed how).paused = (s.paused && how.interrupt) ∧
      (s.proceed how).settings = s.settings ∧ (s.proceed how).breakpoints = s.breakpoints := by
  unfold BreakState.proceed
  split
  · rename_i interrupt
    rw [interrupt, Bool.and_true]
    exact ⟨rfl, rfl, rfl⟩
  · rename_i resume
    rw [Bool.eq_false_iff.2 resume, Bool.and_false]
    split <;> exact ⟨rfl, rfl, rfl⟩

/-- What an order makes of the process. -/
theorem accept_order {m : Message} (order : m.isOrder = true) :
    ∃ p', p.accept m = .ok p' ∧ p.Accepted [m] p' := by
  have held : p.breaks.paused = (p.breaks.paused && !false) := (Bool.and_true _).symm
  have stays : p.terminating = (p.terminating || false) := (Bool.or_false _).symm
  have unanswered : p.outbox = p.outbox ++ [] := (List.append_nil _).symm
  have silent : ∀ m ∈ ([] : List Message), m.isAnswer = true := List.forall_mem_nil _
  have one : ∀ a : Message, a.isAnswer = true → ∀ m ∈ [a], m.isAnswer = true := fun a kind m mem =>
    by rw [List.mem_singleton.1 mem]; exact kind
  cases m with
  | configuration settings | breakpoints breakpoints =>
    exact ⟨_, rfl, ⟨rfl, stays, held, rfl, rfl, rfl, rfl⟩, rfl, rfl, [], unanswered, silent, rfl,
      nofun⟩
  | proceed how =>
    obtain ⟨paused, settings, breakpoints⟩ := proceed_frame p.breaks how
    refine ⟨_, rfl, ⟨rfl, stays, ?_, settings, breakpoints, rfl, rfl⟩, rfl, rfl, [], unanswered,
      silent, rfl, nofun⟩
    rw [List.any_cons, List.any_nil, Bool.or_false, Message.releases, Bool.not_not]
    exact paused
  | terminate =>
    exact ⟨_, rfl, ⟨rfl, (Bool.or_true _).symm, held, rfl, rfl, rfl, rfl⟩, rfl, rfl, [],
      unanswered, silent, rfl, nofun⟩
  | queryTrace window =>
    exact ⟨_, rfl, ⟨rfl, stays, held, rfl, rfl, rfl, rfl⟩, rfl, rfl, [_], rfl, one _ rfl, rfl,
      nofun⟩
  | request request =>
    exact ⟨_, rfl, ⟨rfl, stays, held, rfl, rfl, rfl, rfl⟩, rfl, rfl, [_], rfl, one _ rfl, rfl,
      nofun⟩
  | hello | paused | trace | reply => nomatch order

/-- What an event makes of a process whose link is up. -/
theorem accepted_handle {e : LinkEvent} (up : p.lost = none)
    (orders : ∀ m ∈ messages [e], m.isOrder = true) (lasting : ∀ reason, e ≠ .disconnected reason) :
    p.Accepted (messages [e]) (p.handle e) := by
  cases e with
  | message m =>
    obtain ⟨p', accepts, accepted⟩ := accept_order (p := p) (orders m List.mem_cons_self)
    have going : ¬ p.lost.isSome = true := by rw [up]; nofun
    rw [handle, if_neg going, accepts]
    exact accepted
  | connected =>
    have accepted := p.accepted_nil
    have heeded := p.heeded_nil
    exact ⟨⟨rfl, heeded.terminating, heeded.paused, rfl, rfl, rfl, rfl⟩, rfl, rfl, accepted.outbox⟩
  | sendingStarted | sendingStopped => exact p.accepted_nil
  | disconnected reason => exact absurd rfl (lasting reason)

theorem accepted_foldl {es : List LinkEvent} (up : p.lost = none)
    (orders : ∀ m ∈ messages es, m.isOrder = true)
    (lasting : ∀ e ∈ es, ∀ reason, e ≠ .disconnected reason) :
    p.Accepted (messages es) (es.foldl handle p) := by
  induction es generalizing p with
  | nil => exact p.accepted_nil
  | cons e es ih =>
    have split : messages (e :: es) = messages [e] ++ messages es := messages_append [e] es
    rw [split] at orders ⊢
    have first : p.Accepted (messages [e]) (p.handle e) := by
      refine accepted_handle up (fun m mem => ?_) (lasting e List.mem_cons_self)
      exact orders m (List.mem_append_left _ mem)
    refine first.trans (ih (first.lost.trans up) (fun m mem => ?_) fun e' mem => ?_)
    · exact orders m (List.mem_append_right _ mem)
    · exact lasting e' (List.mem_cons_of_mem e mem)

/-- Messages are handled as they would be if they arrived. -/
theorem accepted_orders {ms : List Message} (up : p.lost = none)
    (orders : ∀ m ∈ ms, m.isOrder = true) :
    p.Accepted ms (ms.foldl (fun p m => p.handle (.message m)) p) := by
  have same : messages (ms.map .message) = ms := by
    rw [messages, List.filterMap_map]
    exact List.filterMap_some
  have accepted : p.Accepted (messages (ms.map .message)) ((ms.map .message).foldl handle p) := by
    apply accepted_foldl up
    · rw [same]
      exact orders
    · intro e mem reason
      obtain ⟨m, _, rfl⟩ := List.mem_map.1 mem
      nofun
  rw [same, List.foldl_map] at accepted
  exact accepted

/-- A process has handled and answered messages: all that had arrived, or none. -/
structure Attended (p : Peer σ) (handled answers : List Message) (q : Peer σ) : Prop
    extends Heeded p handled q where
  calm : q.Calm
  handles : messages p.link.inbox = handled ++ messages q.link.inbox
  gone : messages (p.link.inbox.take (p.link.inbox.length - q.link.inbox.length)) = handled
  sends : q.link.sent = p.link.sent ++ answers
  answering : p.Answering handled answers

theorem Calm.attended_nil (calm : p.Calm) : p.Attended [] [] p where
  toHeeded := p.heeded_nil
  calm := calm
  handles := rfl
  gone := by rw [Nat.sub_self, List.take_zero, messages_nil]
  sends := (List.append_nil _).symm
  answering := p.answering_nil

/-- What has arrived is handled. -/
theorem Calm.drain (calm : p.Calm) :
    Accepted { p with link := { p.link with inbox := [] } } (messages p.link.inbox) p.drain := by
  have up : ¬ p.link.aborted = true := by rw [calm.opened.up]; nofun
  have drained : p.drain =
      p.link.inbox.foldl handle { p with link := { p.link with inbox := [] } } :=
    if_neg up
  rw [drained]
  exact accepted_foldl calm.lost calm.orders calm.lasting

/-- What has arrived is handled and answered. -/
theorem Calm.pump (calm : p.Calm) :
    ∃ answers q, p.pump = (.ok (), q) ∧ p.Attended (messages p.link.inbox) answers q := by
  have accepted := calm.drain
  obtain ⟨answers, outbox, answering⟩ := accepted.outbox
  have waits : p.drain.outbox = answers := by rw [outbox, calm.outbox]; rfl
  have link : p.drain.link = { p.link with inbox := [] } := accepted.link
  have opened : p.drain.link.Open := by
    rw [link]
    exact ⟨calm.opened.takes, calm.opened.up⟩
  have lost : p.drain.lost = none := accepted.lost.trans calm.lost
  have pumped := flush_of_up lost
  rw [waits, Link.offer_of_open opened, link] at pumped
  refine ⟨answers, _, pumped, ⟨⟨accepted.inside, accepted.terminating, accepted.paused,
    accepted.settings, accepted.breakpoints, accepted.inspector, accepted.objects⟩,
    ⟨⟨calm.opened.takes, calm.opened.up⟩, List.forall_mem_nil _, List.forall_mem_nil _, lost, rfl⟩,
    ?_, ?_, rfl, ⟨answering.kind, answering.replies, answering.none⟩⟩⟩
  · exact (List.append_nil _).symm
  · exact congrArg messages (List.take_length)

end Peer

end CallDebugger
