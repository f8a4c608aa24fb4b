import CallDebugger.Proofs.Traced.Attending

/-!
# What a debug server replies

The life of a server is told in episodes (`Peer.Episode`): its process does something, or events
arrive. As long as no message is refused, an episode sends one answer to each query and each request
that it handles, on what the episodes before it have left, and after the answers the greeting or the
pause that it comes to (`Peer.replies_in_order`).
-/

namespace CallDebugger

variable {σ : Type}

namespace Peer

variable {p q p' : Peer σ} {es : List LinkEvent}

/-! ## Episodes -/

/-- What happens to a server: its process does something, or events arrive. -/
inductive Occurrence where
  | does (a : Activity)
  | arrives (events : List LinkEvent)

/-- The server after something has happened. -/
def occur (p : Peer σ) : Occurrence → Peer σ
  | .does a => (p.perform a).2
  | .arrives events => p.arrive events

/-- The server after several things have happened. -/
def live (p : Peer σ) (os : List Occurrence) : Peer σ := os.foldl occur p

/-- Something that happens to a server, and the server before it. -/
structure Episode (σ : Type) where
  before : Peer σ
  occurrence : Occurrence

/-- The episodes of a life. -/
def episodes (p : Peer σ) : List Occurrence → List (Episode σ)
  | [] => []
  | o :: os => ⟨p, o⟩ :: (p.occur o).episodes os

namespace Episode

/-- The server after an episode. -/
def after (e : Episode σ) : Peer σ := e.before.occur e.occurrence

/-- The events that an episode takes from the link. -/
def batch (e : Episode σ) : List LinkEvent :=
  e.before.link.inbox.take (e.before.link.inbox.length - e.after.link.inbox.length)

/-- The events that an episode brings: none to a link that was torn down. -/
def arrived (e : Episode σ) : List LinkEvent :=
  match e.occurrence with
  | .does _ => []
  | .arrives events => if e.before.link.aborted then [] else events

/-- Whether the link is lost by what an episode takes from it. -/
def loses (e : Episode σ) : Bool := e.batch.any LinkEvent.isFatal

/-- The messages that an episode handles. -/
def handled (e : Episode σ) : List Message := e.before.heard e.batch

/-- The messages that an episode puts on the link. -/
def sent (e : Episode σ) : List Message := e.after.link.sent.drop e.before.link.sent.length

/-- What an episode has to say beside answers. -/
def announces (e : Episode σ) : List Message :=
  match e.occurrence with
  | .does a => e.before.announcement a (e.before.perform a).1 e.after
  | .arrives _ => []

/-- The answers that an episode has to send, on a history and on objects: none if the link is lost
meanwhile. -/
def answers (e : Episode σ) (h : History) (objects : σ) : List Message :=
  if e.loses then [] else e.before.inspector.answers h objects e.handled

/-- What an episode makes of the history. -/
def records (e : Episode σ) (h : History) : History :=
  match e.occurrence with
  | .does a => e.before.recorded a (e.before.perform a).1 h
  | .arrives _ => h

end Episode

/-! ## What an episode comes to -/

/-- What an episode makes of the server. -/
structure Episode.Keeps (e : Episode σ) : Prop where
  inspector : e.after.inspector = e.before.inspector
  objects : e.after.objects = e.before.inspector.objectsAfter e.before.objects e.handled
  history : e.after.history = e.records e.before.history
  lost : e.after.lost.isSome = (e.before.lost.isSome || e.loses)
  tidy : e.after.Tidy
  inbox : e.before.link.inbox ++ e.arrived = e.batch ++ e.after.link.inbox
  grows : e.before.link.Grows e.after.link
    (e.answers e.before.history e.before.objects ++ e.announces)

/-- What is taken from the link is what is gone from its inbox, unless the link was lost before. -/
theorem Minds.batch {e : Episode σ} {history : History} {announced : List Message}
    (minds : e.before.Minds es q) (settles : q.Settles history announced e.after) :
    (e.batch = es ∨ e.before.lost.isSome = true) ∧
      e.before.link.inbox = e.batch ++ e.after.link.inbox := by
  unfold Episode.batch
  rcases minds.taken with ⟨rfl, emptied⟩ | ⟨rfl, same⟩
  · have empty : e.after.link.inbox = [] := by
      rcases settles.dropped with kept | ⟨dropped, -⟩
      · rw [kept, emptied]
      · exact dropped
    rw [empty, List.length_nil, Nat.sub_zero, List.take_length, List.append_nil]
    exact ⟨.inl rfl, rfl⟩
  · rcases settles.dropped with kept | ⟨dropped, lost⟩
    · rw [kept, same, Nat.sub_self, List.take_zero]
      exact ⟨.inl rfl, rfl⟩
    · rw [minds.lost, List.any_nil, Bool.or_false] at lost
      rw [dropped, List.length_nil, Nat.sub_zero, List.take_length, List.append_nil]
      exact ⟨.inr lost, rfl⟩

theorem Tidy.does (tidy : p.Tidy) (a : Activity) : Episode.Keeps ⟨p, .does a⟩ := by
  obtain ⟨es, q, minds, settles⟩ := tidy.perform a
  let e : Episode σ := ⟨p, .does a⟩
  obtain ⟨batch, inbox⟩ := Minds.batch (e := e) minds settles
  have handled : e.handled = p.heard es := by
    rcases batch with rfl | lost
    · rfl
    · rw [Episode.handled, heard_of_lost lost, heard_of_lost lost]
  have lost : q.lost.isSome = (p.lost.isSome || e.loses) := by
    rw [minds.lost]
    rcases batch with rfl | lost
    · rfl
    · have lost : p.lost.isSome = true := lost
      rw [lost, Bool.true_or, Bool.true_or]
  have answers : (if q.lost.isSome then []
      else p.inspector.answers p.history p.objects (p.heard es)) =
      e.answers p.history p.objects := by
    rw [lost, ← handled, Episode.answers]
    cases gone : p.lost.isSome with
    | true =>
      have none : e.handled = [] := heard_of_lost gone _
      rw [none, Bool.true_or]
      exact (ite_self _).symm
    | false => rfl
  constructor
  · exact settles.inspector.trans minds.inspector
  · rw [handled]
    exact settles.objects.trans minds.objects
  · exact settles.history
  · rw [← lost, ← settles.lost]
    rfl
  · exact settles.tidy
  · exact (List.append_nil _).trans inbox
  · have grows := minds.grows.trans settles.grows
    rw [answers] at grows
    exact grows

theorem inbox_arrives (p : Peer σ) (events : List LinkEvent) :
    (p.arrive events).link.inbox =
      p.link.inbox ++ Episode.arrived ⟨p, .arrives events⟩ := by
  show (p.link.push events).inbox = p.link.inbox ++ if p.link.aborted then [] else events
  unfold Link.push
  split
  · exact (List.append_nil _).symm
  · rfl

/-- Nothing is taken by what arrives. -/
theorem batch_arrives (p : Peer σ) (events : List LinkEvent) :
    Episode.batch ⟨p, .arrives events⟩ = [] := by
  have more : p.link.inbox.length - (p.arrive events).link.inbox.length = 0 := by
    rw [inbox_arrives, List.length_append]
    omega
  show p.link.inbox.take (p.link.inbox.length - (p.arrive events).link.inbox.length) = []
  rw [more, List.take_zero]

theorem Tidy.arrives (tidy : p.Tidy) (events : List LinkEvent) :
    Episode.Keeps ⟨p, .arrives events⟩ := by
  let e : Episode σ := ⟨p, .arrives events⟩
  have inbox : e.after.link.inbox = p.link.inbox ++ e.arrived := inbox_arrives p events
  have frame : e.after.link.attempts = p.link.attempts ∧ e.after.link.sent = p.link.sent ∧
      e.after.link.aborted = p.link.aborted := by
    show (p.link.push events).attempts = _ ∧ (p.link.push events).sent = _ ∧
      (p.link.push events).aborted = _
    unfold Link.push
    split <;> exact ⟨rfl, rfl, rfl⟩
  have none : e.batch = [] := batch_arrives p events
  have handled : e.handled = [] := by
    rw [Episode.handled, none, heard_nil]
  have loses : e.loses = false := by
    rw [Episode.loses, none]
    rfl
  have silent : e.answers p.history p.objects = [] := by
    rw [Episode.answers, handled]
    exact ite_self _
  constructor
  · rfl
  · rw [handled]
    rfl
  · rfl
  · rw [loses, Bool.or_false]
    rfl
  · refine ⟨tidy.outbox, ?_⟩
    rw [frame.2.2]
    exact tidy.lost
  · rw [none]
    exact inbox.symm
  · rw [silent]
    exact Link.grows_of_eq frame.1 frame.2.1

/-- **What an episode comes to.** -/
theorem Tidy.episode {e : Episode σ} (tidy : e.before.Tidy) : e.Keeps := by
  obtain ⟨p, a | events⟩ := e
  · exact tidy.does a
  · exact tidy.arrives events

/-! ## Lives -/

/-- What an episode has to send. -/
def Episode.owes (e : Episode σ) : List Message :=
  e.answers e.before.history e.before.objects ++ e.announces

/-- What the episodes of a life make of the server. -/
structure Lives (p : Peer σ) (es : List (Episode σ)) (p' : Peer σ) : Prop where
  inspector : p'.inspector = p.inspector
  objects : p'.objects = p.inspector.objectsAfter p.objects (es.flatMap Episode.handled)
  history : p'.history = es.foldl (fun h e => e.records h) p.history
  lost : p'.lost.isSome = (p.lost.isSome || es.any Episode.loses)
  tidy : p'.Tidy
  inbox : p.link.inbox ++ es.flatMap Episode.arrived =
    es.flatMap Episode.batch ++ p'.link.inbox
  grows : p.link.Grows p'.link (es.flatMap Episode.owes)

theorem Tidy.lives_nil (tidy : p.Tidy) : p.Lives [] p where
  inspector := rfl
  objects := rfl
  history := rfl
  lost := (Bool.or_false _).symm
  tidy := tidy
  inbox := List.append_nil _
  grows := Link.grows_of_eq rfl rfl

/-- An episode, and those after it. -/
theorem Lives.cons {e : Episode σ} {es : List (Episode σ)} (first : e.Keeps)
    (later : e.after.Lives es p') : e.before.Lives (e :: es) p' where
  inspector := later.inspector.trans first.inspector
  objects := by
    rw [later.objects, first.inspector, first.objects, List.flatMap_cons,
      Inspector.objectsAfter_append]
  history := by
    rw [later.history, first.history]
    rfl
  lost := by rw [later.lost, first.lost, List.any_cons, Bool.or_assoc]
  tidy := later.tidy
  inbox := by
    rw [List.flatMap_cons, List.flatMap_cons, ← List.append_assoc, first.inbox, List.append_assoc,
      later.inbox, List.append_assoc]
  grows := first.grows.trans later.grows

theorem Tidy.lives (tidy : p.Tidy) (os : List Occurrence) :
    p.Lives (p.episodes os) (p.live os) := by
  induction os generalizing p with
  | nil => exact tidy.lives_nil
  | cons o os ih =>
    have first : Episode.Keeps ⟨p, o⟩ := Tidy.episode (e := ⟨p, o⟩) tidy
    exact .cons first (ih first.tidy)

/-- An episode of a life is preceded by another life, and followed by a third. -/
theorem episodes_split {os : List Occurrence} {earlier later : List (Episode σ)} {e : Episode σ}
    (split : p.episodes os = earlier ++ e :: later) :
    ∃ before after, earlier = p.episodes before ∧ e.before = p.live before ∧
      later = e.after.episodes after ∧ p.live os = e.after.live after := by
  induction earlier generalizing p os with
  | nil =>
    cases os with
    | nil => nomatch split
    | cons o os =>
      obtain ⟨rfl, rfl⟩ := List.cons.inj split
      exact ⟨[], os, rfl, rfl, rfl, rfl⟩
  | cons e' earlier ih =>
    cases os with
    | nil => nomatch split
    | cons o os =>
      obtain ⟨rfl, rest⟩ := List.cons.inj split
      obtain ⟨before, after, rfl, place, rfl, live⟩ := ih rest
      exact ⟨o :: before, after, rfl, place, rfl, live⟩

/-- An episode of a life in which nothing is refused sends what it has to send. -/
theorem sent_of_split (tidy : p.Tidy) {os : List Occurrence}
    (unrefused : (p.live os).link.attempts + p.link.sent.length =
      p.link.attempts + (p.live os).link.sent.length)
    {earlier later : List (Episode σ)} {e : Episode σ}
    (split : p.episodes os = earlier ++ e :: later) :
    p.Lives earlier e.before ∧ e.sent = e.owes := by
  obtain ⟨before, after, rfl, place, rfl, live⟩ := episodes_split split
  have lives : p.Lives (p.episodes before) e.before := by
    rw [place]
    exact tidy.lives before
  have keeps : e.Keeps := lives.tidy.episode
  have rest := (keeps.tidy.lives after).grows.attempts
  rw [live] at unrefused
  have front := lives.grows.attempts
  have middle := keeps.grows.attempts
  refine ⟨lives, ?_⟩
  rw [Episode.sent, keeps.grows.sent (by omega), List.drop_left]
  rfl

/-- **Replies in order.** Let anything happen to a server in any order, so long as none of its
messages is refused.

* The link has taken what the episodes have sent, one after the other, and the episodes have taken
  from the link, one after the other, what has arrived.
* An episode handles the messages that it takes up to the event that loses the link, and nothing if
  the link was lost before.
* Unless the link is lost by then, it sends one answer to each query and each request that it
  handles, in order. A query is answered from the calls that were let through before, and a request
  by what the inspector makes of the objects that the requests before it have left. After that it
  sends the greeting or the pause that it comes to, and nothing else. -/
theorem replies_in_order (verdict : Nat → Message → Option LinkError) (inspector : Inspector σ)
    (objects : σ) (capacity : Nat) (os : List Occurrence)
    (unrefused :
      ((listen (.fresh verdict) inspector objects capacity).live os).link.attempts =
        ((listen (.fresh verdict) inspector objects capacity).live os).link.sent.length) :
    let start := listen (.fresh verdict) inspector objects capacity
    let episodes := start.episodes os
    let link := (start.live os).link
    link.sent = episodes.flatMap Episode.sent ∧
    episodes.flatMap Episode.arrived = episodes.flatMap Episode.batch ++ link.inbox ∧
    ∀ earlier e later, episodes = earlier ++ e :: later →
      e.handled = (if earlier.any Episode.loses then []
        else messages (e.batch.takeWhile fun event => !event.isFatal)) ∧
      e.sent = (if e.loses then []
        else inspector.answers (earlier.foldl (fun h e => e.records h) (.new capacity))
          (inspector.objectsAfter objects (earlier.flatMap Episode.handled)) e.handled) ++
        e.announces := by
  intro start episodes link
  have tidy : start.Tidy := ⟨rfl, nofun⟩
  have lives : start.Lives episodes (start.live os) := tidy.lives os
  have taken : link.attempts + start.link.sent.length =
      start.link.attempts + link.sent.length := by
    show link.attempts + 0 = 0 + link.sent.length
    have : link.attempts = link.sent.length := unrefused
    omega
  have owed : episodes.flatMap Episode.sent = episodes.flatMap Episode.owes := by
    rw [List.flatMap_def, List.flatMap_def]
    apply congrArg List.flatten (List.map_congr_left _)
    intro e mem
    obtain ⟨earlier, later, split⟩ := List.append_of_mem mem
    exact (sent_of_split tidy taken split).2
  refine ⟨?_, lives.inbox, ?_⟩
  · rw [owed]
    exact lives.grows.sent taken
  · intro earlier e later split
    obtain ⟨lives, sent⟩ := sent_of_split tidy taken split
    constructor
    · rw [Episode.handled, heard, lives.lost]
      rfl
    · rw [sent, Episode.owes, Episode.answers, lives.inspector, lives.history, lives.objects]
      rfl

/-- A pause during which the newest call is asked for, and then a snapshot that is not there. -/
theorem replies_in_order_paused :
    ∃ os : List Occurrence,
      ((listen (.fresh fun _ _ => none) Exhibition.inspector default 8).live os).link.attempts =
        ((listen (.fresh fun _ _ => none) Exhibition.inspector default 8).live os).link.sent.length ∧
      ∃ earlier e, (listen (.fresh fun _ _ => none) Exhibition.inspector default 8).episodes os =
          earlier ++ [e] ∧
        e.handled = [.queryTrace ⟨0, 5⟩, .request ⟨7, .query default default⟩] ∧
        ∃ reason, e.sent = [.trace ⟨0, [default]⟩, .reply (.failure 7 reason)] := by
  have unrefused : ((listen (.fresh fun _ _ => none) Exhibition.inspector default 8).live
      [.does .attach, .arrives [.connected], .does .wake, .does (.before default),
        .arrives [.message (.proceed (.stepping .call))], .does .wake, .does (.before default),
        .arrives [.message (.queryTrace ⟨0, 5⟩), .message (.request ⟨7, .query default default⟩)],
        .does .wake]).link.attempts = 5 := rfl
  obtain ⟨-, -, each⟩ :=
    replies_in_order (fun _ _ => none) Exhibition.inspector default 8 _ unrefused
  obtain ⟨handled, sent⟩ := each [_, _, _, _, _, _, _, _] _ [] rfl
  exact ⟨_, unrefused, [_, _, _, _, _, _, _, _], _, rfl, handled, _, sent⟩

end Peer

end CallDebugger
