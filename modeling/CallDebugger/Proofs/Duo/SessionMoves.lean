import CallDebugger.Proofs.Duo.System
import CallDebugger.Proofs.Session.Requesting

/-!
# What a session does to its process

Over a link that takes everything, and on which the next message is one that the session accepts, a
turn has few outcomes (`Session.Outcome`). Seen from the process they are four moves
(`Session.Move`): the session hears the hello, stops at a pause, lets the paused process go on, or
does none of these.
-/

namespace CallDebugger

variable {ι : Type}

@[simp] theorem messages_nil : messages [] = [] := rfl

theorem messages_append (es fs : List LinkEvent) :
    messages (es ++ fs) = messages es ++ messages fs :=
  List.filterMap_append

/-- What a poll takes from the link. -/
theorem messages_of_poll {l l' : Link} {e : LinkEvent} (polled : l.poll = some (e, l')) :
    messages l.inbox = e.message?.toList ++ messages l'.inbox := by
  obtain ⟨_, rest, inbox, rfl⟩ := Link.poll_eq_some polled
  rw [inbox]
  cases e <;> rfl

/-! ## Queries -/

/-- An open link takes every query. -/
theorem Watches.query_of_open (ws : List (Watch ι)) (r : Requests (Callback ι)) {l : Link}
    (opened : l.Open) :
    query ws r l = (.ok (), noted ws r, (l.offer (queries ws r.nextRequest)).2) := by
  induction ws generalizing r l with
  | nil => simp [query, noted, entries, queries]
  | cons w ws ih =>
    have first := Link.send_of_open opened (.request ⟨.ofNat r.nextRequest, .query w.kind w.name⟩)
    have rest := ih (r.note w.handler (.snapshot w.kind w.label))
      (l := { l with
        attempts := l.attempts + 1
        sent := l.sent ++ [.request ⟨.ofNat r.nextRequest, .query w.kind w.name⟩] })
      ⟨opened.takes, opened.up⟩
    simp only [query, queries, Requests.issue, Link.offer, first, rest]
    simp only [noted, Requests.note, entries, List.length_cons, List.append_assoc,
      List.singleton_append, Nat.add_assoc, Nat.add_comm 1]

namespace Session

variable {s s' : Session ι} {t : Turn ι} {l : Link}

/-- A session over a link that takes everything, and where no event ends the link. -/
structure Linked (s : Session ι) (l : Link) : Prop where
  link : s.link = some l
  opened : l.Open
  lasting : ∀ e ∈ l.inbox, ∀ reason, e ≠ .disconnected reason
  /-- The next message is one that the session accepts. -/
  welcome : ∀ m, (messages l.inbox).head? = some m → s.rejects? m = none

theorem Linked.opened_of_poll {e : LinkEvent} {l' : Link} (linked : s.Linked l)
    (polled : l.poll = some (e, l')) : l'.Open := by
  obtain ⟨_, rest, _, rfl⟩ := Link.poll_eq_some polled
  exact ⟨linked.opened.takes, linked.opened.up⟩

theorem opened_of_offer {ms : List Message} {r : Option LinkError} {l' : Link} (opened : l.Open)
    (offered : l.offer ms = (r, l')) : l'.Open := by
  rw [Link.offer_of_open opened] at offered
  cases offered
  exact ⟨opened.takes, opened.up⟩

/-- The next message is one that the session accepts. -/
theorem Linked.accepts {m : Message} {l' : Link} (linked : s.Linked l)
    (polled : l.poll = some (.message m, l')) : s.rejects? m = none := by
  obtain ⟨_, rest, inbox, _⟩ := Link.poll_eq_some polled
  exact linked.welcome m (by rw [inbox]; rfl)

/-! ## What a turn comes to -/

/-- A turn about which the process learns nothing, and that at most forgets requests. -/
structure Still (s s' : Session ι) : Prop where
  phase : s'.phase = s.phase
  lastBreak : s'.lastBreak = s.lastBreak
  nextRequest : s'.requests.nextRequest = s.requests.nextRequest
  pending : s'.requests.pending ⊆ s.requests.pending

theorem still_of_same {s s' : Session ι} (phase : s'.phase = s.phase)
    (lastBreak : s'.lastBreak = s.lastBreak) (requests : s'.requests = s.requests) :
    s.Still s' :=
  ⟨phase, lastBreak, congrArg (·.nextRequest) requests,
    fun _ mem => requests ▸ mem⟩

theorem still_unsubscribe (s : Session ι) (id : WatchId) : s.Still (s.unsubscribe id).2 := by
  unfold unsubscribe Watches.unsubscribe
  cases s.watches.find? id with
  | none => exact still_of_same rfl rfl rfl
  | some w => exact ⟨rfl, rfl, rfl, List.filter_sublist.subset⟩

/-- What a turn comes to over a link that takes everything: the session and its link after it, and
the messages that it handles. -/
inductive Outcome (s : Session ι) (l : Link) : Turn ι → Session ι → Link → List Message → Prop where
  | still {t : Turn ι} {s' : Session ι} (link : s'.link = some l) (still : s.Still s')
      (nothing : s.offered t = []) : Outcome s l t s' l []
  | granted {t : Turn ι} {m : Message} {l' : Link} (offered : s.offers? t = some m)
      (sends : l.send m = (.ok (), l')) : Outcome s l t (s.grant l' t) l' []
  | noticed {e : LinkEvent} {n : Notice ι} {l' : Link} (polled : l.poll = some (e, l'))
      (told : notice? e = some n) : Outcome s l .next ({ s with link := some l' }.tell n) l' []
  | greeted {name : String} {l' : Link} (polled : l.poll = some (.message (.hello name), l'))
      (phase : s.phase = .connecting) :
      Outcome s l .next ({ s with link := some l' }.greetedBy name) l' [.hello name]
  | paused {pause : Pause} {l₀ l' : Link} (polled : l.poll = some (.message (.paused pause), l₀))
      (connected : s.isConnected = true)
      (sends : l₀.offer (s.announcement ++
        Watches.queries s.watches.live s.requests.nextRequest) = (none, l')) :
      Outcome s l .next
        ({ s.pausedAt pause with
          link := some l'
          requests := Watches.noted s.watches.live s.requests }.status "Breaked execution.")
        l' [.paused pause]
  | traced {page : TracePage} {l' : Link} (polled : l.poll = some (.message (.trace page), l')) :
      Outcome s l .next ({ s with link := some l' }.tell (.trace page)) l' [.trace page]
  | replied {reply : Reply} {l' : Link} (polled : l.poll = some (.message (.reply reply), l')) :
      Outcome s l .next ({ s with link := some l' }.acceptReply reply) l' [.reply reply]

/-- An open link does not refuse the settings and the breakpoints. -/
theorem not_refused {ms : List Message} {l' : Link} {r : LinkError} (opened : l.Open) :
    l.offer ms ≠ (some r, l') := by
  rw [Link.offer_of_open opened]
  nofun

/-- **Every turn has an outcome.** A session keeps its link, whatever its owner does. -/
theorem Effect.outcome (effect : Effect s t s') (linked : s.Linked l) (own : t.isOwn = true) :
    ∃ l' handled, s.Outcome l t s' l' handled := by
  have same : ∀ {k : Link}, s.link = some k → k = l := fun link => by
    rw [linked.link] at link
    cases link
    rfl
  cases effect with
  | connect | connectWith | disconnect | arrive => nomatch own
  | register | subscribe =>
    exact ⟨l, [], .still linked.link ⟨rfl, rfl, rfl, List.Subset.refl _⟩ rfl⟩
  | unregister handler =>
    exact ⟨l, [], .still linked.link ⟨rfl, rfl, rfl, List.filter_sublist.subset⟩ rfl⟩
  | unsubscribe id => exact ⟨l, [], .still linked.link (s.still_unsubscribe id) rfl⟩
  | declined command nothing =>
    refine ⟨l, [], .still ((link_store s t).trans linked.link) ?_ ?_⟩
    · cases t <;> exact still_of_same rfl rfl rfl
    · rw [offered_of_command command, nothing]
      rfl
  | refused link _ refusal =>
    rw [same link, Link.send_of_open linked.opened] at refusal
    nomatch refusal
  | granted link offered sent =>
    rw [same link] at sent
    exact ⟨_, [], .granted offered sent⟩
  | idle nothing =>
    exact ⟨l, [], .still linked.link (still_of_same rfl rfl rfl) (offered_idle nothing)⟩
  | @noticed e n k l' link polled told =>
    rw [same link] at polled
    exact ⟨l', [], .noticed polled told⟩
  | @ended reason k l' link polled =>
    rw [same link] at polled
    obtain ⟨_, rest, inbox, _⟩ := Link.poll_eq_some polled
    exact absurd rfl (linked.lasting _ (by rw [inbox]; exact List.mem_cons_self) reason)
  | rejected link polled rejection =>
    rw [same link] at polled
    rw [linked.accepts polled] at rejection
    nomatch rejection
  | @greeted name k l' link polled phase =>
    rw [same link] at polled
    exact ⟨l', _, .greeted polled phase⟩
  | unsynced link polled _ refusal =>
    rw [same link] at polled
    exact absurd refusal (not_refused (linked.opened_of_poll polled))
  | unqueried link polled _ sent refusal =>
    rw [same link] at polled
    have opened := opened_of_offer (linked.opened_of_poll polled) sent
    rw [Watches.query_of_open _ _ opened] at refusal
    nomatch refusal
  | @paused pause k l₀ l₁ l' requests link polled connected sent queried =>
    rw [same link] at polled
    have opened := opened_of_offer (linked.opened_of_poll polled) sent
    rw [Watches.query_of_open _ _ opened] at queried
    cases queried
    refine ⟨_, _, .paused polled connected ?_⟩
    simp only [Link.offer_append, sent, Link.offer_of_open opened]
  | @traced page k l' link polled =>
    rw [same link] at polled
    exact ⟨l', _, .traced polled⟩
  | @replied reply k l' link polled =>
    rw [same link] at polled
    exact ⟨l', _, .replied polled⟩

/-! ## Moves -/

/-- What a session has made of the messages that it handles, and what it sends. -/
inductive Move (s : Session ι) : List Message → List Message → Session ι → Prop where
  | quiet {handled sent : List Message} {s' : Session ι}
      (answers : ∀ m ∈ handled, m.isAnswer = true)
      (orders : ∀ m ∈ sent, m.isOrder = true ∧ m.releases = false)
      (silent : s.phase = .connecting → sent = [])
      (phase : s'.phase = s.phase) (lastBreak : s'.lastBreak = s.lastBreak) :
      Move s handled sent s'
  | greeted {name : String} {s' : Session ι} (before : s.phase = .connecting)
      (after : s'.phase = .running) : Move s [.hello name] [] s'
  | stopped {pause : Pause} {sent : List Message} {s' : Session ι}
      (connected : s.isConnected = true)
      (orders : ∀ m ∈ sent, m.isOrder = true ∧ m.releases = false)
      (after : s'.phase = .breaked) (lastBreak : s'.lastBreak = some pause) :
      Move s [.paused pause] sent s'
  | freed {m : Message} {s' : Session ι} (order : m.isOrder = true) (releases : m.releases = true)
      (before : s.phase = .breaked) (after : s'.phase = .running) : Move s [] [m] s'

/-- A session sends orders only. -/
theorem Move.orders {handled sent : List Message} (move : s.Move handled sent s') :
    ∀ m ∈ sent, m.isOrder = true := by
  cases move with
  | quiet _ orders | stopped _ orders => exact fun m mem => (orders m mem).1
  | greeted => exact List.forall_mem_nil _
  | freed order => exact fun m mem => by rw [List.mem_singleton.1 mem]; exact order

/-- The message of a command goes out. -/
theorem move_grant {m : Message} (offered : s.offers? t = some m) (l' : Link) :
    s.Move [] [m] (s.grant l' t) := by
  obtain ⟨order, releases⟩ := offers_order offered
  by_cases release : m.releases = true
  · obtain ⟨before, rfl | ⟨mode, rfl⟩⟩ := releases release
    · exact .freed order release before rfl
    · exact .freed order release before rfl
  · have held : ∀ m' ∈ [m], m'.isOrder = true ∧ m'.releases = false := fun m' mem => by
      rw [List.mem_singleton.1 mem]
      exact ⟨order, Bool.eq_false_iff.2 release⟩
    have answers : ∀ m ∈ ([] : List Message), m.isAnswer = true := fun _ mem => nomatch mem
    have silent : s.phase = .connecting → [m] = [] := fun connecting => by
      rcases isConnected_iff.1 (isConnected_of_offers offered) with phase | phase <;>
        rw [connecting] at phase <;> nomatch phase
    cases t with
    | goOn | step =>
      simp only [offers?, Option.ite_none_right_eq_some, Option.some.injEq] at offered
      exact absurd (offered.2 ▸ rfl) release
    | _ => exact .quiet answers held silent rfl rfl

/-- What a move takes from the link and puts on it. -/
structure Moved (s : Session ι) (l : Link) (s' : Session ι) (l' : Link)
    (handled sent : List Message) : Prop where
  link : s'.link = some l'
  opened : l'.Open
  handles : messages l.inbox = handled ++ messages l'.inbox
  fewer : l'.inbox ⊆ l.inbox
  sends : l'.sent = l.sent ++ sent
  move : s.Move handled sent s'

/-- A turn that handles an event. -/
theorem moved_event {e : LinkEvent} {l₀ l' : Link} {handled sent : List Message}
    (polled : l.poll = some (e, l₀)) (arrives : e.message?.toList = handled)
    (link : s'.link = some l') (opened : l'.Open) (inbox : l'.inbox = l₀.inbox)
    (sends : l'.sent = l₀.sent ++ sent) (move : s.Move handled sent s') :
    s.Moved l s' l' handled sent := by
  have taken := messages_of_poll polled
  obtain ⟨_, rest, waits, rfl⟩ := Link.poll_eq_some polled
  refine ⟨link, opened, ?_, ?_, sends, move⟩
  · rw [taken, arrives, inbox]
  · rw [waits, inbox]
    exact List.subset_cons_self e rest

theorem move_still {handled : List Message} (answers : ∀ m ∈ handled, m.isAnswer = true)
    (still : s.Still s') : s.Move handled [] s' :=
  .quiet answers (List.forall_mem_nil _) (fun _ => rfl) still.phase still.lastBreak

/-- **Every turn is a move.** -/
theorem Outcome.moved {l' : Link} {handled : List Message} (outcome : s.Outcome l t s' l' handled)
    (linked : s.Linked l) : s.Moved l s' l' handled (s.offered t) := by
  have nothing := (List.append_nil l'.sent).symm
  have quiet : ∀ {m : Message}, m.isAnswer = true → ∀ m' ∈ [m], m'.isAnswer = true :=
    fun answer m' mem => by rw [List.mem_singleton.1 mem]; exact answer
  cases outcome with
  | still link still silent =>
    rw [silent]
    exact ⟨link, linked.opened, rfl, List.Subset.refl _, nothing,
      move_still (List.forall_mem_nil _) still⟩
  | granted offered sends =>
    rw [Link.send_of_open linked.opened] at sends
    cases sends
    rw [offered_of_command (isCommand_of_offers offered), offered]
    exact ⟨(link_grant s _ t).1, ⟨linked.opened.takes, linked.opened.up⟩, rfl, List.Subset.refl _,
      rfl, move_grant offered _⟩
  | @noticed e n _ polled told =>
    have unread : e.message?.toList = [] := by cases e <;> first | rfl | nomatch told
    rw [offered_next linked.link polled, prompted_of_notice told]
    exact moved_event polled unread rfl (linked.opened_of_poll polled) rfl nothing
      (move_still (List.forall_mem_nil _) (still_of_same rfl rfl rfl))
  | greeted polled phase =>
    rw [offered_next linked.link polled]
    exact moved_event polled rfl rfl (linked.opened_of_poll polled) rfl nothing
      (.greeted phase rfl)
  | paused polled connected sends =>
    have opened := linked.opened_of_poll polled
    rw [Link.offer_of_open opened] at sends
    cases sends
    rw [offered_next linked.link polled, prompted_paused connected]
    refine moved_event polled rfl rfl ⟨opened.takes, opened.up⟩ rfl rfl ?_
    refine .stopped connected (fun m mem => ?_) rfl rfl
    rcases List.mem_append.1 mem with mem | mem
    · exact s.orders_announcement m mem
    · exact orders_queries _ _ m mem
  | traced polled =>
    rw [offered_next linked.link polled]
    exact moved_event polled rfl rfl (linked.opened_of_poll polled) rfl nothing
      (move_still (quiet rfl) (still_of_same rfl rfl rfl))
  | replied polled =>
    rw [offered_next linked.link polled, acceptReply_eq]
    exact moved_event polled rfl rfl (linked.opened_of_poll polled) rfl nothing
      (.quiet (quiet rfl) (List.forall_mem_nil _) (fun _ => rfl) rfl rfl)

end Session

end CallDebugger
