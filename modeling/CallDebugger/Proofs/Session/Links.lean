import CallDebugger.Proofs.Session.Effect

/-!
# What a turn does to the links

Whatever happens to a session, the links that it gave up are left alone, the link in use is offered
what the turn has to say (`Session.offered`) and is then kept or given up, and the link that the
turn adopts comes into its place. `Session.fate` says so for every turn.
-/

namespace CallDebugger

variable {ι : Type}

/-- What a link has become of that was offered messages, and perhaps torn down since. -/
structure Link.Grown (l : Link) (ms : List Message) (l' : Link) : Prop where
  verdict : l'.verdict = l.verdict
  sent : l'.sent = l.sent ++ l.taken ms
  /-- A link that is up counts the messages that it took, and the one that it refused. -/
  attempts : l.aborted = false →
    l'.attempts = l.attempts + (l.taken ms).length + (if (l.offer ms).1.isSome then 1 else 0)

/-- What a link has become of that was offered messages, and is still in use. -/
structure Link.Served (l : Link) (ms : List Message) (l' : Link) : Prop extends l.Grown ms l' where
  aborted : l'.aborted = l.aborted

namespace Link

theorem served_nil (l : Link) : l.Served [] l := ⟨⟨rfl, by simp [taken], fun _ => rfl⟩, rfl⟩

theorem served_offer (l : Link) (ms : List Message) : l.Served ms (l.offer ms).2 :=
  ⟨⟨(l.offer_frame ms).1, l.sent_offer ms, fun up => attempts_offer up ms⟩, (l.offer_frame ms).2.2⟩

theorem served_push (l : Link) (events : List LinkEvent) : l.Served [] (l.push events) := by
  unfold push
  split
  · exact l.served_nil
  · exact ⟨⟨rfl, by simp [taken], fun _ => rfl⟩, rfl⟩

theorem served_poll {l l' : Link} {e : LinkEvent} (h : l.poll = some (e, l')) : l.Served [] l' := by
  obtain ⟨_, rest, _, rfl⟩ := poll_eq_some h
  exact ⟨⟨rfl, by simp [taken], fun _ => rfl⟩, rfl⟩

theorem Grown.abort {l l' : Link} {ms : List Message} (h : l.Grown ms l') : l.Grown ms l'.abort :=
  ⟨h.verdict, h.sent, h.attempts⟩

/-- What waits on a link does not matter to what it takes. -/
theorem served_after_poll {l l₀ l' : Link} {e : LinkEvent} {ms : List Message}
    (h : l.poll = some (e, l₀)) (served : l₀.Served ms l') : l.Served ms l' := by
  obtain ⟨up, rest, _, rfl⟩ := poll_eq_some h
  have taken := l.taken_inbox rest ms
  have same : l'.attempts = l.attempts + (l.taken ms).length
      + (if (l.offer ms).1.isSome then 1 else 0) := by
    have offered : (({ l with inbox := rest } : Link).offer ms).1 = (l.offer ms).1 := by
      rw [l.offer_inbox rest ms]
    have counted := served.attempts up
    rw [taken, offered] at counted
    exact counted
  exact ⟨⟨served.verdict, by rw [served.sent, taken], fun _ => same⟩, served.aborted⟩

end Link

namespace Message

/-- A message of a kind that a controller sends. -/
def isOrder : Message → Bool
  | .configuration _ | .proceed _ | .terminate | .queryTrace _ | .request _ | .breakpoints _ => true
  | .hello _ | .paused _ | .trace _ | .reply _ => false

/-- A message that lets a paused process go on. -/
def releases : Message → Bool
  | .proceed how => !how.interrupt
  | _ => false

end Message

namespace Session

/-- What an event makes the session offer to its link. -/
def prompted (s : Session ι) : LinkEvent → List Message
  | .message (.paused _) =>
    if s.isConnected then s.announcement ++ Watches.queries s.watches.live s.requests.nextRequest
    else []
  | _ => []

/-- What a turn offers to the link in use. -/
def offered (s : Session ι) : Turn ι → List Message
  | .next =>
    match s.poll with
    | some (e, _) => s.prompted e
    | none => []
  | t => (s.offers? t).toList

/-- What may become of the links of a session. -/
inductive Fate (s : Session ι) (t : Turn ι) (s' : Session ι) : Prop where
  /-- The link in use, if there is one, stays in use. -/
  | kept (f : Link → Link) (served : ∀ l, s.link = some l → l.Served (s.offered t) (f l))
      (adopts : t.adopts = []) (link : s'.link = s.link.map f) (retired : s'.retired = s.retired)
  /-- It is given up, and the link that the turn adopts replaces it. -/
  | replaced (f : Link → Link) (served : ∀ l, s.link = some l → l.Served (s.offered t) (f l))
      (link : s'.link = t.adopts.head?)
      (retired : s'.retired = s.retired ++ (s.link.map fun l => (f l).abort).toList)

variable {s s' : Session ι} {t : Turn ι} {l l' : Link}

/-- A turn that leaves the link in use alone. -/
theorem Fate.left (adopts : t.adopts = []) (nothing : s.offered t = [])
    (link : s'.link = s.link) (retired : s'.retired = s.retired) : Fate s t s' :=
  .kept id (fun l _ => nothing ▸ l.served_nil) adopts (by rw [link, Option.map_id, id]) retired

/-- A turn that keeps the link in use. -/
theorem Fate.kept_of (linked : s.link = some l) (served : l.Served (s.offered t) l')
    (adopts : t.adopts = []) (link : s'.link = some l') (retired : s'.retired = s.retired) :
    Fate s t s' := by
  refine .kept (fun _ => l') (fun k linked' => ?_) adopts (by rw [link, linked]; rfl) retired
  rw [linked] at linked'
  cases linked'
  exact served

/-- A turn that loses the link in use. -/
theorem Fate.lost (linked : s.link = some l) (served : l.Served (s.offered t) l')
    (adopts : t.adopts = []) (link : s'.link = none)
    (retired : s'.retired = s.retired ++ [l'.abort]) :
    Fate s t s' := by
  refine .replaced (fun _ => l') (fun k linked' => ?_) (by rw [link, adopts]; rfl)
    (by rw [retired, linked]; rfl)
  rw [linked] at linked'
  cases linked'
  exact served

/-! ## What is offered -/

theorem offered_of_command (command : t.isCommand = true) : s.offered t = (s.offers? t).toList := by
  cases t <;> first | rfl | nomatch command

theorem offered_next {e : LinkEvent} (linked : s.link = some l) (polled : l.poll = some (e, l')) :
    s.offered .next = s.prompted e := by
  rw [offered, poll_of_event linked polled]

theorem prompted_of_rejects {m : Message} {e : SessionError} (rejection : s.rejects? m = some e) :
    s.prompted (.message m) = [] := by
  cases m <;> try rfl
  simp only [rejects?, Option.ite_none_left_eq_some] at rejection
  exact if_neg rejection.1

theorem prompted_paused (connected : s.isConnected = true) (pause : Pause) :
    s.prompted (.message (.paused pause)) =
      s.announcement ++ Watches.queries s.watches.live s.requests.nextRequest :=
  if_pos connected

theorem prompted_of_notice {e : LinkEvent} {n : Notice ι} (told : notice? e = some n) :
    s.prompted e = [] := by
  cases e <;> first | rfl | nomatch told

theorem offered_idle (nothing : s.poll = none) : s.offered .next = [] := by
  rw [offered, nothing]

/-- Nothing is offered where there is no link. -/
theorem offered_of_none (tied : s.Tied) (gone : s.link = none) (t : Turn ι) : s.offered t = [] := by
  have nothing : s.offers? t = none := Option.eq_none_iff_forall_ne_some.2 fun m offered => by
    have there := tied (isConnected_of_offers offered)
    rw [gone] at there
    nomatch there
  have silent := congrArg Option.toList nothing
  cases t with
  | next => exact offered_idle (by rw [poll, gone])
  | _ => exact silent

theorem orders_announcement (s : Session ι) :
    ∀ m ∈ s.announcement, m.isOrder = true ∧ m.releases = false := by
  unfold announcement
  split
  · exact fun _ mem => nomatch mem
  · intro m mem
    rcases List.mem_cons.1 mem with rfl | mem
    · exact ⟨rfl, rfl⟩
    · rw [List.mem_singleton.1 mem]
      exact ⟨rfl, rfl⟩

theorem orders_queries (ws : List (Watch ι)) (next : Nat) :
    ∀ m ∈ Watches.queries ws next, m.isOrder = true ∧ m.releases = false := by
  induction ws generalizing next with
  | nil => exact fun _ mem => nomatch mem
  | cons w ws ih =>
    intro m mem
    rcases List.mem_cons.1 mem with rfl | mem
    · exact ⟨rfl, rfl⟩
    · exact ih (next + 1) m mem

/-- Commands send orders, and only those that let the process go on release it. -/
theorem offers_order {m : Message} (offered : s.offers? t = some m) :
    m.isOrder = true ∧
      (m.releases = true → s.phase = .breaked ∧ (t = .goOn ∨ ∃ mode, t = .step mode)) := by
  cases t <;> simp only [offers?, Option.ite_none_right_eq_some, Option.some.injEq,
    reduceCtorEq] at offered
  case goOn => exact ⟨offered.2 ▸ rfl, fun _ => ⟨offered.1, .inl rfl⟩⟩
  case step mode => exact ⟨offered.2 ▸ rfl, fun _ => ⟨offered.1, .inr ⟨mode, rfl⟩⟩⟩
  all_goals
    obtain ⟨_, rfl⟩ := offered
    exact ⟨rfl, fun releases => absurd releases Bool.false_ne_true⟩

/-! ## What becomes of the links -/

theorem link_store (s : Session ι) (t : Turn ι) : (s.store t).link = s.link := by
  cases t <;> rfl

theorem retired_store (s : Session ι) (t : Turn ι) : (s.store t).retired = s.retired := by
  cases t <;> rfl

theorem link_refuse (s : Session ι) (l : Link) (t : Turn ι) :
    (s.refuse l t).link = some l ∧ (s.refuse l t).retired = s.retired := by
  cases t <;> exact ⟨rfl, rfl⟩

theorem link_grant (s : Session ι) (l : Link) (t : Turn ι) :
    (s.grant l t).link = some l ∧ (s.grant l t).retired = s.retired := by
  cases t <;> exact ⟨rfl, rfl⟩

theorem adopts_of_command (command : t.isCommand = true) : t.adopts = [] := by
  cases t <;> first | rfl | nomatch command

theorem isCommand_of_offers {m : Message} (h : s.offers? t = some m) : t.isCommand = true := by
  cases t <;> first | rfl | nomatch h

theorem link_lose (linked : s.link = some l) (reason : String) :
    (s.lose reason).link = none ∧ (s.lose reason).retired = s.retired ++ [l.abort] := by
  rw [lose_of_link linked]
  exact ⟨rfl, rfl⟩

theorem link_disconnect (s : Session ι) : s.disconnect.link = none ∧
    s.disconnect.retired = s.retired ++ (s.link.map Link.abort).toList := by
  rw [disconnect, dropLink_eq]
  exact ⟨rfl, rfl⟩

theorem link_connectWith (s : Session ι) (link : Link) :
    (s.connectWith link).link = some link ∧
      (s.connectWith link).retired = s.retired ++ (s.link.map Link.abort).toList := by
  unfold connectWith
  split
  · exact ⟨rfl, s.link_disconnect.2⟩
  · have gone : s.link = none := Option.not_isSome_iff_eq_none.1 ‹_›
    exact ⟨rfl, by simp [gone]⟩

theorem link_unsubscribe (s : Session ι) (id : WatchId) :
    (s.unsubscribe id).2.link = s.link ∧ (s.unsubscribe id).2.retired = s.retired := by
  unfold unsubscribe
  exact ⟨rfl, rfl⟩

/-- The link that a turn adopts is in use, and has not been greeted. -/
theorem link_of_adopts (s : Session ι) (adopts : t.adopts = [l]) : (s.after t).link = some l := by
  cases t with
  | connect | connectWith =>
    cases adopts
    exact (link_connectWith _ _).1
  | _ => nomatch adopts

theorem phase_of_adopts (s : Session ι) (adopts : t.adopts = [l]) :
    (s.after t).phase = .connecting := by
  cases t <;> first | rfl | nomatch adopts

theorem exists_of_adopts (adopts : t.adopts ≠ []) : ∃ l, t.adopts = [l] := by
  cases t with
  | connect _ link | connectWith link => exact ⟨link, rfl⟩
  | _ => exact absurd rfl adopts

/-- The link has taken or refused the message of a command. -/
theorem served_command {m : Message} (offered : s.offers? t = some m) (l : Link) :
    l.Served (s.offered t) (l.send m).2 := by
  have served := l.served_offer [m]
  rw [Link.offer_singleton] at served
  rw [offered_of_command (isCommand_of_offers offered), offered]
  exact served

/-- The link refuses the settings or the breakpoints, so the queries are not offered. -/
theorem served_announcement {e : LinkError} {ms : List Message}
    (refusal : l.offer ms = (some e, l')) (ns : List Message) : l.Served (ms ++ ns) l' := by
  have served := l.served_offer (ms ++ ns)
  rw [Link.offer_append, refusal] at served
  exact served

/-- The link takes the settings and the breakpoints, so the queries are offered. -/
theorem served_queries {l₁ : Link} {ms : List Message} (sent : l.offer ms = (none, l₁))
    {r : Except LinkError Unit} {requests requests' : Requests (Callback ι)}
    {ws : List (Watch ι)} (queried : Watches.query ws requests l₁ = (r, requests', l')) :
    l.Served (ms ++ Watches.queries ws requests.nextRequest) l' := by
  obtain ⟨requests'', eq⟩ := Watches.query_eq_offer ws requests l₁
  have same : l' = (l₁.offer (Watches.queries ws requests.nextRequest)).2 :=
    congrArg (·.2.2) (queried.symm.trans eq)
  have served := l.served_offer (ms ++ Watches.queries ws requests.nextRequest)
  rw [Link.offer_append, sent] at served
  rw [same]
  exact served

/-- What becomes of the links by an effect. -/
theorem Effect.fate (effect : Effect s t s') : Fate s t s' := by
  have untouched : ∀ l, s.link = some l → l.Served [] l := fun l _ => l.served_nil
  cases effect with
  | connect endpoint link | connectWith link =>
    exact .replaced id untouched (link_connectWith _ link).1 (link_connectWith _ link).2
  | disconnect => exact .replaced id untouched s.link_disconnect.1 s.link_disconnect.2
  | register | unregister | subscribe => exact .left rfl rfl rfl rfl
  | unsubscribe id =>
    have links := link_unsubscribe s id
    exact .left rfl rfl links.1 links.2
  | arrive events =>
    exact .kept (·.push events) (fun l _ => l.served_push events) rfl rfl rfl
  | declined command nothing =>
    have silent : s.offered t = [] := by rw [offered_of_command command, nothing]; rfl
    exact .left (adopts_of_command command) silent (link_store s t) (retired_store s t)
  | @refused _ m l l' e linked offered refusal =>
    have served := served_command offered l
    rw [refusal] at served
    have links := link_refuse s l' t
    exact .kept_of linked served (adopts_of_command (isCommand_of_offers offered)) links.1 links.2
  | @granted _ m l l' linked offered sent =>
    have served := served_command offered l
    rw [sent] at served
    have links := link_grant s l' t
    exact .kept_of linked served (adopts_of_command (isCommand_of_offers offered)) links.1 links.2
  | idle nothing => exact .left rfl (offered_idle nothing) rfl rfl
  | noticed linked polled told =>
    have silent := (offered_next linked polled).trans (prompted_of_notice told)
    exact .kept_of linked (silent ▸ Link.served_poll polled) rfl rfl rfl
  | @ended reason l l' linked polled =>
    have links := link_lose (s := { s with link := some l' }) rfl reason
    exact .lost linked (offered_next linked polled ▸ Link.served_poll polled) rfl links.1 links.2
  | @rejected m e l l' linked polled rejection =>
    have silent := (offered_next linked polled).trans (prompted_of_rejects rejection)
    have links := link_lose (s := { s with link := some l' }) rfl e.message
    exact .lost linked (silent ▸ Link.served_poll polled) rfl links.1 links.2
  | greeted linked polled _ | traced linked polled _ =>
    exact .kept_of linked (offered_next linked polled ▸ Link.served_poll polled) rfl rfl rfl
  | @replied reply l l' linked polled =>
    rw [acceptReply_eq]
    exact .kept_of linked (offered_next linked polled ▸ Link.served_poll polled) rfl rfl rfl
  | @unsynced pause l l₀ l' e linked polled connected refusal =>
    have offered := (offered_next linked polled).trans (prompted_paused connected pause)
    have served : l.Served (s.offered .next) l' := by
      rw [offered]
      exact Link.served_after_poll polled (served_announcement refusal _)
    have links := link_lose (s := { s with link := some l', synced := true }) rfl e.message
    exact .lost linked served rfl links.1 links.2
  | @unqueried pause l l₀ l₁ l' e requests linked polled connected sent refusal =>
    have offered := (offered_next linked polled).trans (prompted_paused connected pause)
    have served := Link.served_after_poll polled (served_queries sent refusal)
    have links := link_lose (s := { s.pausedAt pause with link := some l', requests }) rfl e.message
    exact .lost linked (offered ▸ served) rfl links.1 links.2
  | @paused pause l l₀ l₁ l' requests linked polled connected sent queried =>
    have offered := (offered_next linked polled).trans (prompted_paused connected pause)
    have served := Link.served_after_poll polled (served_queries sent queried)
    exact .kept_of linked (offered ▸ served) rfl rfl rfl

/-- What becomes of the links by a turn. -/
theorem fate (tied : s.Tied) (t : Turn ι) : Fate s t (s.after t) := (effect tied t).fate

/-- Every link keeps its place, and the link that the turn adopts comes last. -/
theorem Fate.links (fate : Fate s t s') :
    ∃ g : Link → Link, (∀ l, s.link = some l → l.Grown (s.offered t) (g l)) ∧
      s'.links = s.retired ++ (s.link.map g).toList ++ t.adopts := by
  cases fate with
  | kept f served adopts link retired =>
    refine ⟨f, fun l linked => (served l linked).toGrown, ?_⟩
    rw [Session.links, link, retired, adopts, List.append_nil]
  | replaced f served link retired =>
    refine ⟨fun l => (f l).abort, fun l linked => (served l linked).abort, ?_⟩
    have one : t.adopts.head?.toList = t.adopts := by cases t <;> rfl
    rw [Session.links, link, retired, one]

end Session

end CallDebugger
