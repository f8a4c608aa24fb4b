import CallDebugger.Proofs.Session.Plays

/-!
# What a session asks

A session sends a request when its owner asks it to, and for everything that is watched when the
process pauses. A request is noted with what is to be done with its reply (`Session.Issues`), under
the number that it carries.
-/

namespace CallDebugger

variable {ι : Type}

namespace Message

/-- The request that a message carries. -/
def request? : Message → Option Request
  | .request q => some q
  | _ => none

/-- The reply that a message carries. -/
def reply? : Message → Option Reply
  | .reply r => some r
  | _ => none

end Message

/-! ## Queries -/

/-- The requests that are noted when watches are queried, numbered from `next` on. -/
def Watches.entries : List (Watch ι) → Nat → List (PendingRequest (Callback ι))
  | [], _ => []
  | w :: ws, next => ⟨next, w.handler, .snapshot w.kind w.label⟩ :: entries ws (next + 1)

/-- The requests after watches were queried. -/
def Watches.noted (ws : List (Watch ι)) (r : Requests (Callback ι)) : Requests (Callback ι) :=
  { r with
    nextRequest := r.nextRequest + ws.length
    pending := r.pending ++ entries ws r.nextRequest }

theorem Watches.ids_queries (ws : List (Watch ι)) (next : Nat) :
    ((queries ws next).filterMap Message.request?).map (·.id) =
      (List.range' next ws.length).map UInt64.ofNat := by
  induction ws generalizing next with
  | nil => rfl
  | cons w ws ih => exact congrArg (UInt64.ofNat next :: ·) (ih (next + 1))

/-- What is noted when watches are queried. -/
theorem Watches.mem_entries {ws : List (Watch ι)} {next : Nat} {p : PendingRequest (Callback ι)}
    (mem : p ∈ entries ws next) : ∃ k w, k < ws.length ∧ ws[k]? = some w ∧
      p = ⟨next + k, w.handler, .snapshot w.kind w.label⟩ ∧
      .request ⟨.ofNat (next + k), .query w.kind w.name⟩ ∈ queries ws next := by
  induction ws generalizing next with
  | nil => nomatch mem
  | cons w ws ih =>
    rcases List.mem_cons.1 mem with rfl | mem
    · exact ⟨0, w, Nat.zero_lt_succ _, rfl, rfl, List.mem_cons_self⟩
    · obtain ⟨k, v, small, live, same, sent⟩ := ih mem
      have shift : next + 1 + k = next + (k + 1) := by omega
      rw [shift] at same sent
      exact ⟨k + 1, v, Nat.succ_lt_succ small, live, same, List.mem_cons_of_mem _ sent⟩

namespace Session

/-- A turn issues a request, which is noted with what is to be done with its reply. -/
inductive Issues (s : Session ι) : Turn ι → Request → PendingRequest (Callback ι) → Prop where
  | asked {handler : HandlerId} {errand : Errand} {label : ι} (connected : s.isConnected = true) :
      Issues s (.request handler errand label) ⟨.ofNat s.requests.nextRequest, errand⟩
        ⟨s.requests.nextRequest, handler, .reply label⟩
  /-- At a pause the session queries what is watched. -/
  | watched {pause : Pause} {s' : Session ι}
      (polled : s.poll = some (.message (.paused pause), s')) (connected : s.isConnected = true)
      {k : Nat} {w : Watch ι} (live : s.watches.live[k]? = some w) :
      Issues s .next ⟨.ofNat (s.requests.nextRequest + k), .query w.kind w.name⟩
        ⟨s.requests.nextRequest + k, w.handler, .snapshot w.kind w.label⟩

theorem not_asks_announcement (s : Session ι) :
    s.announcement.filterMap Message.request? = [] := by
  unfold announcement
  split <;> rfl

/-- What the link in use takes in a turn. -/
def sent (s : Session ι) (t : Turn ι) : List Message :=
  match s.link with
  | none => []
  | some l => l.taken (s.offered t)

theorem isSome_link_of_sent {s : Session ι} {t : Turn ι} {m : Message} (h : m ∈ s.sent t) :
    s.link.isSome = true := by
  cases linked : s.link with
  | none => simp [sent, linked] at h
  | some l => rfl

end Session

/-- A play sends what the link in use takes. -/
theorem Play.sentOn_eq {p : Play ι} (h : p.before.Consistent) :
    p.sentOn p.before.retired.length = p.before.sent p.turn := by
  rw [Session.sent]
  cases linked : p.before.link with
  | none => exact sentOn_of_not_uses h (by simp [Session.Uses, linked])
  | some l => exact sentOn_of_uses h linked

/-! ## The numbers of requests -/

/-- Among messages that are sent are requests with the numbers from `first` on, all of them below
`next`. -/
def Numbered (first : Nat) (ms : List Message) (next : Nat) : Prop :=
  ∃ k, (ms.filterMap Message.request?).map (·.id) = (List.range' first k).map UInt64.ofNat ∧
    first + k ≤ next

theorem numbered_none {first next : Nat} {ms : List Message}
    (none : ms.filterMap Message.request? = []) (le : first ≤ next) : Numbered first ms next :=
  ⟨0, by rw [none]; rfl, le⟩

namespace Watches

theorem length_queries (ws : List (Watch ι)) (next : Nat) :
    (queries ws next).length = ws.length := by
  induction ws generalizing next with
  | nil => rfl
  | cons w ws ih => simp [queries, ih]

theorem queries_take (ws : List (Watch ι)) (next k : Nat) :
    (queries ws next).take k = queries (ws.take k) next := by
  induction ws generalizing next k with
  | nil => simp [queries]
  | cons w ws ih =>
    cases k with
    | zero => simp [queries]
    | succ k => simp [queries, ih]

/-- Each query that is taken uses up a number. -/
theorem length_taken_le {ws : List (Watch ι)} {r r' : Requests (Callback ι)} {l l' : Link}
    {result : Except LinkError Unit} (queried : query ws r l = (result, r', l')) :
    r.nextRequest + (l.taken (queries ws r.nextRequest)).length ≤ r'.nextRequest := by
  induction ws generalizing r l with
  | nil =>
    cases queried
    exact Nat.le_refl _
  | cons w ws ih =>
    simp only [query, Requests.issue] at queried
    simp only [queries, Link.taken]
    rcases first : l.send (.request ⟨.ofNat r.nextRequest, .query w.kind w.name⟩) with
      ⟨e | ⟨⟨⟩⟩, l₁⟩
    · rw [first] at queried
      cases queried
      simp [Requests.note, Requests.strike]
    · rw [first] at queried
      have rest := ih queried
      simp only [Requests.note, List.length_cons] at rest ⊢
      omega

/-- The queries that are taken have the numbers from the next one on. -/
theorem numbered_taken {ws : List (Watch ι)} {r r' : Requests (Callback ι)} {l l' : Link}
    {result : Except LinkError Unit} (queried : query ws r l = (result, r', l')) :
    Numbered r.nextRequest (l.taken (queries ws r.nextRequest)) r'.nextRequest := by
  have enough := length_taken_le queried
  obtain ⟨k, taken⟩ :
      ∃ k, l.taken (queries ws r.nextRequest) = queries (ws.take k) r.nextRequest := by
    have front := List.prefix_iff_eq_take.1 (l.taken_prefix (queries ws r.nextRequest))
    rw [queries_take] at front
    exact ⟨_, front⟩
  have ids := ids_queries (ws.take k) r.nextRequest
  rw [taken] at enough ⊢
  rw [length_queries] at enough
  exact ⟨(ws.take k).length, ids, enough⟩

/-- Queries that are all taken are all noted. -/
theorem noted_of_query {ws : List (Watch ι)} {r r' : Requests (Callback ι)} {l l' : Link}
    (queried : query ws r l = (.ok (), r', l')) :
    r' = noted ws r ∧ l.offer (queries ws r.nextRequest) = (none, l') := by
  induction ws generalizing r l with
  | nil =>
    cases queried
    simp [noted, entries, queries]
  | cons w ws ih =>
    simp only [query, Requests.issue] at queried
    simp only [queries, Link.offer]
    rcases first : l.send (.request ⟨.ofNat r.nextRequest, .query w.kind w.name⟩) with
      ⟨e | ⟨⟨⟩⟩, l₁⟩
    · rw [first] at queried
      simp at queried
    · rw [first] at queried
      obtain ⟨rfl, rest⟩ := ih queried
      refine ⟨?_, rest⟩
      simp only [noted, Requests.note, entries, List.length_cons, List.append_assoc,
        List.singleton_append, Nat.add_assoc, Nat.add_comm 1]

end Watches

namespace Session

variable {s s' : Session ι} {t : Turn ι}

/-- Where nothing is asked, nothing that is taken asks. -/
theorem unasked_taken {l : Link} {ms : List Message} (h : ms.filterMap Message.request? = []) :
    (l.taken ms).filterMap Message.request? = [] := by
  rw [List.filterMap_eq_nil_iff] at h ⊢
  intro m mem
  exact h m (Link.mem_of_mem_taken mem)

/-- A turn that asks nothing. -/
theorem numbered_quiet (unasked : (s.offered t).filterMap Message.request? = [])
    (le : s.requests.nextRequest ≤ s'.requests.nextRequest) :
    Numbered s.requests.nextRequest (s.sent t) s'.requests.nextRequest := by
  refine numbered_none ?_ le
  rw [sent]
  cases s.link with
  | none => rfl
  | some l => exact unasked_taken unasked

theorem requests_store (s : Session ι) (t : Turn ι) : (s.store t).requests = s.requests := by
  cases t <;> rfl

theorem nextRequest_le_refuse (s : Session ι) (l : Link) (t : Turn ι) :
    s.requests.nextRequest ≤ (s.refuse l t).requests.nextRequest := by
  cases t with
  | request => exact Nat.le_succ _
  | _ => exact Nat.le_refl _

theorem le_nextRequest_disconnect {n : Nat} (h : n ≤ s.requests.nextRequest) :
    n ≤ s.disconnect.requests.nextRequest := by
  rw [disconnect, dropLink_eq]
  exact h

theorem le_nextRequest_connectWith {n : Nat} (h : n ≤ s.requests.nextRequest) (link : Link) :
    n ≤ (s.connectWith link).requests.nextRequest := by
  unfold connectWith
  split
  · exact le_nextRequest_disconnect h
  · exact h

theorem le_nextRequest_lose {n : Nat} (h : n ≤ s.requests.nextRequest) (reason : String) :
    n ≤ (s.lose reason).requests.nextRequest := by
  unfold lose
  split
  · exact h
  · rw [dropLink_eq]
    exact h

theorem nextRequest_unsubscribe (s : Session ι) (id : WatchId) :
    (s.unsubscribe id).2.requests.nextRequest = s.requests.nextRequest := by
  unfold unsubscribe Watches.unsubscribe
  cases s.watches.find? id <;> rfl

/-- A command whose message the link takes. -/
theorem numbered_grant {m : Message} {l l' : Link} (linked : s.link = some l)
    (offered : s.offers? t = some m) (sends : l.send m = (.ok (), l')) :
    Numbered s.requests.nextRequest (s.sent t) (s.grant l' t).requests.nextRequest := by
  have all : s.sent t = [m] := by
    rw [sent, linked, offered_of_command (isCommand_of_offers offered), offered]
    simp [Link.taken, sends]
  rw [all]
  cases t <;> simp only [offers?, Option.ite_none_right_eq_some, Option.some.injEq,
    reduceCtorEq] at offered
  case request handler errand label =>
    obtain ⟨-, rfl⟩ := offered
    exact ⟨1, rfl, Nat.le_refl _⟩
  all_goals
    obtain ⟨-, rfl⟩ := offered
    exact numbered_none rfl (Nat.le_refl _)

/-- What the link takes when the next event is a pause: the announcement as far as that is taken,
and after all of it the queries. -/
theorem sent_paused {pause : Pause} {l l₀ : Link} (linked : s.link = some l)
    (polled : l.poll = some (.message (.paused pause), l₀)) (connected : s.isConnected = true) :
    s.sent .next =
      l₀.taken (s.announcement ++ Watches.queries s.watches.live s.requests.nextRequest) := by
  rw [sent, linked, offered_next linked polled, prompted_paused connected]
  obtain ⟨-, rest, -, rfl⟩ := Link.poll_eq_some polled
  exact (l.taken_inbox rest _).symm

/-- Queries go out after the announcement, with the numbers from the next one on. -/
theorem numbered_paused {l l₁ l' : Link} {result : Except LinkError Unit}
    {requests : Requests (Callback ι)} (announced : l.offer s.announcement = (none, l₁))
    (queried : Watches.query s.watches.live s.requests l₁ = (result, requests, l')) :
    Numbered s.requests.nextRequest
      (l.taken (s.announcement ++ Watches.queries s.watches.live s.requests.nextRequest))
      requests.nextRequest := by
  obtain ⟨k, ids, le⟩ := Watches.numbered_taken queried
  refine ⟨k, ?_, le⟩
  rw [Link.taken_append announced, Link.taken_of_offer announced, List.filterMap_append,
    not_asks_announcement, List.nil_append]
  exact ids

/-- **Requests are numbered in order.** -/
theorem Effect.numbered (effect : Effect s t s') :
    Numbered s.requests.nextRequest (s.sent t) s'.requests.nextRequest := by
  cases effect with
  | connect endpoint link =>
    apply numbered_quiet rfl
    apply le_nextRequest_connectWith
    exact Nat.le_refl _
  | connectWith link => exact numbered_quiet rfl (le_nextRequest_connectWith (Nat.le_refl _) link)
  | disconnect => exact numbered_quiet rfl (le_nextRequest_disconnect (Nat.le_refl _))
  | unsubscribe id => exact numbered_quiet rfl (Nat.le_of_eq (s.nextRequest_unsubscribe id).symm)
  | register | unregister | subscribe | arrive => exact numbered_quiet rfl (Nat.le_refl _)
  | declined command nothing =>
    have silent : s.offered t = [] := by rw [offered_of_command command, nothing]; rfl
    have same : s.requests.nextRequest = (s.store t).requests.nextRequest := by rw [requests_store]
    exact numbered_quiet (by rw [silent]; rfl) (Nat.le_of_eq same)
  | refused linked offered refusal =>
    refine numbered_none ?_ (s.nextRequest_le_refuse _ t)
    rw [sent, linked, offered_of_command (isCommand_of_offers offered), offered]
    simp [Link.taken, refusal]
  | granted linked offered sends => exact numbered_grant linked offered sends
  | idle nothing => exact numbered_quiet (by rw [offered_idle nothing]; rfl) (Nat.le_refl _)
  | noticed linked polled told =>
    exact numbered_quiet (by rw [offered_next linked polled, prompted_of_notice told]; rfl)
      (Nat.le_refl _)
  | ended linked polled =>
    apply numbered_quiet (by rw [offered_next linked polled]; rfl)
    apply le_nextRequest_lose
    exact Nat.le_refl _
  | rejected linked polled rejection =>
    apply numbered_quiet (by rw [offered_next linked polled, prompted_of_rejects rejection]; rfl)
    apply le_nextRequest_lose
    exact Nat.le_refl _
  | greeted linked polled | traced linked polled =>
    exact numbered_quiet (by rw [offered_next linked polled]; rfl) (Nat.le_refl _)
  | @replied reply l l' linked polled =>
    refine numbered_quiet (by rw [offered_next linked polled]; rfl) ?_
    rw [acceptReply_eq]
    exact Nat.le_of_eq (s.requests.nextRequest_answer reply).symm
  | unsynced linked polled connected refusal =>
    apply numbered_none
    · rw [sent_paused linked polled connected, Link.taken_append_of_error refusal]
      exact unasked_taken s.not_asks_announcement
    · apply le_nextRequest_lose
      exact Nat.le_refl _
  | unqueried linked polled connected announced refusal =>
    obtain ⟨k, ids, le⟩ := numbered_paused announced refusal
    rw [sent_paused linked polled connected]
    exact ⟨k, ids, le_nextRequest_lose le _⟩
  | paused linked polled connected announced queried =>
    rw [sent_paused linked polled connected]
    exact numbered_paused announced queried

end Session

end CallDebugger
