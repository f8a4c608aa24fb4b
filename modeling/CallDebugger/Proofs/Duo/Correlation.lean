import CallDebugger.Proofs.Duo.Asking
import Mathlib.Data.List.Nodup

/-!
# Requests and their replies

The numbers of the requests that are on their way to the process and of the replies that are on
their way back are consecutive (`Duo.underWay`): the session adds to one end, the process turns
requests into replies where they are, and a reply that arrives leaves from the other end. So what
waits for its reply is under way once, and what is done with a reply is done with the answer to the
very request that it was noted for (`Duo.replies_correlate`).
-/

namespace CallDebugger

variable {ι σ : Type}

/-! ## Answers -/

namespace Inspector

/-- A reply carries the number of its request. -/
theorem id_answer (i : Inspector σ) (q : Request) (s : σ) : (i.answer q s).1.id = q.id := by
  unfold answer
  split <;> rfl

theorem ids_replies (i : Inspector σ) (s : σ) (ms : List Message) :
    (i.replies s ms).map (·.id) = (ms.filterMap Message.request?).map (·.id) := by
  induction ms generalizing s with
  | nil => rfl
  | cons m ms ih =>
    cases m with
    | request q =>
      have rest := ih (i.answer q s).2
      simp only [replies, List.map_cons, id_answer, rest, List.filterMap_cons, Message.request?]
    | _ => exact ih s

end Inspector

namespace Peer

/-- In an activity the process answers a request: it handles it, and it sends the reply that its
inspector gives with the objects that the requests before it have left. -/
def Answers (p : Peer σ) (a : Activity) (q : Request) (r : Reply) : Prop :=
  ∃ earlier later, messages p.link.inbox = earlier ++ .request q :: later ∧
    r = (p.inspector.answer q (p.inspector.objectsAfter p.objects earlier)).1 ∧
    .handled (.request q) ∈ p.deeds a ∧ .sent (.reply r) ∈ p.deeds a

theorem mem_filterMap_reply {ms : List Message} {r : Reply} :
    r ∈ ms.filterMap Message.reply? ↔ .reply r ∈ ms := by
  rw [List.mem_filterMap]
  constructor
  · rintro ⟨m, mem, carries⟩
    cases m with
    | reply r' =>
      cases carries
      exact mem
    | _ => nomatch carries
  · intro mem
    exact ⟨_, mem, rfl⟩

/-- A request that is handled is answered. -/
theorem Acted.answers {p p' : Peer σ} {a : Activity} {handled sent : List Message}
    {ran : List Call} (acted : p.Acted a p' handled sent ran) {q : Request}
    (mem : .request q ∈ handled) :
    ∃ r, r.id = q.id ∧ .reply r ∈ sent ∧ p.Answers a q r := by
  obtain ⟨earlier, later, rfl⟩ := List.append_of_mem mem
  let r := (p.inspector.answer q (p.inspector.objectsAfter p.objects earlier)).1
  have sends : .reply r ∈ sent := by
    rw [← mem_filterMap_reply, acted.replies, Inspector.replies_append]
    exact List.mem_append_right _ List.mem_cons_self
  refine ⟨r, p.inspector.id_answer q _, sends, earlier, later ++ messages p'.link.inbox, ?_, rfl,
    ?_, ?_⟩
  · rw [acted.handles, List.append_assoc, List.cons_append]
  · rw [acted.deeds]
    exact List.mem_append_left _ (List.mem_append_left _ (List.mem_map_of_mem mem))
  · rw [acted.deeds]
    exact List.mem_append_left _ (List.mem_append_right _ (List.mem_map_of_mem sends))

end Peer

namespace Duo

variable {d d' : Duo ι σ} {past : List (Duo ι σ)}

/-! ## Runs -/

/-- A session that has just adopted a link to a process that has not begun. -/
inductive Fresh : Duo ι σ → Prop where
  | mk {adopted : List Link} {s : Session ι} (h : Session.Reached adopted s) {t : Turn ι}
      {l k : Link} (adopts : t.adopts = [l]) (ours : l.Open) (theirs : k.Open)
      (fresh : l.inbox = []) (fresh' : k.inbox = []) (inspector : Inspector σ) (objects : σ)
      (capacity : Nat) :
      Fresh ⟨s.after t, .listen k inspector objects capacity, [], [], false, []⟩

/-- A duo has come about in steps; `past` are the duos before it, the latest first. -/
inductive Run : Duo ι σ → List (Duo ι σ) → Prop where
  | start {d : Duo ι σ} (fresh : d.Fresh) : Run d []
  | step {d d' : Duo ι σ} {past : List (Duo ι σ)} (h : Run d past) (step : d.Step d') :
      Run d' (d :: past)

theorem Fresh.reachable (h : d.Fresh) : d.Reachable := by
  cases h with
  | mk h adopts ours theirs fresh fresh' inspector objects capacity =>
    exact .start h adopts ours theirs fresh fresh' inspector objects capacity

theorem Run.reachable (h : Run d past) : d.Reachable := by
  induction h with
  | start fresh => exact fresh.reachable
  | step _ step ih => exact ih.step step

/-- In a run, the latest duo first, the session has issued a request and noted it. -/
def Asked (run : List (Duo ι σ)) (q : Request) (p : PendingRequest (Callback ι)) : Prop :=
  ∃ newer e t older, run = newer ++ e.take t :: e :: older ∧ e.session.Issues t q p

/-- In a run, the latest duo first, the process has answered a request. -/
def Answered (run : List (Duo ι σ)) (q : Request) (r : Reply) : Prop :=
  ∃ newer e a older, run = newer ++ e.act a :: e :: older ∧ e.peer.Answers a q r

theorem Asked.cons {run : List (Duo ι σ)} {q : Request} {p : PendingRequest (Callback ι)}
    (h : Asked run q p) (d : Duo ι σ) : Asked (d :: run) q p := by
  obtain ⟨newer, e, t, older, rfl, issues⟩ := h
  exact ⟨d :: newer, e, t, older, rfl, issues⟩

theorem Answered.cons {run : List (Duo ι σ)} {q : Request} {r : Reply}
    (h : Answered run q r) (d : Duo ι σ) : Answered (d :: run) q r := by
  obtain ⟨newer, e, a, older, rfl, answers⟩ := h
  exact ⟨d :: newer, e, a, older, rfl, answers⟩

/-! ## What is under way -/

/-- The numbers of the replies that are on their way, and then of the requests. -/
def underWay (d : Duo ι σ) : List UInt64 :=
  (d.toSession.filterMap Message.reply?).map (·.id) ++
    (d.toPeer.filterMap Message.request?).map (·.id)

/-- The process turns requests into replies where they are. -/
theorem Sound.underWay_act (h : d.Sound) (a : Activity) : (d.act a).underWay = d.underWay := by
  obtain ⟨p', handled, sent, ran, acted, -, split, arrives⟩ := h.acts a
  have answers : (sent.filterMap Message.reply?).map (·.id) =
      (handled.filterMap Message.request?).map (·.id) := by
    rw [acted.replies, Inspector.ids_replies]
  rw [underWay, underWay, split, arrives, List.filterMap_append, List.filterMap_append,
    List.map_append, List.map_append, answers, List.append_assoc]

/-- A turn, seen from both ends. -/
theorem Sound.books (h : d.Sound) {t : Turn ι} (own : t.isOwn = true) : ∃ handled,
    d.toSession = handled ++ (d.take t).toSession ∧
      (d.take t).toPeer = d.toPeer ++ d.session.offered t ∧
      d.session.Booking t (d.take t).session handled (d.session.offered t) := by
  obtain ⟨l, l', handled, linked, outcome⟩ := h.outcome own
  obtain ⟨split, -, told⟩ := take_eq linked.link (outcome.moved linked)
  exact ⟨handled, split, told, outcome.booking linked⟩

/-- A reply that arrives leaves from one end, and requests are added to the other. -/
theorem underWay_take {t : Turn ι} {handled : List Message}
    (split : d.toSession = handled ++ (d.take t).toSession)
    (told : (d.take t).toPeer = d.toPeer ++ d.session.offered t) :
    d.underWay ++ ((d.session.offered t).filterMap Message.request?).map (·.id) =
      (handled.filterMap Message.reply?).map (·.id) ++ (d.take t).underWay := by
  rw [underWay, underWay, split, told]
  simp only [List.filterMap_append, List.map_append, List.append_assoc]

/-- What is noted in a run and what is under way belong together. -/
structure Correlated (run : List (Duo ι σ)) (d : Duo ι σ) : Prop where
  /-- The numbers under way are the latest, and what waits is among them. -/
  numbered : ∃ first n, first + n = d.session.requests.nextRequest ∧
    d.underWay = (List.range' first n).map UInt64.ofNat ∧
    ∀ p ∈ d.session.requests.pending, first ≤ p.id ∧ p.id < first + n
  /-- What waits was asked, and is on its way or answered. -/
  asked : ∀ p ∈ d.session.requests.pending, ∃ q, q.id = .ofNat p.id ∧ Asked run q p ∧
    (.request q ∈ d.toPeer ∨ ∃ r, r.id = q.id ∧ .reply r ∈ d.toSession ∧ Answered run q r)

/-- The process does something. -/
theorem Correlated.act (c : Correlated (d :: past) d) (h : d.Sound) (a : Activity) :
    Correlated (d.act a :: d :: past) (d.act a) where
  numbered := by
    obtain ⟨first, n, sum, ids, among⟩ := c.numbered
    exact ⟨first, n, sum, (h.underWay_act a).trans ids, among⟩
  asked p mem := by
    obtain ⟨p', handled, sent, ran, acted, -, split, arrives⟩ := h.acts a
    obtain ⟨q, number, asked, place⟩ := c.asked p mem
    refine ⟨q, number, asked.cons _, ?_⟩
    rw [split] at place
    rcases place with going | ⟨r, same, coming, answered⟩
    · rcases List.mem_append.1 going with taken | going
      · obtain ⟨r, same, sends, answers⟩ := acted.answers taken
        refine .inr ⟨r, same, ?_, [], d, a, past, rfl, answers⟩
        rw [arrives]
        exact List.mem_append_right _ sends
      · exact .inl going
    · refine .inr ⟨r, same, ?_, answered.cons _⟩
      rw [arrives]
      exact List.mem_append_left _ coming

/-- A turn that hears no reply. -/
theorem Correlated.asks (c : Correlated (d :: past) d) {t : Turn ι} {handled : List Message}
    (split : d.toSession = handled ++ (d.take t).toSession)
    (told : (d.take t).toPeer = d.toPeer ++ d.session.offered t) {n : Nat}
    {new : List (PendingRequest (Callback ι))}
    (unanswered : handled.filterMap Message.reply? = [])
    (ids : ((d.session.offered t).filterMap Message.request?).map (·.id) =
      (List.range' d.session.requests.nextRequest n).map UInt64.ofNat)
    (next : (d.take t).session.requests.nextRequest = d.session.requests.nextRequest + n)
    (pending : (d.take t).session.requests.pending ⊆ d.session.requests.pending ++ new)
    (issues : ∀ p ∈ new, d.session.requests.nextRequest ≤ p.id ∧
      p.id < d.session.requests.nextRequest + n ∧
      ∃ q, .request q ∈ d.session.offered t ∧ q.id = .ofNat p.id ∧ d.session.Issues t q p) :
    Correlated (d.take t :: d :: past) (d.take t) where
  numbered := by
    obtain ⟨first, m, sum, before, among⟩ := c.numbered
    have balance := underWay_take split told
    rw [unanswered, ids, before, ← sum, ← List.map_append, List.range'_append_1] at balance
    refine ⟨first, m + n, by rw [next, ← sum, Nat.add_assoc], balance.symm, ?_⟩
    intro p mem
    rcases List.mem_append.1 (pending mem) with old | fresh
    · have bounds := among p old
      omega
    · have bounds := issues p fresh
      omega
  asked p mem := by
    rw [told]
    rcases List.mem_append.1 (pending mem) with old | fresh
    · obtain ⟨q, number, asked, place⟩ := c.asked p old
      refine ⟨q, number, asked.cons _, ?_⟩
      rw [split] at place
      rcases place with going | ⟨r, same, coming, answered⟩
      · exact .inl (List.mem_append_left _ going)
      · refine .inr ⟨r, same, ?_, answered.cons _⟩
        rcases List.mem_append.1 coming with heard | coming
        · have reply := Peer.mem_filterMap_reply.2 heard
          rw [unanswered] at reply
          nomatch reply
        · exact coming
    · obtain ⟨-, -, q, sends, number, issue⟩ := issues p fresh
      exact ⟨q, number, ⟨[], d, t, past, rfl, issue⟩, .inl (List.mem_append_right _ sends)⟩

/-- A turn that hears a reply. -/
theorem Correlated.answers (c : Correlated (d :: past) d)
    (small : d.session.requests.nextRequest ≤ UInt64.size) {t : Turn ι} {reply : Reply}
    (split : d.toSession = .reply reply :: (d.take t).toSession)
    (told : (d.take t).toPeer = d.toPeer)
    (requests : (d.take t).session.requests = (d.session.requests.answer reply).2) :
    Correlated (d.take t :: d :: past) (d.take t) := by
  obtain ⟨first, n, sum, before, among⟩ := c.numbered
  have balance : d.underWay = reply.id :: (d.take t).underWay := by
    rw [underWay, underWay, split, told]
    rfl
  rw [before] at balance
  cases n with
  | zero => nomatch balance
  | succ n =>
    obtain ⟨number, rest⟩ := List.cons.inj balance
    have word : reply.id.toNat = first := by
      rw [← number]
      exact UInt64.toNat_ofNat_of_lt' (by omega)
    have fewer : ∀ p ∈ (d.take t).session.requests.pending,
        p ∈ d.session.requests.pending ∧ p.id ≠ first := by
      intro p mem
      rw [requests, Requests.pending_answer, List.mem_filter, bne_iff_ne, word] at mem
      exact mem
    constructor
    · refine ⟨first + 1, n, ?_, rest.symm, ?_⟩
      · rw [requests, Requests.nextRequest_answer, ← sum]
        omega
      · intro p mem
        have bounds := among p (fewer p mem).1
        have other := (fewer p mem).2
        omega
    · intro p mem
      obtain ⟨q, same, asked, place⟩ := c.asked p (fewer p mem).1
      refine ⟨q, same, asked.cons _, ?_⟩
      rw [told]
      rcases place with going | ⟨r, answer, coming, answered⟩
      · exact .inl going
      · refine .inr ⟨r, answer, ?_, answered.cons _⟩
        rw [split] at coming
        rcases List.mem_cons.1 coming with heard | coming
        · -- The reply that was heard is the one of another request.
          cases heard
          have bounds := among p (fewer p mem).1
          have lost : p.id = first := by
            rw [← word, answer, same]
            exact (UInt64.toNat_ofNat_of_lt' (by omega)).symm
          exact absurd lost (fewer p mem).2
        · exact coming

/-- What arrives was under way before. -/
theorem Correlated.arrival (c : Correlated (d :: past) d) (arrival : d.Arrival d') :
    Correlated (d' :: d :: past) d' := by
  obtain ⟨l, session⟩ := arrival.session
  constructor
  · rw [underWay, arrival.toPeer, arrival.toSession, session]
    exact c.numbered
  · rw [arrival.toPeer, arrival.toSession, session]
    intro p mem
    obtain ⟨q, number, asked, place⟩ := c.asked p mem
    refine ⟨q, number, asked.cons _, ?_⟩
    rcases place with going | ⟨r, same, coming, answered⟩
    · exact .inl going
    · exact .inr ⟨r, same, coming, answered.cons _⟩

theorem Correlated.step (c : Correlated (d :: past) d) (h : d.Sound)
    (small : d.session.requests.nextRequest ≤ UInt64.size) (step : d.Step d') :
    Correlated (d' :: d :: past) d' := by
  cases h.passage step with
  | turn t own =>
    obtain ⟨handled, split, told, booking⟩ := h.books own
    cases booking with
    | asks unanswered ids next pending issues =>
      exact c.asks split told unanswered ids next pending issues
    | answers handles unasked requests =>
      rw [handles] at split
      rw [unasked, List.append_nil] at told
      exact c.answers small split told requests
  | activity a allowed => exact c.act h a
  | arrival arrival => exact c.arrival arrival

/-! ## Runs -/

/-- Numbers are given in order. -/
theorem Sound.nextRequest_le (h : d.Sound) (step : d.Step d') :
    d.session.requests.nextRequest ≤ d'.session.requests.nextRequest := by
  cases step with
  | take t own =>
    obtain ⟨handled, -, -, booking⟩ := h.books own
    cases booking with
    | asks _ _ next =>
      rw [next]
      exact Nat.le_add_right _ _
    | answers _ _ requests =>
      exact Nat.le_of_eq (by rw [requests, Requests.nextRequest_answer])
  | _ => exact Nat.le_refl _

/-- Nothing was asked on a link that has just been adopted. -/
theorem Fresh.correlated (h : d.Fresh) : Correlated [d] d := by
  have sound := h.reachable.sound
  have phase : d.session.phase = .connecting := by
    cases h with
    | @mk adopted s reached t l k adopts => exact s.phase_of_adopts adopts
  have begun : d.begun = false := by cases h; rfl
  have nothing : d.session.requests.pending = [] := Classical.byContradiction fun pending => by
    have connected := Session.isConnected_iff.2 (sound.consistent.connected_of_pending pending)
    exact not_connecting connected phase
  cases sound.greeting with
  | unsaid _ unheard untold =>
    constructor
    · refine ⟨_, 0, rfl, ?_, ?_⟩
      · rw [underWay, unheard, untold]
        rfl
      · rw [nothing]
        exact List.forall_mem_nil _
    · rw [nothing]
      exact List.forall_mem_nil _
  | said _ _ _ already | heard _ _ already =>
    rw [begun] at already
    nomatch already

/-- What is noted in a run and what is under way belong together, as long as the numbers fit into
their words. -/
theorem Run.correlated (h : Run d past) (small : d.session.requests.nextRequest ≤ UInt64.size) :
    Correlated (d :: past) d := by
  induction h with
  | start fresh => exact fresh.correlated
  | step earlier step ih =>
    have sound := earlier.reachable.sound
    have small := Nat.le_trans (sound.nextRequest_le step) small
    exact (ih small).step sound small step

/-- The numbers that are under way are all different. -/
theorem Correlated.toNat_underWay {run : List (Duo ι σ)} (c : Correlated run d)
    (small : d.session.requests.nextRequest ≤ UInt64.size) :
    ∃ first n, d.underWay.map UInt64.toNat = List.range' first n ∧
      ∀ p ∈ d.session.requests.pending, first ≤ p.id ∧ p.id < first + n := by
  obtain ⟨first, n, sum, ids, among⟩ := c.numbered
  refine ⟨first, n, ?_, among⟩
  rw [ids, List.map_map]
  conv => rhs; rw [← List.map_id (List.range' first n)]
  apply List.map_congr_left
  intro k mem
  have bounds := List.mem_range'_1.1 mem
  exact UInt64.toNat_ofNat_of_lt' (by omega)

theorem Correlated.nodup_underWay {run : List (Duo ι σ)} (c : Correlated run d)
    (small : d.session.requests.nextRequest ≤ UInt64.size) : d.underWay.Nodup := by
  obtain ⟨first, n, ids, -⟩ := c.toNat_underWay small
  apply List.Nodup.of_map UInt64.toNat
  rw [ids]
  exact List.nodup_range'

/-- What waits for the reply that comes next was asked, and the reply is the answer to it. -/
theorem Correlated.answered {run : List (Duo ι σ)} (c : Correlated run d)
    (small : d.session.requests.nextRequest ≤ UInt64.size) {r : Reply} {rest : List Message}
    (first : d.toSession = .reply r :: rest) {p : PendingRequest (Callback ι)}
    (mem : p ∈ d.session.requests.pending) (number : p.id = r.id.toNat) :
    ∃ q, r.id = q.id ∧ Asked run q p ∧ Answered run q r := by
  have distinct := c.nodup_underWay small
  rw [underWay, first] at distinct
  have alone : r.id ∉ (rest.filterMap Message.reply?).map (·.id) ++
      (d.toPeer.filterMap Message.request?).map (·.id) := (List.nodup_cons.1 distinct).1
  obtain ⟨q, word, asked, place⟩ := c.asked p mem
  have same : r.id = q.id := by
    rw [word, number]
    exact UInt64.ofNat_toNat.symm
  refine ⟨q, same, asked, ?_⟩
  rcases place with going | ⟨r', answer, coming, answered⟩
  · refine absurd (List.mem_append_right _ ?_) alone
    rw [same]
    exact List.mem_map_of_mem (List.mem_filterMap.2 ⟨_, going, rfl⟩)
  · rw [first] at coming
    rcases List.mem_cons.1 coming with heard | later
    · cases heard
      exact answered
    · refine absurd (List.mem_append_left _ ?_) alone
      rw [same, ← answer]
      exact List.mem_map_of_mem (Peer.mem_filterMap_reply.2 later)

/-- What an event that brings a reply makes of a session. -/
theorem after_reply {s s₁ : Session ι} {r : Reply}
    (polled : s.poll = some (.message (.reply r), s₁)) :
    (s.after .next).requests = (s.requests.answer r).2 ∧
      (s.after .next).log = s.log ++ ((s.requests.answer r).1.map (·.notice r)).toList := by
  have after : s.after .next = s₁.acceptReply r := by
    rw [Session.after, Session.handleNext, polled]
    rfl
  obtain ⟨l, l', -, -, rfl⟩ := Session.poll_eq_some polled
  rw [after, Session.acceptReply_eq]
  exact ⟨rfl, rfl⟩

/-- **Replies find their requests.** In every run, as long as the numbers fit into their words, the
numbers under way are all different, and what waits for its reply is under way once. When a reply
arrives that something waits for, the owner is told of just this reply, which is the answer of the
process to the very request that was noted, and nothing waits under its number any more. Another
reply makes no difference. -/
theorem replies_correlate (h : Run d past)
    (small : d.session.requests.nextRequest ≤ UInt64.size) :
    d.underWay.Nodup ∧
    (∀ p ∈ d.session.requests.pending, (d.underWay.map UInt64.toNat).count p.id = 1) ∧
    (∀ r s, d.session.poll = some (.message (.reply r), s) →
      match (d.session.requests.answer r).1 with
      | some callback =>
        (∃ p ∈ d.session.requests.pending, p.id = r.id.toNat ∧ p.callback = callback ∧
          ∃ q, r.id = q.id ∧ Asked (d :: past) q p ∧ Answered (d :: past) q r) ∧
        (d.take .next).session.log = d.session.log ++ [callback.notice r] ∧
        ∀ p ∈ (d.take .next).session.requests.pending, p.id ≠ r.id.toNat
      | none =>
        (d.take .next).session.log = d.session.log ∧
        (d.take .next).session.requests = d.session.requests) := by
  have c := h.correlated small
  obtain ⟨first, n, ids, among⟩ := c.toNat_underWay small
  refine ⟨c.nodup_underWay small, ?_, ?_⟩
  · intro p mem
    rw [ids]
    exact List.count_eq_one_of_mem List.nodup_range' (List.mem_range'_1.2 (among p mem))
  · intro r s polled
    obtain ⟨rest, next⟩ := toSession_of_poll polled
    obtain ⟨requests, log⟩ := after_reply polled
    have requests : (d.take .next).session.requests = (d.session.requests.answer r).2 := requests
    have log : (d.take .next).session.log =
      d.session.log ++ ((d.session.requests.answer r).1.map (·.notice r)).toList := log
    obtain ⟨eq, -⟩ | ⟨p, mem, number, eq⟩ := d.session.requests.answer_cases r
    · rw [eq] at requests log ⊢
      rw [Option.map_none, Option.toList_none, List.append_nil] at log
      exact ⟨log, requests⟩
    · have gone : (d.take .next).session.requests.pending =
          d.session.requests.pending.filter fun p => p.id != r.id.toNat := by
        rw [requests, Requests.pending_answer]
      rw [eq] at log ⊢
      refine ⟨⟨p, mem, number, rfl, c.answered small next mem number⟩, log, ?_⟩
      intro p' mem'
      rw [gone, List.mem_filter, bne_iff_ne] at mem'
      exact mem'.2

/-- A reply comes that nothing waits for any more, and then one that a watch waits for. -/
theorem replies_correlate_watched :
    ∃ (d e : Duo Unit Exhibition) (past since : List (Duo Unit Exhibition)),
      Run d past ∧ Run e (since ++ d :: past) ∧ d.underWay = [1] ∧ e.underWay = [2] ∧
      (∃ r s, d.session.poll = some (.message (.reply r), s) ∧
        (d.take .next).session.log = d.session.log) ∧
      ∃ r s p q, e.session.poll = some (.message (.reply r), s) ∧ p ∈ e.session.requests.pending ∧
        r.id = q.id ∧ Asked (e :: (since ++ d :: past)) q p ∧
        Answered (e :: (since ++ d :: past)) q r ∧
        (e.take .next).session.log = e.session.log ++ [p.callback.notice r] := by
  have opened : (Link.withBudget none).Open := ⟨fun _ _ => rfl, rfl⟩
  have start : Run _ [] :=
    .start (.mk (ι := Unit) .new (t := .connectWith (.withBudget none)) rfl opened opened rfl rfl
      Exhibition.inspector default 8)
  have watching := start.step (.take (.subscribe default default ()) rfl)
  have waiting := watching.step (.act .attach rfl)
  have greeted := (waiting.step (.peerSignal .connected rfl)).step (.act .wake rfl)
  have running := (greeted.step (.inward rfl)).step (.take .next rfl)
  have asked := (running.step (.take .register rfl)).step
    (.take (.request 2 (.query default default) ()) rfl)
  have paused := (asked.step (.outward rfl)).step (.act (.before default) ⟨rfl, rfl⟩)
  have forgotten := (paused.step (.take (.unregister 2) rfl)).step (.inward rfl)
  have dropped := (forgotten.step (.take .next rfl)).step (.inward rfl)
  have refreshed := (dropped.step (.take .next rfl)).step (.outward rfl)
  have served := ((refreshed.step (.outward rfl)).step (.outward rfl)).step (.act .wake rfl)
  have answered := served.step (.inward rfl)
  obtain ⟨d, past, before, small, way, r, s, polled, none, e, since, run, small', way',
      r', s', polled', callback, some⟩ :
      ∃ d past, Run d past ∧ d.session.requests.nextRequest ≤ UInt64.size ∧ d.underWay = [1] ∧
        ∃ r s, d.session.poll = some (.message (.reply r), s) ∧
          (d.session.requests.answer r).1 = none ∧
        ∃ (e : Duo Unit Exhibition) (since : List (Duo Unit Exhibition)),
          Run e (since ++ d :: past) ∧ e.session.requests.nextRequest ≤ UInt64.size ∧
          e.underWay = [2] ∧
        ∃ r s, e.session.poll = some (.message (.reply r), s) ∧
        ∃ callback, (e.session.requests.answer r).1 = some callback :=
    ⟨_, _, forgotten, by decide, rfl, _, _, rfl, rfl, _, [_, _, _, _, _, _, _], answered,
      by decide, rfl, _, _, rfl, _, rfl⟩
  obtain ⟨-, -, drops⟩ := replies_correlate before small
  obtain ⟨-, -, finds⟩ := replies_correlate run small'
  have dropped := drops r s polled
  have found := finds r' s' polled'
  rw [none] at dropped
  rw [some] at found
  obtain ⟨⟨p, mem, -, rfl, q, same, asked, answered⟩, log, -⟩ := found
  exact ⟨d, e, past, since, before, run, way, way', ⟨r, s, polled, dropped.1⟩,
    r', s', p, q, polled', mem, same, asked, answered, log⟩

end Duo

end CallDebugger
