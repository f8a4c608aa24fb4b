import CallDebugger.Proofs.Session.Callbacks
import CallDebugger.Proofs.Session.Refreshing

/-!
# First replies

A pause that the session accepts makes it query everything that is watched, in order
(`Play.requests_of_accepts`). What it waits for was asked on the link in use, and no reply of that
number has been handled since (`Session.Awaited`). So a snapshot is handed over for the first reply
to the query of a watch that is still live (`Session.Awaited.snapshot`).
-/

namespace CallDebugger

variable {ι : Type}

namespace Session

/-- A run that makes or ends no watch leaves them as they are, and its plays meet them so. -/
theorem Consistent.watches_still {s : Session ι} (h : s.Consistent) {ts : List (Turn ι)}
    (others : ∀ t ∈ ts, t.isWatching = false) :
    (s.run ts).watches = s.watches ∧ ∀ p ∈ s.plays ts, p.before.watches = s.watches := by
  induction ts generalizing s with
  | nil => exact ⟨rfl, fun p mem => nomatch mem⟩
  | cons t ts ih =>
    have first := (effect h.tied t).watches_still (others t List.mem_cons_self)
    obtain ⟨last, among⟩ :=
      ih (h.after t) fun u there => others u (List.mem_cons_of_mem t there)
    refine ⟨last.trans first, ?_⟩
    intro p mem
    rcases List.mem_cons.1 mem with rfl | mem
    · rfl
    · exact (among p mem).trans first

end Session

/-! ## Pauses that are accepted -/

namespace Play

variable {p : Play ι} {pause : Pause}

/-- The process pauses in a play, and the session accepts that. -/
def Accepts (p : Play ι) (pause : Pause) : Prop :=
  p.turn = .next ∧ ∃ s, p.before.poll = some (.message (.paused pause), s) ∧
    (s.accept (.paused pause)).1 = .ok ()

/-- The requests that a play sends, which it does on the link in use. -/
def requests (p : Play ι) : List Request :=
  (p.sentOn p.before.retired.length).filterMap Message.request?

/-- A pause that is accepted has the link take all that is sent. -/
theorem offer_of_accepts (accepts : p.Accepts pause) :
    ∃ l l₀ l', p.before.link = some l ∧ l.poll = some (.message (.paused pause), l₀) ∧
      p.before.isConnected = true ∧ l₀.offer p.before.asks = (none, l') := by
  obtain ⟨-, s, polled, accepted⟩ := accepts
  obtain ⟨l, l₀, linked, next, rfl⟩ := Session.poll_eq_some polled
  have connected : p.before.isConnected = true := by
    by_contra apart
    have rejection : ({ p.before with link := some l₀ } : Session ι).rejects? (.paused pause) =
        some (p.before.misplaced .acceptBreak) := if_neg apart
    rw [Session.accept_of_rejects rejection] at accepted
    nomatch accepted
  have told := Session.accept_paused (s := { p.before with link := some l₀ }) rfl connected pause
  rw [accepted] at told
  rcases announced : l₀.offer p.before.announcement with ⟨_ | e, l₁⟩
  · rcases queried : Watches.query p.before.watches.live p.before.requests l₁ with
      ⟨e | ⟨⟨⟩⟩, requests, l'⟩
    · have announced' : l₀.offer
          ({ p.before with link := some l₀ } : Session ι).announcement = (none, l₁) := announced
      simp only [announced', queried] at told
      nomatch told
    · obtain ⟨-, offered⟩ := Watches.noted_of_query queried
      refine ⟨l, l₀, l', linked, next, connected, ?_⟩
      rw [Session.asks, Link.offer_append, announced]
      exact offered
  · have announced' : l₀.offer
        ({ p.before with link := some l₀ } : Session ι).announcement = (some e, l₁) := announced
    simp only [announced'] at told
    nomatch told

end Play

/-- The queries of watches stand in the places of the watches. -/
theorem Watches.requests_queries (ws : List (Watch ι)) (next : Nat) :
    (queries ws next).filterMap Message.request? =
      ws.mapIdx fun j w => ⟨.ofNat (next + j), .query w.kind w.name⟩ := by
  induction ws generalizing next with
  | nil => rfl
  | cons w ws ih =>
    have first : (queries (w :: ws) next).filterMap Message.request? =
        ⟨.ofNat next, .query w.kind w.name⟩ ::
          (queries ws (next + 1)).filterMap Message.request? := rfl
    rw [first, ih, List.mapIdx_cons]
    simp only [Nat.add_zero, Nat.add_assoc, Nat.add_comm 1]

namespace Play

variable {p : Play ι} {pause : Pause}

/-- **A pause that is accepted queries everything that is watched**, in order. -/
theorem requests_of_accepts (h : p.before.Consistent) (accepts : p.Accepts pause) :
    p.requests = p.before.watches.live.mapIdx fun j w =>
      ⟨.ofNat (p.before.requests.nextRequest + j), .query w.kind w.name⟩ := by
  obtain ⟨l, l₀, l', linked, polled, connected, taken⟩ := offer_of_accepts accepts
  have turn : p.turn = .next := accepts.1
  have sent := Session.sent_paused linked polled connected
  rw [← Session.asks, Link.taken_of_offer taken] at sent
  rw [requests, sentOn_eq h, turn, sent, Session.asks, List.filterMap_append,
    Session.not_asks_announcement, List.nil_append, Watches.requests_queries]

theorem errands_of_accepts (h : p.before.Consistent) (accepts : p.Accepts pause) :
    p.requests.map (·.errand) = p.before.watches.live.map fun w => .query w.kind w.name := by
  rw [requests_of_accepts h accepts]
  apply List.ext_getElem?
  intro j
  rw [List.getElem?_map, List.getElem?_mapIdx, List.getElem?_map, Option.map_map]
  rfl

end Play

namespace Play

variable {p : Play ι} {i : Nat} {e : PendingRequest (Callback ι)}

/-- A play in which a watch asks is a pause that is accepted, if the link stays in use. The query
of the watch stands among the requests where the watch stands among the watches. -/
theorem Asks.queries (asks : p.Asks i e) (h : p.before.Consistent) (keeps : p.after.Uses i)
    {kind : ObjectKind} {label : ι} (callback : e.callback = .snapshot kind label) :
    ∃ (pause : Pause) (j : Nat) (w : Watch ι), p.Accepts pause ∧
      p.before.watches.live[j]? = some w ∧
      p.requests[j]? = some ⟨.ofNat e.id, .query w.kind w.name⟩ ∧
      w.kind = kind ∧ w.label = label ∧ w.handler = e.handler := by
  obtain ⟨before, turn⟩ := p
  obtain ⟨r, issues, -⟩ := asks.issues
  cases issues with
  | asked => simp at callback
  | @watched pause s polled connected j w live =>
    cases callback
    -- Otherwise the session would have given up the link.
    have accepted : (s.accept (.paused pause)).1 = .ok () := by
      cases result : (s.accept (.paused pause)).1 with
      | ok => rfl
      | error failure =>
        have lost : (before.loss? .next).isSome = true := by
          rw [Session.loss?, polled]
          simp only [result, Option.isSome_some]
        have gone : (before.after .next).link = none := (Play.account h).lost lost
        have linked : (before.after .next).link.isSome = true := keeps.1
        rw [gone] at linked
        simp at linked
    have accepts : Play.Accepts ⟨before, .next⟩ pause := ⟨rfl, s, polled, accepted⟩
    refine ⟨pause, j, w, accepts, live, ?_, rfl, rfl, rfl⟩
    rw [requests_of_accepts h accepts, List.getElem?_mapIdx, live]
    rfl

/-- A play keeps the link at a place in use, and handles no reply of a number. -/
structure Misses (b : Play ι) (i n : Nat) : Prop where
  uses : b.before.Uses i
  keeps : b.after.Uses i
  misses : ∀ reply, b.Hears i (.reply reply) → reply.id.toNat ≠ n

end Play

/-! ## First replies -/

namespace Session

variable {s s' : Session ι} {t : Turn ι} {ps : List (Play ι)}

/-- After a reply was handled, no request of its number waits. -/
theorem id_of_heard {i : Nat} {reply : Reply} (heard : Play.Hears ⟨s, t⟩ i (.reply reply))
    {e : PendingRequest (Callback ι)} (mem : e ∈ (s.after t).requests.pending) :
    reply.id.toNat ≠ e.id := by
  obtain ⟨turn, -, s', polled⟩ := heard
  have turn : t = .next := turn
  obtain ⟨l, l', -, -, rfl⟩ := poll_eq_some polled
  have handled : s.after .next = ({ s with link := some l' } : Session ι).acceptReply reply := by
    rw [after, handleNext, show s.poll = _ from polled]
    rfl
  rw [turn, handled, acceptReply_eq] at mem
  have mem : e ∈ (s.requests.answer reply).2.pending := mem
  rw [Requests.pending_answer, List.mem_filter, bne_iff_ne] at mem
  exact mem.2.symm

/-- After some plays, what is waited for was asked in them on the link in use, and since then the
link was kept and no reply of that number was handled. The watches of its group are still live. -/
structure Awaited (ps : List (Play ι)) (s : Session ι) : Prop where
  distinct : s.watches.Distinct
  asked : ∀ e ∈ s.requests.pending, ∃ earlier q between, ps = earlier ++ q :: between ∧
    q.Asks s.retired.length e ∧ q.after.Uses s.retired.length ∧
    (∀ b ∈ between, b.Misses s.retired.length e.id) ∧
    ∀ w ∈ q.before.watches.live, w.handler = e.handler → w ∈ s.watches.live

theorem Awaited.after (h : Awaited ps s) (consistent : s.Consistent) (t : Turn ι) :
    Awaited (ps ++ [⟨s, t⟩]) (s.after t) := by
  refine ⟨(effect consistent.tied t).distinct h.distinct, ?_⟩
  intro e mem
  obtain ⟨uses, keeps, retired, waits | asks, watches⟩ := consistent.waits_after h.distinct mem
  · obtain ⟨earlier, q, between, rfl, asks, kept, missed, live⟩ := h.asked e waits.1
    rw [retired]
    refine ⟨earlier, q, between ++ [⟨s, t⟩], by simp, asks, kept, ?_, ?_⟩
    · intro b inside
      rcases List.mem_append.1 inside with inside | last
      · exact missed b inside
      · rw [List.mem_singleton.1 last]
        exact ⟨uses, keeps, fun reply heard => id_of_heard heard mem⟩
    · intro w there group
      exact watches w (live w there group) group
  · rw [retired]
    exact ⟨ps, ⟨s, t⟩, [], rfl, asks, keeps, by simp, watches⟩

theorem Awaited.run (h : Awaited ps s) (consistent : s.Consistent) (ts : List (Turn ι)) :
    Awaited (ps ++ s.plays ts) (s.run ts) := by
  induction ts generalizing ps s with
  | nil =>
    rw [plays_nil, List.append_nil]
    exact h
  | cons t ts ih =>
    have later := ih (h.after consistent t) (consistent.after t)
    rw [List.append_assoc] at later
    exact later

theorem Awaited.log (h : Awaited ps s) (log : List (Notice ι)) : Awaited ps { s with log } :=
  ⟨h.distinct, h.asked⟩

theorem awaited_of_none (distinct : s.watches.Distinct) (none : s.requests.pending = []) :
    Awaited [] s := by
  refine ⟨distinct, ?_⟩
  rw [none]
  nofun

end Session

/-- After earlier plays, a play handles the first reply to a query of a watch. The query went out
when a pause was accepted, at the place that the watch had among those that were live. Since then
the link was kept, and no reply of that number was handled. -/
inductive Play.FirstReply (past : List (Play ι)) (p : Play ι) (w : Watch ι) (reply : Reply) :
    Prop where
  | asked {earlier between : List (Play ι)} {q : Play ι} {pause : Pause} {i j : Nat}
      (split : past = earlier ++ q :: between) (accepts : q.Accepts pause)
      (watched : q.before.watches.live[j]? = some w)
      (request : q.requests[j]? = some ⟨reply.id, .query w.kind w.name⟩)
      (link : q.before.Uses i ∧ q.after.Uses i)
      (missed : ∀ b ∈ between, b.Misses i reply.id.toNat) (heard : p.Hears i (.reply reply))

namespace Session

variable {p : Play ι} {ps : List (Play ι)} {reply : Reply} {kind : ObjectKind} {label : ι}

/-- A snapshot is handed over for the first reply to a query of a watch that is live. -/
theorem Awaited.snapshot (h : Awaited ps p.before) (consistent : ∀ q ∈ ps, q.before.Consistent)
    (called : p.called? = some (.snapshot kind label, reply)) :
    ∃ w ∈ p.before.watches.live, w.kind = kind ∧ w.label = label ∧ p.FirstReply ps w reply := by
  obtain ⟨linked, ⟨s, turn, polled⟩, e, waits, callback, id⟩ := called_eq_some called
  obtain ⟨earlier, q, between, rfl, asks, keeps, missed, live⟩ := h.asked e waits
  obtain ⟨pause, j, w, accepts, place, request, sort, owner, group⟩ :=
    asks.queries (consistent q (by simp)) keeps callback
  rw [id, UInt64.ofNat_toNat] at request
  rw [id] at missed
  refine ⟨w, live w (List.mem_of_getElem? place) group, sort, owner, ?_⟩
  exact .asked rfl accepts place request ⟨asks.uses, keeps⟩ missed
    ⟨turn, ⟨linked, rfl⟩, s, polled⟩

/-- A reply is handed over to an owner who has made a request. -/
theorem Awaited.requested (h : Awaited ps p.before)
    (called : p.called? = some (.reply label, reply)) :
    ∃ q ∈ ps, ∃ handler errand, q.turn = .request handler errand label := by
  obtain ⟨-, -, e, waits, callback, -⟩ := called_eq_some called
  obtain ⟨earlier, q, between, rfl, asks, -⟩ := h.asked e waits
  obtain ⟨r, issues, -⟩ := asks.issues
  refine ⟨q, by simp, ?_⟩
  generalize q.turn = t at issues
  cases issues with
  | asked =>
    cases callback
    exact ⟨_, _, rfl⟩
  | watched => nomatch callback

end Session

end CallDebugger
