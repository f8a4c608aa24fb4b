import CallDebugger.Proofs.Session.Callbacks

/-!
# Numbers that are still to be given out

Requests and watches are numbered by counters, which are ahead of all that is waited for and all
that is watched (`Session.Ahead`), whatever the session does. So a number is fresh when it is given
out, and watches stand in the order in which they were made.
-/

namespace CallDebugger

variable {ι : Type}

/-- Every number of a request that waits has been given out. -/
def Requests.Ahead {κ : Type} (r : Requests κ) : Prop := ∀ e ∈ r.pending, e.id < r.nextRequest

namespace Requests

variable {κ : Type} {r r' : Requests κ}

/-- Requests may be forgotten, and numbers used up. -/
theorem Ahead.fewer (h : r.Ahead) (fewer : r'.pending ⊆ r.pending)
    (le : r.nextRequest ≤ r'.nextRequest) : r'.Ahead := by
  intro e mem
  exact Nat.lt_of_lt_of_le (h e (fewer mem)) le

theorem ahead_of_none (none : r.pending = []) : r.Ahead := by
  intro e mem
  rw [none] at mem
  nomatch mem

theorem Ahead.note (h : r.Ahead) (handler : HandlerId) (callback : κ) :
    (r.note handler callback).Ahead := by
  intro e mem
  show e.id < r.nextRequest + 1
  rcases List.mem_append.1 mem with mem | mem
  · have := h e mem
    omega
  · rw [List.mem_singleton.1 mem]
    exact Nat.lt_succ_self _

/-- A request that is noted and struck out again leaves what was there. -/
theorem Ahead.strike_note (h : r.Ahead) (handler : HandlerId) (callback : κ) :
    ((r.note handler callback).strike r.nextRequest).pending = r.pending := by
  rw [pending_strike_note, List.filter_eq_self]
  intro e mem
  have := h e mem
  rw [bne_iff_ne]
  omega

end Requests

namespace Watches

theorem Ahead.noted {r : Requests (Callback ι)} (h : r.Ahead) (ws : List (Watch ι)) :
    (noted ws r).Ahead := by
  intro e mem
  show e.id < r.nextRequest + ws.length
  rcases List.mem_append.1 mem with mem | mem
  · have := h e mem
    omega
  · obtain ⟨k, w, small, -, rfl, -⟩ := mem_entries mem
    exact Nat.add_lt_add_left small _

/-- Watches stand in the order of their numbers, all of which have been given out. -/
structure Ordered (w : Watches ι) : Prop where
  ascending : w.live.Pairwise fun u v => u.id < v.id
  given : ∀ v ∈ w.live, v.id ≤ w.lastId

theorem ordered_empty : (empty : Watches ι).Ordered := ⟨List.Pairwise.nil, by simp [empty]⟩

theorem Ordered.subscribe {w : Watches ι} (h : w.Ordered) (requests : Requests (Callback ι))
    (name : ObjectName) (kind : ObjectKind) (label : ι) :
    (w.subscribe requests name kind label).2.1.Ordered := by
  constructor
  · show (w.live ++ [_]).Pairwise _
    rw [List.pairwise_append]
    refine ⟨h.ascending, List.pairwise_singleton _ _, ?_⟩
    intro v live new single
    rw [List.mem_singleton.1 single]
    exact Nat.lt_succ_of_le (h.given v live)
  · intro v mem
    show v.id ≤ w.lastId + 1
    rcases List.mem_append.1 mem with mem | mem
    · exact Nat.le_succ_of_le (h.given v mem)
    · have last : v.id = w.lastId + 1 := congrArg Watch.id (List.mem_singleton.1 mem)
      exact Nat.le_of_eq last

theorem Ordered.unsubscribe {w : Watches ι} (h : w.Ordered) (requests : Requests (Callback ι))
    (id : WatchId) : (w.unsubscribe requests id).2.1.Ordered := by
  rw [unsubscribe_eq]
  constructor
  · exact h.ascending.sublist List.filter_sublist
  · intro u mem
    exact h.given u (List.mem_filter.1 mem).1

end Watches

namespace Session

variable {s s' : Session ι} {t : Turn ι}

/-- The counters of a session are ahead of all that they have numbered. -/
structure Ahead (s : Session ι) : Prop where
  requests : s.requests.Ahead
  watches : s.watches.Ordered

theorem ahead_new : (new : Session ι).Ahead :=
  ⟨Requests.ahead_of_none rfl, Watches.ordered_empty⟩

/-- What is waited for after a turn has numbers that were given out. -/
theorem Effect.requests_ahead (effect : Effect s t s') (consistent : s.Consistent)
    (h : s.requests.Ahead) : s'.requests.Ahead := by
  cases effect with
  | connect endpoint link =>
    exact Requests.ahead_of_none ((consistent.tell _).pending_connectWith link)
  | connectWith link => exact Requests.ahead_of_none (consistent.pending_connectWith link)
  | disconnect => exact Requests.ahead_of_none s.pending_disconnect
  | ended | rejected | unsynced | unqueried => exact Requests.ahead_of_none (pending_lose rfl _)
  | unregister => exact h.fewer List.filter_sublist.subset (Nat.le_refl _)
  | unsubscribe id =>
    apply h.fewer _ (Nat.le_of_eq (s.nextRequest_unsubscribe id).symm)
    show (s.watches.unsubscribe s.requests id).2.2.pending ⊆ s.requests.pending
    unfold Watches.unsubscribe
    cases s.watches.find? id with
    | none => exact List.Subset.refl _
    | some v => exact List.filter_sublist.subset
  | declined =>
    rw [requests_store]
    exact h
  | refused => exact h.fewer (s.pending_refuse _ t) (s.nextRequest_le_refuse _ t)
  | granted linked offered sends =>
    cases t with
    | request handler errand label => exact h.note handler (.reply label)
    | _ => exact h
  | paused linked polled connected announced queried =>
    obtain ⟨rfl, -⟩ := Watches.noted_of_query queried
    exact Watches.Ahead.noted h s.watches.live
  | @replied reply =>
    rw [acceptReply_eq]
    apply h.fewer
    · rw [Requests.pending_answer]
      exact List.filter_sublist.subset
    · exact Nat.le_of_eq (s.requests.nextRequest_answer reply).symm
  | register | subscribe | arrive | idle | noticed | greeted | traced => exact h

theorem Ahead.after (h : s.Ahead) (consistent : s.Consistent) (t : Turn ι) :
    (s.after t).Ahead := by
  have effect := effect consistent.tied t
  have ordered : (s.after t).watches.Ordered :=
    effect.watches (h.watches.subscribe s.requests) (h.watches.unsubscribe s.requests) h.watches
  exact ⟨effect.requests_ahead consistent h.requests, ordered⟩

/-- **Numbers are given out once.** -/
theorem Ahead.run (h : s.Ahead) (consistent : s.Consistent) (ts : List (Turn ι)) :
    (s.run ts).Ahead := by
  induction ts generalizing s with
  | nil => exact h
  | cons t ts ih => exact ih (h.after consistent t) (consistent.after t)

end Session

end CallDebugger
