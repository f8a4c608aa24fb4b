import CallDebugger.Proofs.Session.Endings
import CallDebugger.Proofs.Session.Requesting
import Mathlib.Data.List.Nodup
import Mathlib.Data.List.Pairwise

/-!
# Callbacks run for their own requests

Requests are numbered in order over all the links that a session adopts. A callback runs for a reply
that arrives on the link on which its request went out, while that link is in use, and neither the
group of the request nor the watch that asked has been given up in between
(`Session.callbacks_run`). What the session waits for has been asked in its past
(`Session.Founded`), which every turn keeps.
-/

namespace CallDebugger

variable {ι : Type}

/-- A turn calls off a request: the group of the request is forgotten, or a watch of that group
ends. -/
def Turn.CallsOff (t : Turn ι) (e : PendingRequest (Callback ι)) (watches : List (Watch ι)) :
    Prop :=
  t = .unregister e.handler ∨ ∃ w ∈ watches, w.handler = e.handler ∧ t = .unsubscribe w.id

/-- A turn that makes or ends a watch. -/
def Turn.isWatching : Turn ι → Bool
  | .subscribe .. | .unsubscribe _ => true
  | _ => false

/-- Live watches have numbers of their own, none of which is still to be given out. -/
structure Watches.Distinct (w : Watches ι) : Prop where
  distinct : (w.live.map (·.id)).Nodup
  numbered : ∀ v ∈ w.live, v.id ≤ w.lastId

namespace Watches

theorem Distinct.eq_of_id {w : Watches ι} (h : w.Distinct) {u v : Watch ι} (memU : u ∈ w.live)
    (memV : v ∈ w.live) (same : u.id = v.id) : u = v :=
  List.inj_on_of_nodup_map h.distinct memU memV same

theorem distinct_empty : (empty : Watches ι).Distinct := ⟨List.nodup_nil, by simp [empty]⟩

theorem Distinct.subscribe {w : Watches ι} (h : w.Distinct) (requests : Requests (Callback ι))
    (name : ObjectName) (kind : ObjectKind) (label : ι) :
    (w.subscribe requests name kind label).2.1.Distinct := by
  constructor
  · simp only [Watches.subscribe, List.map_append, List.map_cons, List.map_nil]
    rw [List.nodup_append]
    refine ⟨h.distinct, List.nodup_singleton _, ?_⟩
    intro id mem other single
    obtain ⟨v, live, rfl⟩ := List.mem_map.1 mem
    have := h.numbered v live
    rw [List.mem_singleton.1 single]
    exact Nat.ne_of_lt (Nat.lt_succ_of_le this)
  · intro v mem
    simp only [Watches.subscribe] at mem ⊢
    rcases List.mem_append.1 mem with mem | mem
    · exact Nat.le_succ_of_le (h.numbered v mem)
    · exact Nat.le_of_eq (congrArg (·.id) (List.mem_singleton.1 mem))

/-- A watch ends, if there is one of the number. -/
theorem unsubscribe_eq (w : Watches ι) (requests : Requests (Callback ι)) (id : WatchId) :
    (w.unsubscribe requests id).2.1 = { w with live := w.live.filter fun v => v.id != id } := by
  unfold Watches.unsubscribe
  cases found : w.find? id with
  | none =>
    have all : w.live.filter (fun v => v.id != id) = w.live := by
      rw [List.filter_eq_self]
      intro v mem
      simpa using List.find?_eq_none.1 found v mem
    simp only [all]
  | some v => rfl

theorem Distinct.unsubscribe {w : Watches ι} (h : w.Distinct) (requests : Requests (Callback ι))
    (id : WatchId) : (w.unsubscribe requests id).2.1.Distinct := by
  rw [unsubscribe_eq]
  constructor
  · exact h.distinct.sublist (List.filter_sublist.map _)
  · intro u mem
    exact h.numbered u (List.mem_filter.1 mem).1

end Watches

namespace Session

variable {s s' : Session ι} {t : Turn ι}

/-! ## What a turn does to what is waited for -/

/-- What becomes in a turn of the requests that wait for their replies. -/
inductive Ledger (s : Session ι) (t : Turn ι) (s' : Session ι) : Prop where
  /-- All of them are forgotten. -/
  | cleared (pending : s'.requests.pending = [])
  /-- Those that wait afterwards have waited before and were not called off, or they are asked in
  this turn. The link in use and the watches that asked stay. -/
  | carried (link : s.link.isSome = true → s'.link.isSome = true) (retired : s'.retired = s.retired)
      (pending : ∀ e ∈ s'.requests.pending,
        (e ∈ s.requests.pending ∧ ¬ t.CallsOff e s.watches.live) ∨
          ∃ r, s.Issues t r e ∧ .request r ∈ s.sent t)
      (watches : ∀ e ∈ s'.requests.pending, ∀ w ∈ s.watches.live, w.handler = e.handler →
        w ∈ s'.watches.live)

/-- A turn that asks nothing and calls nothing off. -/
theorem ledger_kept (kind : ∀ e, ¬ t.CallsOff e s.watches.live)
    (link : s.link.isSome = true → s'.link.isSome = true) (retired : s'.retired = s.retired)
    (fewer : s'.requests.pending ⊆ s.requests.pending)
    (watches : s.watches.live ⊆ s'.watches.live) : Ledger s t s' := by
  refine .carried link retired ?_ ?_
  · intro e mem
    exact .inl ⟨fewer mem, kind e⟩
  · intro _ _ w live _
    exact watches live

theorem not_callsOff_next (e : PendingRequest (Callback ι)) (watches : List (Watch ι)) :
    ¬ (Turn.next : Turn ι).CallsOff e watches := by
  simp [Turn.CallsOff]

theorem not_callsOff_of_command (command : t.isCommand = true) (e : PendingRequest (Callback ι))
    (watches : List (Watch ι)) : ¬ t.CallsOff e watches := by
  cases t <;> simp_all [Turn.CallsOff, Turn.isCommand]

theorem not_isWatching_of_command (command : t.isCommand = true) : t.isWatching = false := by
  cases t <;> simp_all [Turn.isWatching, Turn.isCommand]

theorem pending_disconnect (s : Session ι) : s.disconnect.requests.pending = [] := by
  rw [disconnect, dropLink_eq]
  rfl

theorem pending_lose {l : Link} (linked : s.link = some l) (reason : String) :
    (s.lose reason).requests.pending = [] := by
  rw [lose_of_link linked]
  rfl

/-- Something is waited for only while there is a link. -/
theorem Consistent.link_of_pending (h : s.Consistent) {e : PendingRequest (Callback ι)}
    (mem : e ∈ s.requests.pending) : s.link.isSome = true := by
  have connected := h.connected_of_pending (List.ne_nil_of_mem mem)
  exact h.tied (isConnected_iff.2 connected)

theorem Consistent.pending_connectWith (h : s.Consistent) (link : Link) :
    (s.connectWith link).requests.pending = [] := by
  unfold Session.connectWith
  split
  · exact s.pending_disconnect
  · rw [List.eq_nil_iff_forall_not_mem]
    intro e mem
    exact absurd (h.link_of_pending mem) ‹_›

theorem ledger_unsubscribe (distinct : s.watches.Distinct) (id : WatchId) :
    Ledger s (.unsubscribe id) (s.unsubscribe id).2 := by
  unfold unsubscribe Watches.unsubscribe
  cases found : s.watches.find? id with
  | none =>
    have absent : ∀ w ∈ s.watches.live, w.id ≠ id := by
      intro w live
      simpa using List.find?_eq_none.1 found w live
    refine ledger_kept ?_ (fun h => h) rfl (List.Subset.refl _) (List.Subset.refl _)
    rintro e (other | ⟨w, live, -, same⟩)
    · simp at other
    · cases same
      exact absent w live rfl
  | some v =>
    have live : v ∈ s.watches.live := List.mem_of_find?_eq_some found
    have named : v.id = id := by simpa using List.find?_some found
    -- A watch of the group of a request that is left is not the one that ends.
    have other : ∀ e ∈ s.requests.pending, e.handler ≠ v.handler → ∀ w ∈ s.watches.live,
        w.handler = e.handler → w.id ≠ id := by
      intro e _ apart w live' group same
      rw [distinct.eq_of_id live' live (same.trans named.symm)] at group
      exact apart group.symm
    refine .carried (fun h => h) rfl ?_ ?_
    · intro e mem
      rw [Requests.pending_unregister, List.mem_filter, bne_iff_ne] at mem
      refine .inl ⟨mem.1, ?_⟩
      rintro (register | ⟨w, live', group, same⟩)
      · simp at register
      · cases same
        exact other e mem.1 mem.2 w live' group rfl
    · intro e mem w live' group
      rw [Requests.pending_unregister, List.mem_filter, bne_iff_ne] at mem
      exact List.mem_filter.2 ⟨live', bne_iff_ne.2 (other e mem.1 mem.2 w live' group)⟩

theorem watches_store (s : Session ι) (t : Turn ι) : (s.store t).watches = s.watches := by
  cases t <;> rfl

theorem watches_refuse (s : Session ι) (l : Link) (t : Turn ι) :
    (s.refuse l t).watches = s.watches := by
  cases t <;> rfl

theorem watches_grant (s : Session ι) (l : Link) (t : Turn ι) :
    (s.grant l t).watches = s.watches := by
  cases t <;> rfl

/-- A request that is refused is not waited for. -/
theorem pending_refuse (s : Session ι) (l : Link) (t : Turn ι) :
    (s.refuse l t).requests.pending ⊆ s.requests.pending := by
  cases t with
  | request handler errand label =>
    intro e mem
    have mem :
        e ∈ ((s.requests.note handler (.reply label)).strike s.requests.nextRequest).pending := mem
    rw [Requests.pending_strike_note] at mem
    exact (List.mem_filter.1 mem).1
  | _ => exact List.Subset.refl _

/-- A command whose message the link takes. -/
theorem ledger_grant {m : Message} {l l' : Link} (linked : s.link = some l)
    (offered : s.offers? t = some m) (sends : l.send m = (.ok (), l')) :
    Ledger s t (s.grant l' t) := by
  have command := isCommand_of_offers offered
  have connected := isConnected_of_offers offered
  have taken : s.sent t = [m] := by
    rw [sent, linked, offered_of_command command, offered]
    simp [Link.taken, sends]
  have kind := fun e => not_callsOff_of_command command e s.watches.live
  have links := link_grant s l' t
  have link : s.link.isSome = true → (s.grant l' t).link.isSome = true := by simp [links.1]
  cases t with
  | request handler errand label =>
    simp only [offers?, Option.ite_none_right_eq_some, Option.some.injEq] at offered
    refine .carried link links.2 ?_ fun _ _ w live _ => live
    intro e mem
    rcases List.mem_append.1 mem with mem | mem
    · exact .inl ⟨mem, kind e⟩
    · rw [List.mem_singleton.1 mem, taken, ← offered.2]
      exact .inr ⟨_, .asked connected, List.mem_cons_self⟩
  | _ =>
    exact ledger_kept kind link links.2 (List.Subset.refl _) (List.Subset.refl _)

/-- A pause at which all watches are queried. -/
theorem ledger_paused {pause : Pause} {l l₀ l₁ l' : Link} {requests : Requests (Callback ι)}
    (linked : s.link = some l) (polled : l.poll = some (.message (.paused pause), l₀))
    (connected : s.isConnected = true) (announced : l₀.offer s.announcement = (none, l₁))
    (queried : Watches.query s.watches.live s.requests l₁ = (.ok (), requests, l'))
    (pending : s'.requests = requests) (link : s'.link.isSome = true)
    (retired : s'.retired = s.retired) (watches : s'.watches = s.watches) : Ledger s .next s' := by
  obtain ⟨rfl, offered⟩ := Watches.noted_of_query queried
  have taken : s.sent .next =
      s.announcement ++ Watches.queries s.watches.live s.requests.nextRequest := by
    rw [sent_paused linked polled connected, Link.taken_append announced,
      Link.taken_of_offer announced, Link.taken_of_offer offered]
  refine .carried (fun _ => link) retired ?_ ?_
  · rw [pending]
    intro e mem
    rcases List.mem_append.1 mem with mem | mem
    · exact .inl ⟨mem, not_callsOff_next e _⟩
    · obtain ⟨k, w, -, live, rfl, query⟩ := Watches.mem_entries mem
      refine .inr ⟨_, .watched (poll_of_event linked polled) connected live, ?_⟩
      rw [taken]
      exact List.mem_append_right _ query
  · rw [watches]
    exact fun _ _ w live _ => live

/-- **What is waited for after a turn.** -/
theorem Effect.ledger (effect : Effect s t s') (h : s.Consistent) (distinct : s.watches.Distinct) :
    Ledger s t s' := by
  have whole : s.requests.pending ⊆ s.requests.pending := List.Subset.refl _
  have live : s.watches.live ⊆ s.watches.live := List.Subset.refl _
  have next := fun e => not_callsOff_next e s.watches.live
  cases effect with
  | connect endpoint link => exact .cleared ((h.tell _).pending_connectWith link)
  | connectWith link => exact .cleared (h.pending_connectWith link)
  | disconnect => exact .cleared s.pending_disconnect
  | register => exact ledger_kept (by simp [Turn.CallsOff]) id rfl whole live
  | unregister handler =>
    refine .carried id rfl ?_ fun _ _ w live _ => live
    intro e mem
    have mem : e ∈ s.requests.pending.filter fun p => p.handler != handler := mem
    rw [List.mem_filter, bne_iff_ne] at mem
    refine .inl ⟨mem.1, ?_⟩
    rintro (same | ⟨w, -, -, other⟩)
    · cases same
      exact mem.2 rfl
    · simp at other
  | subscribe =>
    exact ledger_kept (by simp [Turn.CallsOff]) id rfl whole (List.subset_append_left _ _)
  | unsubscribe id => exact ledger_unsubscribe distinct id
  | arrive events =>
    have link : s.link.isSome = true → (s.arrive events).link.isSome = true := by
      simp [Session.arrive]
    exact ledger_kept (by simp [Turn.CallsOff]) link rfl whole live
  | declined command nothing =>
    have kind := fun e => not_callsOff_of_command command e s.watches.live
    refine ledger_kept kind (by rw [link_store]; exact id) (retired_store s t) ?_ ?_
    · rw [requests_store]
      exact whole
    · rw [watches_store]
      exact live
  | @refused _ m l l' e linked offered refusal =>
    have kind := fun e => not_callsOff_of_command (isCommand_of_offers offered) e s.watches.live
    have links := link_refuse s l' t
    refine ledger_kept kind (by simp [links.1]) links.2 (s.pending_refuse l' t) ?_
    rw [watches_refuse]
    exact live
  | granted linked offered sends => exact ledger_grant linked offered sends
  | idle nothing => exact ledger_kept next id rfl whole live
  | noticed | greeted | traced => exact ledger_kept next (fun _ => rfl) rfl whole live
  | ended | rejected | unsynced | unqueried => exact .cleared (pending_lose rfl _)
  | paused linked polled connected announced queried =>
    exact ledger_paused linked polled connected announced queried rfl rfl rfl rfl
  | replied linked polled =>
    rw [acceptReply_eq]
    refine ledger_kept next (fun _ => rfl) rfl ?_ live
    rw [Requests.pending_answer]
    exact List.filter_sublist.subset

/-! ## Watches -/

theorem watches_disconnect (s : Session ι) : s.disconnect.watches = s.watches := by
  rw [disconnect, dropLink_eq]
  rfl

theorem watches_connectWith (s : Session ι) (link : Link) :
    (s.connectWith link).watches = s.watches := by
  unfold connectWith
  split
  · exact s.watches_disconnect
  · rfl

theorem watches_lose (s : Session ι) (reason : String) : (s.lose reason).watches = s.watches := by
  unfold lose
  split
  · rfl
  · rw [dropLink_eq]
    rfl

/-- A turn that makes or ends no watch leaves the watches as they are. -/
theorem Effect.watches_still (effect : Effect s t s') (other : t.isWatching = false) :
    s'.watches = s.watches := by
  cases effect with
  | subscribe | unsubscribe => nomatch other
  | connect endpoint link => exact watches_connectWith _ link
  | connectWith link => exact watches_connectWith s link
  | disconnect => exact s.watches_disconnect
  | declined => exact s.watches_store t
  | refused => exact s.watches_refuse _ t
  | granted => exact s.watches_grant _ t
  | ended | rejected | unsynced | unqueried => exact watches_lose _ _
  | replied => rw [acceptReply_eq]
  | register | unregister | arrive | idle | noticed | greeted | paused | traced => rfl

/-- What subscribing and unsubscribing keep of the watches, every turn keeps. -/
theorem Effect.watches {P : Watches ι → Prop} (effect : Effect s t s')
    (subscribe : ∀ name kind label, P (s.watches.subscribe s.requests name kind label).2.1)
    (unsubscribe : ∀ id, P (s.watches.unsubscribe s.requests id).2.1) (h : P s.watches) :
    P s'.watches := by
  by_cases other : t.isWatching = false
  · rw [effect.watches_still other]
    exact h
  · cases effect with
    | subscribe name kind label => exact subscribe name kind label
    | unsubscribe id => exact unsubscribe id
    | declined command => exact absurd (not_isWatching_of_command command) other
    | refused _ offered | granted _ offered =>
      exact absurd (not_isWatching_of_command (isCommand_of_offers offered)) other
    | _ => exact absurd rfl other

/-- Watches keep their numbers. -/
theorem Effect.distinct (effect : Effect s t s') (h : s.watches.Distinct) :
    s'.watches.Distinct :=
  effect.watches (h.subscribe s.requests) (h.unsubscribe s.requests) h

end Session

/-! ## What is waited for was asked -/

namespace Play

/-- A play asks, on the link at a place, for the reply that is waited for. -/
structure Asks (q : Play ι) (i : Nat) (e : PendingRequest (Callback ι)) : Prop where
  uses : q.before.Uses i
  issues : ∃ r, q.before.Issues q.turn r e ∧ .request r ∈ q.sentOn i

/-- A play keeps the link at a place in use, and does not call off the request. The watches are
those that there were when it was asked. -/
structure Spares (b : Play ι) (i : Nat) (e : PendingRequest (Callback ι))
    (watches : List (Watch ι)) : Prop where
  uses : b.before.Uses i
  keeps : b.after.Uses i
  spares : ¬ b.turn.CallsOff e watches

end Play

namespace Session

variable {s s' : Session ι} {t : Turn ι} {ps : List (Play ι)}

/-- After some plays, what is waited for was asked in them on the link in use, and since then
neither was the link given up nor the request called off. -/
structure Founded (ps : List (Play ι)) (s : Session ι) : Prop where
  distinct : s.watches.Distinct
  asked : ∀ e ∈ s.requests.pending, ∃ earlier q between, ps = earlier ++ q :: between ∧
    q.Asks s.retired.length e ∧
    (∀ b ∈ between, b.Spares s.retired.length e q.before.watches.live) ∧
    ∀ w ∈ q.before.watches.live, w.handler = e.handler → w ∈ s.watches.live

theorem founded_new : Founded [] (new : Session ι) :=
  ⟨Watches.distinct_empty, by simp [new, Requests.empty]⟩

/-- What is waited for after a turn was waited for before it and not called off, or it is asked in
it. The link in use and the watches that asked stay. -/
theorem Consistent.waits_after (h : s.Consistent) (distinct : s.watches.Distinct) {t : Turn ι}
    {e : PendingRequest (Callback ι)} (mem : e ∈ (s.after t).requests.pending) :
    s.Uses s.retired.length ∧ (s.after t).Uses s.retired.length ∧
      (s.after t).retired = s.retired ∧
      ((e ∈ s.requests.pending ∧ ¬ t.CallsOff e s.watches.live) ∨
        Play.Asks ⟨s, t⟩ s.retired.length e) ∧
      ∀ w ∈ s.watches.live, w.handler = e.handler → w ∈ (s.after t).watches.live := by
  cases (effect h.tied t).ledger h distinct with
  | cleared pending =>
    rw [pending] at mem
    simp at mem
  | carried link retired pending watches =>
    have place : s.retired.length = (s.after t).retired.length :=
      (congrArg List.length retired).symm
    rcases pending e mem with waits | ⟨r, issues, sent⟩
    · have linked := h.link_of_pending waits.1
      exact ⟨⟨linked, rfl⟩, ⟨link linked, place⟩, retired, .inl waits, watches e mem⟩
    · have linked := isSome_link_of_sent sent
      refine ⟨⟨linked, rfl⟩, ⟨link linked, place⟩, retired, .inr ⟨⟨linked, rfl⟩, r, issues, ?_⟩,
        watches e mem⟩
      rw [Play.sentOn_eq (p := ⟨s, t⟩) h]
      exact sent

theorem Founded.after (h : Founded ps s) (consistent : s.Consistent) (t : Turn ι) :
    Founded (ps ++ [⟨s, t⟩]) (s.after t) := by
  refine ⟨(effect consistent.tied t).distinct h.distinct, ?_⟩
  intro e mem
  obtain ⟨uses, keeps, retired, waits | asks, watches⟩ := consistent.waits_after h.distinct mem
  · -- It was asked earlier, and this turn is one more that spares it.
    obtain ⟨earlier, q, between, rfl, asks, spares, live⟩ := h.asked e waits.1
    rw [retired]
    refine ⟨earlier, q, between ++ [⟨s, t⟩], by simp, asks, ?_, ?_⟩
    · intro b inside
      rcases List.mem_append.1 inside with inside | last
      · exact spares b inside
      · rw [List.mem_singleton.1 last]
        refine ⟨uses, keeps, ?_⟩
        rintro (register | ⟨w, there, group, ends⟩)
        · exact waits.2 (.inl register)
        · exact waits.2 (.inr ⟨w, live w there group, group, ends⟩)
    · intro w there group
      exact watches w (live w there group) group
  · rw [retired]
    exact ⟨ps, ⟨s, t⟩, [], rfl, asks, by simp, watches⟩

theorem Founded.run (h : Founded ps s) (consistent : s.Consistent) (ts : List (Turn ι)) :
    Founded (ps ++ s.plays ts) (s.run ts) := by
  induction ts generalizing ps s with
  | nil =>
    rw [plays_nil, List.append_nil]
    exact h
  | cons t ts ih =>
    have later := ih (h.after consistent t) (consistent.after t)
    rw [List.append_assoc] at later
    exact later

end Session

/-! ## Numbers -/

namespace Play

/-- The numbers of the requests that a play sends, which it does on the link in use. -/
def numbers (p : Play ι) : List UInt64 :=
  ((p.sentOn p.before.retired.length).filterMap Message.request?).map (·.id)

/-- The callback that a play runs, and the reply for which it runs. -/
def called? (p : Play ι) : Option (Callback ι × Reply) := p.before.called? p.turn

theorem numbered {p : Play ι} (h : p.before.Consistent) :
    ∃ k, p.numbers = (List.range' p.before.requests.nextRequest k).map UInt64.ofNat ∧
      p.before.requests.nextRequest + k ≤ p.after.requests.nextRequest := by
  obtain ⟨k, ids, le⟩ := (Session.effect h.tied p.turn).numbered
  exact ⟨k, by rw [numbers, sentOn_eq h, ids], le⟩

/-- A request that a play sends on some link has one of its numbers. -/
theorem mem_numbers {p : Play ι} (h : p.before.Consistent) {i : Nat} {r : Request}
    (sent : .request r ∈ p.sentOn i) : r.id ∈ p.numbers := by
  have place := (uses_of_sent h sent).1.2
  rw [place] at sent
  exact List.mem_map_of_mem (List.mem_filterMap.2 ⟨_, sent, rfl⟩)

end Play

namespace Session

variable {s : Session ι}

/-- The numbers of the requests that go out in some plays. -/
def numbers (ps : List (Play ι)) : List UInt64 := ps.flatMap Play.numbers

/-- Numbers go up, and stay below the next one to be given out. -/
theorem Consistent.numbered_run (h : s.Consistent) (ts : List (Turn ι)) :
    ∃ ns : List Nat, numbers (s.plays ts) = ns.map UInt64.ofNat ∧ ns.Pairwise (· < ·) ∧
      (∀ n ∈ ns, s.requests.nextRequest ≤ n ∧ n < (s.run ts).requests.nextRequest) ∧
      s.requests.nextRequest ≤ (s.run ts).requests.nextRequest := by
  induction ts generalizing s with
  | nil => exact ⟨[], rfl, .nil, by simp, Nat.le_refl _⟩
  | cons t ts ih =>
    obtain ⟨k, first, le⟩ := Play.numbered (p := ⟨s, t⟩) h
    obtain ⟨ns, rest, ascending, among, later⟩ := ih (h.after t)
    have le : s.requests.nextRequest + k ≤ (s.after t).requests.nextRequest := le
    refine ⟨List.range' s.requests.nextRequest k ++ ns, ?_, ?_, ?_, ?_⟩
    · rw [plays, numbers, List.flatMap_cons, first, List.map_append, ← rest]
      rfl
    · refine List.pairwise_append.2 ⟨List.pairwise_lt_range', ascending, ?_⟩
      intro n mem m mem'
      have := (List.mem_range'_1.1 mem).2
      have := (among m mem').1
      omega
    · intro n mem
      rw [run_cons]
      rcases List.mem_append.1 mem with mem | mem
      · have := List.mem_range'_1.1 mem
        omega
      · have := among n mem
        omega
    · rw [run_cons]
      omega

/-- As long as the numbers fit into their words, these go up as well. -/
theorem Consistent.ascending_numbers (h : s.Consistent) {ts : List (Turn ι)}
    (small : (s.run ts).requests.nextRequest ≤ UInt64.size) :
    (numbers (s.plays ts)).Pairwise (· < ·) := by
  obtain ⟨ns, eq, ascending, among, -⟩ := h.numbered_run ts
  rw [eq, List.pairwise_map]
  refine ascending.imp_of_mem ?_
  intro a b memA memB less
  have := (among b memB).2
  rw [UInt64.lt_iff_toNat_lt, UInt64.toNat_ofNat_of_lt' (by omega),
    UInt64.toNat_ofNat_of_lt' (by omega)]
  exact less

/-- One number is not given out twice. -/
theorem Consistent.number_once (h : s.Consistent) {ts : List (Turn ι)}
    (small : (s.run ts).requests.nextRequest ≤ UInt64.size) {p q : Play ι} (memP : p ∈ s.plays ts)
    (memQ : q ∈ s.plays ts) {n : UInt64} (inP : n ∈ p.numbers) (inQ : n ∈ q.numbers) : p = q := by
  have apart : (s.plays ts).Pairwise fun p q => ∀ m ∈ p.numbers, ∀ n ∈ q.numbers, m < n :=
    (List.pairwise_flatMap.1 (h.ascending_numbers small)).2
  have apart : (s.plays ts).Pairwise fun p q => ∀ m ∈ p.numbers, ∀ n ∈ q.numbers, m ≠ n :=
    apart.imp fun less m memM n memN => UInt64.ne_of_lt (less m memM n memN)
  have symmetric : Std.Symm fun p q : Play ι => ∀ m ∈ p.numbers, ∀ n ∈ q.numbers, m ≠ n :=
    ⟨fun p q differ m memM n memN => (differ n memN m memM).symm⟩
  by_contra different
  exact apart.forall memP memQ different n inP n inQ rfl

/-! ## Callbacks -/

/-- A callback that runs is that of a request which is waited for. -/
theorem called_eq_some {p : Play ι} {callback : Callback ι} {reply : Reply}
    (h : p.called? = some (callback, reply)) :
    p.before.link.isSome = true ∧
      (∃ s', p.turn = .next ∧ p.before.poll = some (.message (.reply reply), s')) ∧
      ∃ e ∈ p.before.requests.pending, e.callback = callback ∧ e.id = reply.id.toNat := by
  obtain ⟨s, t⟩ := p
  simp only [Play.called?] at h
  cases t with
  | next =>
    rw [called?] at h
    split at h
    · rename_i polled
      obtain ⟨called, answers, same⟩ := Option.map_eq_some_iff.1 h
      cases same
      obtain ⟨l, l', linked, -, -⟩ := poll_eq_some polled
      refine ⟨by rw [linked]; rfl, ⟨_, rfl, polled⟩, ?_⟩
      obtain ⟨eq, -⟩ | ⟨e, mem, number, eq⟩ := s.requests.answer_cases reply
      · rw [eq] at answers
        simp at answers
      · rw [eq] at answers
        cases answers
        exact ⟨e, mem, rfl, number⟩
    · simp at h
  | _ => simp [called?] at h

theorem id_of_issues {t : Turn ι} {r : Request} {e : PendingRequest (Callback ι)}
    (h : s.Issues t r e) : r.id = .ofNat e.id := by
  cases h <;> rfl

/-- **Callbacks run for their own requests.** Take any run from a new session, over any number of
links.

The numbers of the requests that go out go up over the whole run, whatever link they go out on, and
so do the words that carry them as long as they fit.

Replies are handed over by the callbacks that run. A callback that runs for a reply is that of a
request with its number, which went out on the link that the reply has come on; the link has been in
use since then, and neither was the group of the request unregistered nor its watch unsubscribed. So
a reply with the number of a request that went out on another link runs no callback. -/
theorem callbacks_run (ts : List (Turn ι)) :
    (∃ ns : List Nat, numbers ((new : Session ι).plays ts) = ns.map UInt64.ofNat ∧
      ns.Pairwise (· < ·) ∧ ∀ n ∈ ns, n < ((new : Session ι).run ts).requests.nextRequest) ∧
    (((new : Session ι).run ts).requests.nextRequest ≤ UInt64.size →
      (numbers ((new : Session ι).plays ts)).Pairwise (· < ·)) ∧
    (∀ earlier p later, (new : Session ι).plays ts = earlier ++ p :: later →
      p.told.filter Notice.isAnswer = (p.called?.map fun c => c.1.notice c.2).toList ∧
      ∀ callback reply, p.called? = some (callback, reply) →
        ∃ i e past q between, earlier = past ++ q :: between ∧ q.Asks i e ∧ p.before.Uses i ∧
          (∀ b ∈ between, b.Spares i e q.before.watches.live) ∧
          e.callback = callback ∧ e.id = reply.id.toNat) ∧
    (((new : Session ι).run ts).requests.nextRequest ≤ UInt64.size →
      ∀ p ∈ (new : Session ι).plays ts, ∀ q ∈ (new : Session ι).plays ts, ∀ j r callback reply,
        .request r ∈ q.sentOn j → r.id = reply.id → ¬ p.before.Uses j →
          p.called? ≠ some (callback, reply)) := by
  have start : (new : Session ι).Consistent := consistent_new
  obtain ⟨ns, numbers, ascending, among, -⟩ := start.numbered_run ts
  have origin {earlier later : List (Play ι)} {p : Play ι}
      (split : (new : Session ι).plays ts = earlier ++ p :: later) {callback : Callback ι}
      {reply : Reply} (called : p.called? = some (callback, reply)) :
      ∃ i e past q between, earlier = past ++ q :: between ∧ q.Asks i e ∧ p.before.Uses i ∧
        (∀ b ∈ between, b.Spares i e q.before.watches.live) ∧
        e.callback = callback ∧ e.id = reply.id.toNat := by
    obtain ⟨linked, -, e, waits, same, number⟩ := called_eq_some called
    obtain ⟨us, rfl, before⟩ := plays_split split
    have founded : Founded (new.plays us) p.before := before ▸ founded_new.run start us
    obtain ⟨past, q, between, earlier, asks, spares, -⟩ := founded.asked e waits
    exact ⟨_, e, past, q, between, earlier, asks, ⟨linked, rfl⟩, spares, same, number⟩
  refine ⟨⟨ns, numbers, ascending, fun n mem => (among n mem).2⟩, start.ascending_numbers, ?_, ?_⟩
  · intro earlier p later split
    refine ⟨(Play.account (start.of_split split)).answers, ?_⟩
    intro callback reply called
    exact origin split called
  · intro small p memP q₀ memQ₀ j r callback reply sent number other called
    obtain ⟨earlier, later, split⟩ := List.append_of_mem memP
    obtain ⟨i, e, past, q, between, rfl, asks, uses, -, -, id⟩ := origin split called
    have memQ : q ∈ new.plays ts := by
      rw [split]
      simp
    have consistent := start.of_mem_plays memQ
    have consistent₀ := start.of_mem_plays memQ₀
    obtain ⟨r', issues, sent'⟩ := asks.issues
    have same : r'.id = r.id := by
      rw [number, id_of_issues issues, id, UInt64.ofNat_toNat]
    -- Numbers are given out once, so the two requests went out in one play, on one link.
    have own : r.id ∈ q.numbers := same ▸ Play.mem_numbers consistent sent'
    have play : q = q₀ := start.number_once small memQ memQ₀ own (Play.mem_numbers consistent₀ sent)
    have place : i = j := by
      rw [asks.uses.2, (Play.uses_of_sent consistent₀ sent).1.2, play]
    exact other (place ▸ uses)

/-- A request goes out on a link, which is then replaced. Its reply comes on the second link and
runs no callback. The reply to a request that went out on the second link does. -/
theorem callbacks_run_second_link :
    let ts : List (Turn String) := [.connectWith (.withBudget none),
      .arrive [.message (.hello "demo")], .next, .register, .request 1 (.relink 1 7) "first",
      .connectWith (.withBudget none),
      .arrive [.message (.hello "demo"), .message (.reply (.success 1 none))], .next, .next,
      .request 1 (.relink 1 7) "second", .arrive [.message (.reply (.success 2 none))], .next]
    let late : Play String := ⟨new.run (ts.take 8), .next⟩
    let served : Play String := ⟨new.run (ts.take 11), .next⟩
    (numbers (new.plays ts)).Pairwise (· < ·) ∧ numbers (new.plays ts) = [1, 2] ∧
    (late.before.poll.isSome = true ∧ ∀ callback, late.called? ≠ some (callback, .success 1 none)) ∧
    served.called? = some (.reply "second", .success 2 none) ∧
    ∃ e q, q ∈ new.plays (ts.take 11) ∧ q.Asks 1 e ∧ e.callback = .reply "second" ∧ e.id = 2 := by
  intro ts late served
  have small : (new.run ts).requests.nextRequest ≤ UInt64.size := by decide
  obtain ⟨-, up, runs, apart⟩ := callbacks_run ts
  have mem : late ∈ new.plays ts := List.mem_of_getElem? (i := 8) rfl
  have asked : (⟨new.run (ts.take 4), .request 1 (.relink 1 7) "first"⟩ : Play String) ∈
      new.plays ts :=
    List.mem_of_getElem? (i := 4) rfl
  have sent : .request ⟨1, .relink 1 7⟩ ∈
      (⟨new.run (ts.take 4), .request 1 (.relink 1 7) "first"⟩ : Play String).sentOn 0 :=
    List.mem_cons_self
  have split : new.plays ts = new.plays (ts.take 11) ++ served :: [] := rfl
  have called : served.called? = some (.reply "second", .success 2 none) := rfl
  refine ⟨up small, by decide, ⟨rfl, ?_⟩, called, ?_⟩
  · intro callback
    exact apart small _ mem _ asked 0 _ callback _ sent rfl (by decide)
  · obtain ⟨i, e, past, q, between, earlier, asks, uses, -, same, id⟩ :=
      (runs _ _ _ split).2 _ _ called
    have place : i = 1 := uses.2
    refine ⟨e, q, ?_, place ▸ asks, same, id⟩
    rw [earlier]
    simp

end Session

end CallDebugger
