import CallDebugger.Proofs.Session.Account

/-!
# How links end

A link that a session has adopted is in use until its owner gives it up or adopts another, or until
it is lost. It ends once, is torn down at that moment and left alone from then on; its owner is told
of a loss, and of no other end (`Session.link_ends`). Pumping handles events up to the one that
loses the link (`Session.Pumps`).
-/

namespace CallDebugger

variable {ι : Type}

namespace Session

instance (s : Session ι) (i : Nat) : Decidable (s.Uses i) :=
  inferInstanceAs (Decidable (s.link.isSome = true ∧ i = s.retired.length))

end Session

namespace Play

/-- What a play tells the owner. -/
def told (p : Play ι) : List (Notice ι) := p.after.log.drop p.before.log.length

/-- Why a play loses the link in use. -/
def loss? (p : Play ι) : Option String := p.before.loss? p.turn

/-- A play ends the link at a place, which is in use before it and not after it. -/
def Ends (p : Play ι) (i : Nat) : Prop := p.before.Uses i ∧ ¬ p.after.Uses i

variable {p : Play ι} {i : Nat}

theorem account (h : p.before.Consistent) :
    Session.Account p.before p.turn p.after p.told := by
  obtain ⟨told, account⟩ := (Session.effect h.tied p.turn).account
  have log : p.after.log = p.before.log ++ told := account.log
  have same : p.told = told := by rw [Play.told, log, List.drop_left]
  rw [same]
  exact account

/-- A link ends just where it is given up. -/
theorem ends_iff (h : p.before.Consistent) :
    p.Ends i ↔ p.before.Uses i ∧ p.before.GivesUp p.turn := by
  have account := account h
  constructor
  · rintro ⟨uses, gone⟩
    refine ⟨uses, Classical.byContradiction fun held => gone ?_⟩
    obtain ⟨link, retired⟩ := account.keeps uses.1 held
    exact ⟨link, by rw [retired]; exact uses.2⟩
  · rintro ⟨uses, gives⟩
    obtain ⟨l, -, retired⟩ := account.gives uses.1 gives
    refine ⟨uses, fun still => ?_⟩
    have place : i = p.after.retired.length := still.2
    rw [retired, List.length_append, List.length_singleton, uses.2] at place
    omega

/-- Where a link ends it is torn down. -/
theorem Ends.aborted (h : p.before.Consistent) (ends : p.Ends i) :
    ∃ l, l.aborted = true ∧ p.after.retired[i]? = some l := by
  obtain ⟨uses, gives⟩ := (ends_iff h).1 ends
  obtain ⟨l, aborted, retired⟩ := (account h).gives uses.1 gives
  refine ⟨l, aborted, ?_⟩
  rw [retired, uses.2, List.getElem?_concat_length]

end Play

namespace Session

/-! ## What stays -/

/-- Links that were given up stay so. -/
theorem Consistent.retired_after {s : Session ι} (h : s.Consistent) (t : Turn ι) :
    s.retired <+: (s.after t).retired := by
  cases fate h.tied t with
  | kept _ _ _ _ retired => exact retired ▸ List.prefix_rfl
  | replaced _ _ _ retired =>
    rw [retired]
    exact List.prefix_append _ _

theorem Consistent.retired_run {s : Session ι} (h : s.Consistent) (ts : List (Turn ι)) :
    s.retired <+: (s.run ts).retired := by
  induction ts generalizing s with
  | nil => exact List.prefix_rfl
  | cons t ts ih => exact (h.retired_after t).trans (ih (h.after t))

/-- The plays after a play are those of a run from where it leads. -/
theorem plays_rest {s : Session ι} {ts : List (Turn ι)} {earlier later : List (Play ι)}
    {p : Play ι} (h : s.plays ts = earlier ++ p :: later) : ∃ us, later = p.after.plays us := by
  induction ts generalizing s earlier with
  | nil => simp at h
  | cons t ts ih =>
    cases earlier with
    | nil =>
      cases h
      exact ⟨ts, rfl⟩
    | cons q earlier =>
      rw [plays, List.cons_append, List.cons.injEq] at h
      exact ih h.2

/-- A play of a run meets a session of the run. -/
theorem before_of_mem_plays {s : Session ι} {ts : List (Turn ι)} {p : Play ι}
    (mem : p ∈ s.plays ts) : ∃ us, p.before = s.run us := by
  obtain ⟨earlier, later, split⟩ := List.append_of_mem mem
  obtain ⟨us, -, before⟩ := plays_split split
  exact ⟨us, before⟩

/-- A play of a run meets a consistent session. -/
theorem Consistent.of_split {s : Session ι} (h : s.Consistent) {ts : List (Turn ι)}
    {earlier later : List (Play ι)} {p : Play ι} (split : s.plays ts = earlier ++ p :: later) :
    p.before.Consistent := by
  obtain ⟨us, -, before⟩ := plays_split split
  rw [before]
  exact h.run us

theorem Consistent.of_mem_plays {s : Session ι} (h : s.Consistent) {ts : List (Turn ι)}
    {p : Play ι} (mem : p ∈ s.plays ts) : p.before.Consistent := by
  obtain ⟨earlier, later, split⟩ := List.append_of_mem mem
  exact h.of_split split

/-- Once a link was given up, nothing happens on it. -/
theorem Consistent.left_alone {s : Session ι} (h : s.Consistent) {i : Nat} {l : Link}
    (retired : s.retired[i]? = some l) {ts : List (Turn ι)} {q : Play ι} (mem : q ∈ s.plays ts) :
    ¬ q.before.Uses i ∧ q.sentOn i = [] ∧ q.after.links[i]? = some l := by
  obtain ⟨us, before⟩ := before_of_mem_plays mem
  have consistent := h.of_mem_plays mem
  have kept : s.retired <+: q.before.retired := before ▸ h.retired_run us
  obtain ⟨more, kept'⟩ := kept.trans (consistent.retired_after q.turn)
  have kept' : s.retired ++ more = q.after.retired := kept'
  have place : i < s.retired.length := (List.getElem?_eq_some_iff.1 retired).1
  have unused : ¬ q.before.Uses i := by
    rintro ⟨-, rfl⟩
    have := kept.length_le
    omega
  refine ⟨unused, Play.sentOn_of_not_uses consistent unused, ?_⟩
  rw [links, ← kept', List.append_assoc, List.getElem?_append_left place]
  exact retired

/-- A link that has ended is torn down, and nothing happens on it any more. -/
theorem Consistent.ended {s : Session ι} (h : s.Consistent) {ts : List (Turn ι)} {i : Nat}
    {earlier later : List (Play ι)} {p : Play ι} (split : s.plays ts = earlier ++ p :: later)
    (ends : p.Ends i) :
    ∃ l, l.aborted = true ∧ p.after.links[i]? = some l ∧
      ∀ q ∈ later, ¬ q.before.Uses i ∧ q.sentOn i = [] ∧ q.after.links[i]? = some l := by
  have consistent := h.of_split split
  obtain ⟨us, rfl⟩ := plays_rest split
  obtain ⟨l, aborted, retired⟩ := ends.aborted consistent
  refine ⟨l, aborted, ?_, ?_⟩
  · rw [links, List.getElem?_append_left (List.getElem?_eq_some_iff.1 retired).1]
    exact retired
  · intro q mem
    exact (consistent.after p.turn).left_alone retired mem

/-- A link ends once. -/
theorem Consistent.ends_once {s : Session ι} (h : s.Consistent) {ts : List (Turn ι)} {i : Nat}
    {earlier later : List (Play ι)} {p : Play ι} (split : s.plays ts = earlier ++ p :: later)
    (ends : p.Ends i) : ∀ q ∈ earlier ++ later, ¬ q.Ends i := by
  intro q mem again
  rcases List.mem_append.1 mem with mem | mem
  · obtain ⟨front, back, rfl⟩ := List.append_of_mem mem
    rw [List.append_assoc, List.cons_append] at split
    obtain ⟨l, -, -, alone⟩ := h.ended split again
    exact (alone p (by simp)).1 ends.1
  · obtain ⟨l, -, -, alone⟩ := h.ended split ends
    exact (alone q mem).1 again.1

/-! ## Reports -/

/-- What is told in a run is what is told in its plays. -/
theorem Consistent.log_run {s : Session ι} (h : s.Consistent) (ts : List (Turn ι)) :
    (s.run ts).log = s.log ++ (s.plays ts).flatMap Play.told := by
  induction ts generalizing s with
  | nil => exact (List.append_nil _).symm
  | cons t ts ih =>
    have first : (s.after t).log = s.log ++ Play.told ⟨s, t⟩ := (Play.account (p := ⟨s, t⟩) h).log
    rw [run_cons, ih (h.after t), first, List.append_assoc]
    rfl

/-- The losses that the owner is told of while the link at a place is in use. -/
def losses (ps : List (Play ι)) (i : Nat) : List String :=
  ps.flatMap fun p => if p.before.Uses i then p.told.filterMap Notice.loss? else []

theorem losses_append (ps qs : List (Play ι)) (i : Nat) :
    losses (ps ++ qs) i = losses ps i ++ losses qs i :=
  List.flatMap_append

/-- Plays that do not end a link report no loss of it. -/
theorem losses_of_not_ends {s : Session ι} (h : s.Consistent) {ts : List (Turn ι)} {i : Nat}
    {ps : List (Play ι)} (part : ps ⊆ s.plays ts) (held : ∀ p ∈ ps, ¬ p.Ends i) :
    losses ps i = [] := by
  rw [losses, List.flatMap_eq_nil_iff]
  intro p mem
  have consistent := h.of_mem_plays (part mem)
  split
  · have kept : ¬ p.before.GivesUp p.turn := fun gives =>
      held p mem ((Play.ends_iff consistent).2 ⟨‹_›, gives⟩)
    have safe : p.before.loss? p.turn = none := Option.not_isSome_iff_eq_none.1 fun lost =>
      kept (.inr (.inr lost))
    rw [(Play.account consistent).losses, safe]
    rfl
  · rfl

/-! ## Pumping -/

/-- Handling `n` events leads to a session on which no event waits. Each of them is there to be
handled, and nothing is handled after one that loses the link. -/
structure Pumps (s : Session ι) (n : Nat) (s' : Session ι) : Prop where
  run : s' = s.run (.replicate n .next)
  polls : ∀ p ∈ s.plays (.replicate n .next), p.before.poll.isSome = true
  last : ∀ earlier p later, s.plays (.replicate n .next) = earlier ++ p :: later →
    p.loss?.isSome = true → later = []
  done : s'.poll = none

theorem waiting_of_none {s : Session ι} (gone : s.link = none) : s.waiting = 0 := by
  rw [waiting, gone]

theorem waiting_of_link {s : Session ι} {l : Link} (linked : s.link = some l) :
    s.waiting = l.inbox.length := by
  rw [waiting, linked]

/-- What is sent does not add to what waits. -/
theorem inbox_query {ws : List (Watch ι)} {requests requests' : Requests (Callback ι)} {l l' : Link}
    {r : Except LinkError Unit} (queried : Watches.query ws requests l = (r, requests', l')) :
    l'.inbox = l.inbox := by
  obtain ⟨requests'', eq⟩ := Watches.query_eq_offer ws requests l
  rw [queried] at eq
  cases eq
  exact (l.offer_frame _).2.1

/-- Handling an event adds none to those that wait. -/
theorem Effect.waiting {s s' : Session ι} {t : Turn ι} (effect : Effect s t s') (next : t = .next)
    (polls : s.poll.isSome = true) : s'.waiting < s.waiting := by
  have shorter {e : LinkEvent} {l l₀ : Link} (linked : s.link = some l)
      (polled : l.poll = some (e, l₀)) : l₀.inbox.length < s.waiting := by
    obtain ⟨-, rest, inbox, rfl⟩ := Link.poll_eq_some polled
    rw [waiting_of_link linked, inbox]
    exact Nat.lt_succ_self rest.length
  subst next
  cases effect with
  | declined command | refused _ offered | granted _ offered => simp_all [Turn.isCommand, offers?]
  | idle nothing => simp [nothing] at polls
  | noticed linked polled | greeted linked polled | traced linked polled =>
    exact shorter linked polled
  | replied linked polled =>
    rw [acceptReply_eq]
    exact shorter linked polled
  | ended linked polled | rejected linked polled | unsynced linked polled
  | unqueried linked polled =>
    rw [waiting_of_none (link_lose rfl _).1]
    exact Nat.lt_of_le_of_lt (Nat.zero_le _) (shorter linked polled)
  | @paused pause l l₀ l₁ l' requests linked polled connected sent queried =>
    have announced : l₁.inbox = l₀.inbox := by
      have frame := (l₀.offer_frame s.announcement).2.1
      rwa [sent] at frame
    have same : l'.inbox = l₀.inbox := (inbox_query queried).trans announced
    have fewer := shorter linked polled
    rwa [← same] at fewer

/-- No event waits once the link is lost. -/
theorem poll_after_loss {s : Session ι} (lost : (s.loss? .next).isSome = true) :
    (s.after .next).poll = none := by
  obtain ⟨told, account⟩ := (effect_next s).account
  rw [poll, account.lost lost]

theorem Pumps.eq_zero {s s' : Session ι} {n : Nat} (h : Pumps s n s') (none : s.poll = none) :
    n = 0 := by
  cases n with
  | zero => rfl
  | succ n =>
    have first := h.polls ⟨s, .next⟩ List.mem_cons_self
    simp [none] at first

theorem pumps_pumpUpTo {limit : Nat} {s : Session ι} (enough : s.waiting ≤ limit) :
    Pumps s (pumpUpTo limit s).1 (pumpUpTo limit s).2 := by
  induction limit generalizing s with
  | zero =>
    have none : s.poll = none := by
      cases linked : s.link with
      | none => rw [poll, linked]
      | some l =>
        rw [waiting_of_link linked, Nat.le_zero, List.length_eq_zero_iff] at enough
        rw [poll_of_link linked, Link.poll, enough]
        simp
    exact ⟨rfl, by simp [pumpUpTo], by simp [pumpUpTo], none⟩
  | succ limit ih =>
    rw [pumpUpTo]
    cases polled : s.poll with
    | none => exact ⟨rfl, by simp, by simp, polled⟩
    | some event =>
      obtain ⟨e, s₀⟩ := event
      have first : s.after .next = s₀.handle e := by rw [after, handleNext, polled]
      have polls : s.poll.isSome = true := by rw [polled]; rfl
      have fewer := (effect_next s).waiting rfl polls
      have rest : (s₀.handle e).waiting ≤ limit := by
        rw [← first]
        omega
      have later := ih rest
      simp only
      generalize pumpUpTo limit (s₀.handle e) = pumped at later ⊢
      obtain ⟨n, s'⟩ := pumped
      simp only at later ⊢
      have plays_eq : s.plays (.replicate (n + 1) .next) =
          ⟨s, .next⟩ :: (s₀.handle e).plays (.replicate n .next) := by
        rw [List.replicate_succ, plays, first]
      refine ⟨?_, ?_, ?_, later.done⟩
      · rw [List.replicate_succ, run_cons, first]
        exact later.run
      · rw [plays_eq]
        intro p mem
        rcases List.mem_cons.1 mem with rfl | mem
        · exact polls
        · exact later.polls p mem
      · rw [plays_eq]
        intro earlier p rest split lost
        cases earlier with
        | cons q earlier =>
          rw [List.cons_append, List.cons.injEq] at split
          exact later.last earlier p rest split.2 lost
        | nil =>
          simp only [List.nil_append, List.cons.injEq] at split
          obtain ⟨rfl, rfl⟩ := split
          -- The loss has left nothing to handle, so pumping stops here.
          have idle : (s₀.handle e).poll = none := first ▸ poll_after_loss lost
          rw [later.eq_zero idle]
          rfl

/-- A loss leaves nothing to handle: what waited behind the event is dropped with the link. -/
theorem idle_after_loss {s : Session ι} {t : Turn ι} (lost : (s.loss? t).isSome = true) :
    (s.after t).poll = none ∧ (s.after t).after .next = s.after t := by
  have next : t = .next := by cases t <;> simp_all [loss?]
  subst next
  have none := poll_after_loss lost
  refine ⟨none, ?_⟩
  rw [after.eq_def (s.after .next), handleNext, none]

/-- **How links end.** Take any run from a new session, and the link at any place among those that
it adopts.

If no play ends the link, its owner is told of no loss of it. A play that ends it is the only one:
it gives the link up, and the owner is told of the loss of the link if the link was lost, with the
reason, and otherwise is told of none. The link has been torn down then, and no later play uses it,
sends anything on it or changes it.

A play ends the link in use whenever it gives it up, tells its owner of a loss only if it loses the
link in use, and leaves no event to be handled if it does. So pumping, at any time, handles events
up to one that loses the link, and counts them. -/
theorem link_ends (ts : List (Turn ι)) (i : Nat) :
    ((∀ p ∈ (new : Session ι).plays ts, ¬ p.Ends i) → losses ((new : Session ι).plays ts) i = []) ∧
    (∀ earlier p later, (new : Session ι).plays ts = earlier ++ p :: later → p.Ends i →
      p.before.GivesUp p.turn ∧
      (∀ q ∈ earlier ++ later, ¬ q.Ends i) ∧
      losses ((new : Session ι).plays ts) i = p.loss?.toList ∧
      ∃ l, l.aborted = true ∧ p.after.links[i]? = some l ∧
        ∀ q ∈ later, ¬ q.before.Uses i ∧ q.sentOn i = [] ∧ q.after.links[i]? = some l) ∧
    (∀ p ∈ (new : Session ι).plays ts,
      (p.before.Uses i → p.before.GivesUp p.turn → p.Ends i) ∧
      p.after.log = p.before.log ++ p.told ∧ p.told.filterMap Notice.loss? = p.loss?.toList ∧
      (p.loss?.isSome = true → p.before.link.isSome = true ∧
        p.after.poll = none ∧ p.after.after .next = p.after)) ∧
    Pumps (new.run ts) (new.run ts).pump.1 (new.run ts).pump.2 := by
  have start : (new : Session ι).Consistent := consistent_new
  refine ⟨?_, ?_, ?_, pumps_pumpUpTo (Nat.le_refl _)⟩
  · intro held
    exact losses_of_not_ends start (List.Subset.refl _) held
  · intro earlier p later split ends
    have consistent := start.of_split split
    obtain ⟨uses, gives⟩ := (Play.ends_iff consistent).1 ends
    have once := start.ends_once split ends
    refine ⟨gives, once, ?_, start.ended split ends⟩
    have front : earlier ⊆ new.plays ts := by
      rw [split]
      exact List.subset_append_left _ _
    have back : later ⊆ new.plays ts := by
      rw [split]
      exact List.subset_append_of_subset_right _ (List.subset_cons_self _ _)
    have sooner : losses earlier i = [] :=
      losses_of_not_ends start front fun q mem => once q (List.mem_append_left _ mem)
    have after : losses later i = [] :=
      losses_of_not_ends start back fun q mem => once q (List.mem_append_right _ mem)
    have here : losses [p] i = p.loss?.toList := by
      rw [losses, List.flatMap_singleton, if_pos uses]
      exact (Play.account consistent).losses
    rw [split, List.append_cons, losses_append, losses_append, sooner, here, after]
    simp
  · intro p mem
    have consistent := start.of_mem_plays mem
    have account := Play.account consistent
    refine ⟨?_, account.log, account.losses, ?_⟩
    · intro uses gives
      exact (Play.ends_iff consistent).2 ⟨uses, gives⟩
    · intro lost
      obtain ⟨none, idle⟩ := idle_after_loss lost
      exact ⟨isSome_link_of_loss lost, none, idle⟩

/-- A process that orders its session to shut down loses the link, which it shows once; the hello
that it sends after that is not heard. The next link is given up by the owner. -/
theorem link_ends_unaccepted :
    let ts : List (Turn Unit) := [.connectWith (.withBudget none),
      .arrive [.message (.hello "demo"), .message .terminate, .message (.hello "again")], .next,
      .next, .next, .connectWith (.withBudget none), .disconnect]
    (∃ earlier p later, new.plays ts = earlier ++ p :: later ∧ p.Ends 0 ∧
      (∀ q ∈ earlier ++ later, ¬ q.Ends 0) ∧
      losses (new.plays ts) 0 = [(ProtocolError.unhandled .terminate).message] ∧
      p.after.poll.isNone = true) ∧
    ∃ earlier p later, new.plays ts = earlier ++ p :: later ∧ p.Ends 1 ∧
      losses (new.plays ts) 1 = [] := by
  intro ts
  have lost : new.plays ts = (new.plays ts).take 3 ++ ⟨new.run (ts.take 3), .next⟩ ::
    (new.plays ts).drop 4 := rfl
  have given : new.plays ts = (new.plays ts).take 6 ++ ⟨new.run (ts.take 6), .disconnect⟩ :: [] :=
    rfl
  have ends : (⟨new.run (ts.take 3), .next⟩ : Play Unit).Ends 0 := ⟨by decide, by decide⟩
  have ends' : (⟨new.run (ts.take 6), .disconnect⟩ : Play Unit).Ends 1 := ⟨by decide, by decide⟩
  obtain ⟨-, once, told, -⟩ := (link_ends ts 0).2.1 _ _ _ lost ends
  obtain ⟨-, -, told', -⟩ := (link_ends ts 1).2.1 _ _ _ given ends'
  have mem : ⟨new.run (ts.take 3), .next⟩ ∈ new.plays ts := by
    rw [lost]
    simp
  obtain ⟨-, none, -⟩ := ((link_ends ts 0).2.2.1 _ mem).2.2.2 rfl
  exact ⟨⟨_, _, _, lost, ends, once, told, by rw [none]; rfl⟩, _, _, _, given, ends', told'⟩

end Session

end CallDebugger
