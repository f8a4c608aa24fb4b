import CallDebugger.Proofs.Session.Links

/-!
# What the parts of a session say together

A session has a link just when it is not disconnected, knows the name of the process just when it
has heard the hello, and the pause and the requests that it keeps belong to the link in use. All of
this (`Session.Consistent`) holds in every session that comes about, and every link that was
adopted before the one in use has been torn down (`Session.consistent_of_reached`).
-/

namespace CallDebugger

variable {ι : Type}

namespace Session

/-- The process has said hello on the link in use. -/
def Connected (s : Session ι) : Prop := s.phase = .running ∨ s.phase = .breaked

/-- How the parts of a session hang together. -/
structure Consistent (s : Session ι) : Prop where
  link_iff : s.link.isSome = true ↔ s.phase ≠ .disconnected
  peerName_iff : s.peerName.isSome = true ↔ s.Connected
  lastBreak_iff : s.lastBreak.isSome = true ↔ s.synced = true
  connected_of_synced : s.synced = true → s.Connected
  lastBreak_of_breaked : s.phase = .breaked → s.lastBreak.isSome = true
  connected_of_pending : s.requests.pending ≠ [] → s.Connected
  aborted : ∀ l ∈ s.retired, l.aborted = true

theorem isConnected_iff {s : Session ι} : s.isConnected = true ↔ s.Connected := by
  simp [isConnected, Connected]

theorem Consistent.tied {s : Session ι} (h : s.Consistent) : s.Tied := by
  intro connected
  rw [h.link_iff]
  rcases isConnected_iff.1 connected with phase | phase <;> rw [phase] <;> nofun

/-! ## Giving up a link -/

/-- Nothing of a connection is left in a session that was reset. -/
theorem consistent_reset {s : Session ι} (gone : s.link = none)
    (aborted : ∀ l ∈ s.retired, l.aborted = true) : s.reset.Consistent where
  link_iff := by simp [reset, gone]
  peerName_iff := by simp [reset, Connected]
  lastBreak_iff := by simp [reset]
  connected_of_synced := nofun
  lastBreak_of_breaked := nofun
  connected_of_pending := fun h => absurd rfl h
  aborted := aborted

/-- What the owner is told does not matter. -/
theorem Consistent.log {s : Session ι} (h : s.Consistent) (log : List (Notice ι)) :
    { s with log }.Consistent :=
  ⟨h.link_iff, h.peerName_iff, h.lastBreak_iff, h.connected_of_synced, h.lastBreak_of_breaked,
    h.connected_of_pending, h.aborted⟩

theorem Consistent.tell {s : Session ι} (h : s.Consistent) (n : Notice ι) :
    (s.tell n).Consistent :=
  h.log _

/-- A link that is given up joins the others. -/
theorem aborted_append {ls : List Link} (h : ∀ l ∈ ls, l.aborted = true) (link : Option Link) :
    ∀ l ∈ ls ++ (link.map Link.abort).toList, l.aborted = true := by
  intro l mem
  rcases List.mem_append.1 mem with mem | mem
  · exact h l mem
  · cases link with
    | none => nomatch mem
    | some k =>
      rw [List.mem_singleton.1 mem]
      rfl

theorem consistent_lose {s : Session ι} {l : Link} (linked : s.link = some l)
    (aborted : ∀ l ∈ s.retired, l.aborted = true) (reason : String) :
    (s.lose reason).Consistent := by
  rw [lose_of_link linked]
  exact (consistent_reset rfl (aborted_append aborted (some l))).tell _

theorem Consistent.disconnect {s : Session ι} (h : s.Consistent) : s.disconnect.Consistent := by
  rw [Session.disconnect, dropLink_eq]
  exact (consistent_reset rfl (aborted_append h.aborted s.link)).tell _

/-! ## Adopting a link -/

/-- A link may be adopted where there is none. -/
theorem Consistent.adopt {s : Session ι} (h : s.Consistent) (gone : s.phase = .disconnected)
    (link : Link) :
    { s with link := some link, synced := false, phase := .connecting }.Consistent := by
  have apart : ¬ s.Connected := by rintro (phase | phase) <;> rw [gone] at phase <;> nomatch phase
  have fresh : s.synced = false := Bool.eq_false_iff.2 fun synced =>
    apart (h.connected_of_synced synced)
  refine ⟨?_, ?_, ?_, nofun, nofun, ?_, h.aborted⟩
  · simp
  · have unnamed : ¬ s.peerName.isSome = true := fun named => apart (h.peerName_iff.1 named)
    simp [Connected, unnamed]
  · have unpaused : ¬ s.lastBreak.isSome = true := fun paused => by
      rw [h.lastBreak_iff, fresh] at paused
      nomatch paused
    simp [unpaused]
  · exact fun pending => absurd (h.connected_of_pending pending) apart

theorem phase_disconnect (s : Session ι) : s.disconnect.phase = .disconnected := rfl

theorem Consistent.connectWith {s : Session ι} (h : s.Consistent) (link : Link) :
    (s.connectWith link).Consistent := by
  unfold Session.connectWith
  split
  · exact h.disconnect.adopt s.phase_disconnect link
  · have gone : s.phase = .disconnected := Decidable.not_not.1 fun ne => ‹¬ _› (h.link_iff.2 ne)
    exact h.adopt gone link

/-! ## The link in use -/

theorem Consistent.relink {s : Session ι} (h : s.Consistent) {l : Link} (linked : s.link = some l)
    (l' : Link) : { s with link := some l' }.Consistent := by
  refine ⟨?_, h.peerName_iff, h.lastBreak_iff, h.connected_of_synced, h.lastBreak_of_breaked,
    h.connected_of_pending, h.aborted⟩
  rw [← h.link_iff, linked]
  exact Iff.rfl

/-- Watches may change and requests may be forgotten at any time; requests are made once the
process has said hello. -/
theorem Consistent.book {s : Session ι} (h : s.Consistent) (watches : Watches ι)
    (requests : Requests (Callback ι)) (allowed : requests.pending ≠ [] → s.Connected) :
    { s with watches, requests }.Consistent :=
  ⟨h.link_iff, h.peerName_iff, h.lastBreak_iff, h.connected_of_synced, h.lastBreak_of_breaked,
    allowed, h.aborted⟩

/-- Forgetting requests makes none. -/
theorem Consistent.forget {s : Session ι} (h : s.Consistent) (watches : Watches ι)
    {requests : Requests (Callback ι)} (fewer : requests.pending ⊆ s.requests.pending) :
    { s with watches, requests }.Consistent := by
  refine h.book watches requests fun pending => h.connected_of_pending fun none => ?_
  rw [none] at fewer
  exact pending (List.subset_nil.1 fewer)

theorem Consistent.arrive {s : Session ι} (h : s.Consistent) (events : List LinkEvent) :
    (s.arrive events).Consistent := by
  unfold Session.arrive
  cases linked : s.link with
  | none =>
    have same : ({ s with link := none } : Session ι) = s := by rw [← linked]
    exact same ▸ h
  | some l => exact h.relink linked (l.push events)

theorem Consistent.store {s : Session ι} (h : s.Consistent) (t : Turn ι) :
    (s.store t).Consistent := by
  cases t <;> exact ⟨h.link_iff, h.peerName_iff, h.lastBreak_iff, h.connected_of_synced,
    h.lastBreak_of_breaked, h.connected_of_pending, h.aborted⟩

/-- A paused process that is let go on is running. -/
theorem Consistent.goOn {s : Session ι} (h : s.Consistent) (breaked : s.phase = .breaked) :
    { s with phase := .running }.Consistent := by
  have connected : s.Connected := .inr breaked
  refine ⟨?_, ?_, h.lastBreak_iff, fun _ => .inl rfl, nofun, fun _ => .inl rfl, h.aborted⟩
  · rw [h.link_iff, breaked]
    exact ⟨nofun, nofun⟩
  · rw [h.peerName_iff]
    exact ⟨fun _ => .inl rfl, fun _ => connected⟩

theorem Consistent.refuse {s : Session ι} (h : s.Consistent) {l : Link} (linked : s.link = some l)
    (l' : Link) (t : Turn ι) : (s.refuse l' t).Consistent := by
  have kept := h.relink linked l'
  cases t with
  | request handler errand label =>
    apply kept.forget s.watches
    rw [Requests.pending_strike_note]
    exact List.filter_sublist.subset
  | setBreakpoints es => exact kept.store (.setBreakpoints es)
  | configure settings => exact kept.store (.configure settings)
  | _ => exact kept

theorem Consistent.grant {s : Session ι} (h : s.Consistent) {l : Link} (linked : s.link = some l)
    {t : Turn ι} {m : Message} (offered : s.offers? t = some m) (l' : Link) :
    (s.grant l' t).Consistent := by
  have kept := h.relink linked l'
  have connected := isConnected_iff.1 (isConnected_of_offers offered)
  cases t with
  | goOn | step =>
    have breaked : s.phase = .breaked := (Option.ite_none_right_eq_some.1 offered).1
    exact (kept.goOn breaked).tell _
  | interrupt => exact kept.tell _
  | request handler errand label => exact kept.book s.watches _ fun _ => connected
  | setBreakpoints es => exact kept.store (.setBreakpoints es)
  | configure settings => exact kept.store (.configure settings)
  | _ => exact kept

/-! ## Inbound messages -/

theorem Consistent.greetedBy {s : Session ι} (h : s.Consistent) (connecting : s.phase = .connecting)
    (name : String) : (s.greetedBy name).Consistent := by
  have apart : ¬ s.Connected := by
    rintro (phase | phase) <;> rw [connecting] at phase <;> nomatch phase
  refine ⟨?_, ⟨fun _ => .inl rfl, fun _ => rfl⟩, h.lastBreak_iff, fun _ => .inl rfl, nofun,
    fun _ => .inl rfl, h.aborted⟩
  have linked := h.link_iff
  rw [connecting] at linked
  exact ⟨fun _ => nofun, fun _ => linked.2 nofun⟩

theorem Consistent.pausedAt {s : Session ι} (h : s.Consistent) (connected : s.Connected)
    (pause : Pause) : (s.pausedAt pause).Consistent := by
  refine ⟨⟨fun _ => nofun, fun _ => ?_⟩, ⟨fun _ => .inr rfl, fun _ => h.peerName_iff.2 connected⟩,
    ⟨fun _ => rfl, fun _ => rfl⟩, fun _ => .inr rfl, fun _ => rfl, fun _ => .inr rfl, h.aborted⟩
  exact h.tied (isConnected_iff.2 connected)

theorem Consistent.acceptReply {s : Session ι} (h : s.Consistent) (reply : Reply) :
    (s.acceptReply reply).Consistent := by
  have fewer : (s.requests.answer reply).2.pending ⊆ s.requests.pending := by
    rw [Requests.pending_answer]
    exact List.filter_sublist.subset
  rw [acceptReply_eq]
  exact (h.forget s.watches fewer).log _

theorem Consistent.unregister {s : Session ι} (h : s.Consistent) (handler : HandlerId) :
    (s.unregister handler).Consistent :=
  h.forget s.watches List.filter_sublist.subset

theorem Consistent.unsubscribe {s : Session ι} (h : s.Consistent) (id : WatchId) :
    (s.unsubscribe id).2.Consistent := by
  unfold Session.unsubscribe Watches.unsubscribe
  cases s.watches.find? id with
  | none => exact h
  | some w => exact h.forget _ List.filter_sublist.subset

/-! ## Runs -/

/-- Whatever happens, the parts of a session keep saying the same. -/
theorem Effect.consistent {s s' : Session ι} {t : Turn ι} (effect : Effect s t s')
    (h : s.Consistent) : s'.Consistent := by
  cases effect with
  | connect endpoint link => exact (h.tell _).connectWith link
  | connectWith link => exact h.connectWith link
  | disconnect => exact h.disconnect
  | register => exact h.forget s.watches fun _ mem => mem
  | unregister handler => exact h.unregister handler
  | subscribe name kind label => exact h.forget _ fun _ mem => mem
  | unsubscribe id => exact h.unsubscribe id
  | arrive events => exact h.arrive events
  | declined => exact h.store t
  | refused linked _ _ => exact h.refuse linked _ t
  | granted linked offered _ => exact h.grant linked offered _
  | idle => exact h
  | noticed linked _ _ => exact (h.relink linked _).tell _
  | ended | rejected | unsynced | unqueried =>
    refine consistent_lose rfl ?_ _
    exact h.aborted
  | greeted linked _ phase => exact (h.relink linked _).greetedBy phase _
  | @paused pause _ _ _ _ requests linked _ connected =>
    have paused := h.pausedAt (isConnected_iff.1 connected) pause
    exact ((paused.relink linked _).book s.watches requests fun _ => .inr rfl).tell _
  | traced linked _ _ => exact (h.relink linked _).tell _
  | replied linked _ => exact (h.relink linked _).acceptReply _

theorem Consistent.after {s : Session ι} (h : s.Consistent) (t : Turn ι) : (s.after t).Consistent :=
  (effect h.tied t).consistent h

theorem consistent_new : (new : Session ι).Consistent :=
  consistent_reset (s := new) rfl fun _ mem => nomatch mem

/-- A turn leaves each link in its place, and the link that it adopts comes last. -/
theorem Consistent.links_after {s : Session ι} (h : s.Consistent) (t : Turn ι) :
    (s.after t).links.map Link.verdict = (s.links ++ t.adopts).map Link.verdict := by
  obtain ⟨g, grown, links⟩ := (fate h.tied t).links
  rw [links, Session.links]
  cases linked : s.link with
  | none => rfl
  | some l => simp [(grown l linked).verdict]

/-- All links but the one in use have been given up. -/
theorem Consistent.aborted_of_lt {s : Session ι} (h : s.Consistent) {i : Nat} {l : Link}
    (place : s.links[i]? = some l) (earlier : i + 1 < s.links.length) : l.aborted = true := by
  have last : i < s.retired.length := by
    have one : s.link.toList.length ≤ 1 := by cases s.link <;> simp
    rw [links, List.length_append] at earlier
    omega
  rw [links, List.getElem?_append_left last] at place
  exact h.aborted l (List.mem_of_getElem? place)

theorem Reached.consistent {adopted : List Link} {s : Session ι} (h : Reached adopted s) :
    s.Consistent ∧ s.links.map Link.verdict = adopted.map Link.verdict := by
  induction h with
  | new => exact ⟨consistent_new, rfl⟩
  | @turn adopted s _ t ih =>
    refine ⟨ih.1.after t, ?_⟩
    rw [ih.1.links_after, List.map_append, ih.2, List.map_append]
  | @pump adopted s _ ih =>
    refine pump_induction (P := fun s : Session ι =>
      s.Consistent ∧ s.links.map Link.verdict = adopted.map Link.verdict) ?_ ih
    intro s ih
    refine ⟨ih.1.after .next, ?_⟩
    rw [ih.1.links_after, List.map_append, ih.2]
    exact List.append_nil _

/-- **The parts of a session say the same.** In every session that comes about, the link, the name
of the process, the last pause and the pending requests are there just when the phase says so. The
links are those that were adopted, in order, and each one but the last has been torn down. -/
theorem consistent_of_reached {adopted : List Link} {s : Session ι} (h : Reached adopted s) :
    s.Consistent ∧ s.links.map Link.verdict = adopted.map Link.verdict ∧
      ∀ i l, s.links[i]? = some l → i + 1 < adopted.length → l.aborted = true := by
  obtain ⟨consistent, links⟩ := h.consistent
  refine ⟨consistent, links, fun i l place earlier => consistent.aborted_of_lt place ?_⟩
  have same := congrArg List.length links
  rw [List.length_map, List.length_map] at same
  exact same ▸ earlier

/-- A second link is adopted after the process said hello on the first one. -/
theorem consistent_of_second_link :
    ∃ s : Session Unit, Reached [.withBudget none, .withBudget none] s ∧ s.retired.length = 1 ∧
      s.Consistent ∧ ∀ i l, s.links[i]? = some l → i + 1 < 2 → l.aborted = true := by
  have first : Reached (ι := Unit) [.withBudget none] _ :=
    (Reached.new.turn (.connectWith (.withBudget none))).turn (.arrive [.message (.hello "demo")])
  have reached := first.pump.turn (.connectWith (.withBudget none))
  obtain ⟨consistent, _, torn⟩ := consistent_of_reached reached
  exact ⟨_, reached, rfl, consistent, torn⟩

end Session

end CallDebugger
