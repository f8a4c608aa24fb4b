import CallDebugger.Proofs.Duo.Traffic

/-!
# What a session books

Over a link that takes everything each request that a session sends is noted under the number that
it carries (`Session.Issues`), and nothing else is noted; a reply strikes out the request of its
number (`Session.Booking`, `Session.Outcome.booking`).
-/

namespace CallDebugger

variable {ι : Type}

namespace Session

/-- What a turn does about requests, of which it handles and sends messages. -/
inductive Booking (s : Session ι) (t : Turn ι) (s' : Session ι) (handled sent : List Message) :
    Prop where
  | asks {n : Nat} {new : List (PendingRequest (Callback ι))}
      (unanswered : handled.filterMap Message.reply? = [])
      (ids : (sent.filterMap Message.request?).map (·.id) =
        (List.range' s.requests.nextRequest n).map UInt64.ofNat)
      (next : s'.requests.nextRequest = s.requests.nextRequest + n)
      (pending : s'.requests.pending ⊆ s.requests.pending ++ new)
      (issues : ∀ p ∈ new, s.requests.nextRequest ≤ p.id ∧ p.id < s.requests.nextRequest + n ∧
        ∃ q, .request q ∈ sent ∧ q.id = .ofNat p.id ∧ s.Issues t q p)
  | answers {reply : Reply} (handles : handled = [.reply reply]) (unasked : sent = [])
      (requests : s'.requests = (s.requests.answer reply).2)

variable {s s' : Session ι} {t : Turn ι} {l l' : Link}

/-- A turn that asks nothing and hears no reply. -/
theorem booking_quiet {handled sent : List Message}
    (unanswered : handled.filterMap Message.reply? = [])
    (unasked : sent.filterMap Message.request? = [])
    (next : s'.requests.nextRequest = s.requests.nextRequest)
    (fewer : s'.requests.pending ⊆ s.requests.pending) : s.Booking t s' handled sent := by
  refine .asks (n := 0) unanswered ?_ next ?_ (List.forall_mem_nil _)
  · rw [unasked]
    rfl
  · rw [List.append_nil]
    exact fewer

/-- A pause makes the session query what is watched. -/
theorem booking_paused {pause : Pause} {s₁ : Session ι}
    (polled : s.poll = some (.message (.paused pause), s₁)) (connected : s.isConnected = true)
    (requests : s'.requests = Watches.noted s.watches.live s.requests) :
    s.Booking .next s' [.paused pause]
      (s.announcement ++ Watches.queries s.watches.live s.requests.nextRequest) := by
  have noted : s'.requests.pending ⊆
      s.requests.pending ++ Watches.entries s.watches.live s.requests.nextRequest := by
    rw [requests]
    exact List.Subset.refl _
  have next : s'.requests.nextRequest = s.requests.nextRequest + s.watches.live.length := by
    rw [requests]
    rfl
  refine .asks rfl ?_ next noted ?_
  · rw [List.filterMap_append, not_asks_announcement, List.nil_append, Watches.ids_queries]
  · intro p mem
    obtain ⟨k, w, small, live, rfl, sent⟩ := Watches.mem_entries mem
    refine ⟨Nat.le_add_right _ k, Nat.add_lt_add_left small _, _, ?_, rfl,
      .watched polled connected live⟩
    exact List.mem_append_right _ sent

/-- A command whose message the link takes. -/
theorem booking_grant {m : Message} (offered : s.offers? t = some m) (l' : Link) :
    s.Booking t (s.grant l' t) [] [m] := by
  have connected := isConnected_of_offers offered
  cases t <;> simp only [offers?, Option.ite_none_right_eq_some, Option.some.injEq,
    reduceCtorEq] at offered
  case request handler errand label =>
    obtain ⟨_, rfl⟩ := offered
    refine .asks (n := 1) rfl rfl rfl (List.Subset.refl _) ?_
    intro p mem
    rw [List.mem_singleton.1 mem]
    exact ⟨Nat.le_refl _, Nat.lt_succ_self _, _, List.mem_cons_self, rfl, .asked connected⟩
  all_goals
    obtain ⟨_, rfl⟩ := offered
    exact booking_quiet rfl rfl rfl (List.Subset.refl _)

/-- **Every turn books what it asks.** -/
theorem Outcome.booking {handled : List Message} (outcome : s.Outcome l t s' l' handled)
    (linked : s.Linked l) : s.Booking t s' handled (s.offered t) := by
  have same : ∀ {s' : Session ι}, s'.requests = s.requests →
      s'.requests.pending ⊆ s.requests.pending := fun requests _ mem => requests ▸ mem
  cases outcome with
  | still link still silent =>
    rw [silent]
    exact booking_quiet rfl rfl still.nextRequest still.pending
  | granted offered sends =>
    rw [offered_of_command (isCommand_of_offers offered), offered]
    exact booking_grant offered _
  | noticed polled told =>
    rw [offered_next linked.link polled, prompted_of_notice told]
    exact booking_quiet rfl rfl rfl (same rfl)
  | greeted polled | traced polled =>
    rw [offered_next linked.link polled]
    exact booking_quiet rfl rfl rfl (same rfl)
  | paused polled connected sends =>
    rw [offered_next linked.link polled, prompted_paused connected]
    exact booking_paused (poll_of_event linked.link polled) connected rfl
  | replied polled =>
    rw [offered_next linked.link polled]
    refine .answers rfl rfl ?_
    rw [acceptReply_eq]

end Session

end CallDebugger
