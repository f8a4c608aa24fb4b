import CallDebugger.Proofs.Traced.Heeding

/-!
# Which calls are recorded

The hook before a call handles what has arrived, and if the process pauses it announces the call and
goes on with one batch of events after the other (`Peer.runBefore`). Whatever arrives, it adds the
call to the history just if it lets the process go on, and after an announcement it does so only if
it has handled an order to go on (`Peer.calls_recorded`).
-/

namespace CallDebugger

variable {σ : Type}

namespace Inspector

theorem isAnswer_of_mem_answers {i : Inspector σ} {h : History} {s : σ} {ms : List Message}
    {m : Message} (mem : m ∈ i.answers h s ms) : m.isAnswer = true := by
  induction ms generalizing s with
  | nil => nomatch mem
  | cons n ms ih =>
    cases n with
    | queryTrace w =>
      rcases List.mem_cons.1 mem with rfl | mem
      · rfl
      · exact ih mem
    | request r =>
      rcases List.mem_cons.1 mem with rfl | mem
      · rfl
      · exact ih mem
    | _ => exact ih mem

end Inspector

namespace Peer

variable {p₀ p q p' p₁ : Peer σ} {c : Call}

/-! ## A hook with what arrives meanwhile -/

/-- A hook that waits goes on with one batch of events after the other, until it comes to a
result. -/
def await : Peer σ → List (List LinkEvent) → Outcome × Peer σ
  | p, [] => (none, p)
  | p, es :: script =>
    match (p.arrive es).wake with
    | (none, q) => q.await script
    | (some r, q) => (some r, q)

/-- The hook before a call, and the batches of events that arrive while it waits. -/
def runBefore (p : Peer σ) (c : Call) (script : List (List LinkEvent)) : Outcome × Peer σ :=
  match p.beforeCall c with
  | (none, q) => q.await script
  | (some r, q) => (some r, q)

/-- The messages that a hook handles while it waits. -/
def heeds : Peer σ → List (List LinkEvent) → List Message
  | _, [] => []
  | p, es :: script =>
    (p.arrive es).heard (p.arrive es).link.inbox ++
      match (p.arrive es).wake with
      | (none, q) => q.heeds script
      | (some _, _) => []

/-- The pause that is to be announced before a call, once what has arrived is handled. -/
def pauseBefore (p : Peer σ) (c : Call) : Pause :=
  let objects := p.inspector.objectsAfter p.objects (p.heard p.link.inbox)
  ⟨c, .ofNat p.history.length, p.inspector.currentContext objects,
    p.inspector.contextReports objects⟩

/-! ## Waiting -/

/-- What a hook that waits before a call makes of messages. -/
structure Held (p : Peer σ) (c : Call) (ms : List Message) (r : Outcome) (p' : Peer σ) : Prop where
  history : p'.history = (through [c] r).foldl History.add p.history
  paused : p'.breaks.paused = (p.breaks.paused && !ms.any Message.releases)
  going : r = some (.ok ()) → p'.breaks.paused = false
  waits : r = none → p'.inside = some (.call c)
  sent : ∃ answers, p'.link.sent = p.link.sent ++ answers ∧ ∀ m ∈ answers, m.isAnswer = true

/-- Nothing has happened. -/
theorem held_nil (inside : p.inside = some (.call c)) : p.Held c [] none p where
  history := rfl
  paused := (Bool.and_true _).symm
  going := nofun
  waits _ := inside
  sent := ⟨[], (List.append_nil _).symm, List.forall_mem_nil _⟩

/-- What comes of some messages, and then of others. -/
theorem Held.trans {ms ns : List Message} {r : Outcome} (first : p.Held c ms none p₁)
    (later : p₁.Held c ns r p') : p.Held c (ms ++ ns) r p' where
  history := by rw [later.history, first.history]; rfl
  paused := by rw [later.paused, first.paused, List.any_append, Bool.not_or, Bool.and_assoc]
  going := later.going
  waits := later.waits
  sent := by
    obtain ⟨as, sent, answers⟩ := first.sent
    obtain ⟨bs, sent', answers'⟩ := later.sent
    refine ⟨as ++ bs, by rw [sent', sent, List.append_assoc], ?_⟩
    intro m mem
    exact (List.mem_append.1 mem).elim (answers m) (answers' m)

theorem sent_arrive (p : Peer σ) (es : List LinkEvent) : (p.arrive es).link.sent = p.link.sent := by
  unfold arrive Link.push
  split <;> rfl

theorem Held.arrives {es : List LinkEvent} {ms : List Message} {r : Outcome}
    (h : (p.arrive es).Held c ms r p') : p.Held c ms r p' := by
  refine ⟨h.history, h.paused, h.going, h.waits, ?_⟩
  rw [← p.sent_arrive es]
  exact h.sent

/-- Beside announcements, answers are sent and nothing else. -/
theorem Pumped.sent {r : Except PeerError Unit} (pumped : p.Pumped r q) :
    ∃ answers, q.link.sent = p.link.sent ++ answers ∧ ∀ m ∈ answers, m.isAnswer = true := by
  cases gone : q.lost with
  | some reason =>
    rw [(pumped.dropped (by rw [gone]; rfl)).2]
    exact ⟨[], (List.append_nil _).symm, List.forall_mem_nil _⟩
  | none =>
    rw [(pumped.offered gone).2]
    refine ⟨p.link.taken p.due, p.link.sent_offer p.due, ?_⟩
    intro m mem
    exact Inspector.isAnswer_of_mem_answers (Link.mem_of_mem_taken mem)

/-- A hook that has handled and answered what had arrived does not send anything more. -/
theorem Pumped.held {r₀ : Except PeerError Unit} {r : Outcome} (pumped : p.Pumped r₀ q)
    (history : p'.history = (through [c] r).foldl History.add q.history)
    (breaks : p'.breaks = q.breaks) (sent : p'.link.sent = q.link.sent)
    (going : r = some (.ok ()) → q.breaks.paused = false)
    (waits : r = none → p'.inside = some (.call c)) : p.Held c (p.heard p.link.inbox) r p' where
  history := by rw [history, pumped.history]
  paused := by rw [breaks, pumped.paused]
  going ok := by rw [breaks, going ok]
  waits := waits
  sent := by
    rw [sent]
    exact pumped.sent

theorem Checked.frame {r : Except PeerError Unit} (checked : q.Checked r p') :
    p'.history = q.history ∧ p'.breaks = q.breaks ∧ p'.link.sent = q.link.sent := by
  cases checked <;> exact ⟨rfl, rfl, rfl⟩

/-- What one batch of events comes to. -/
theorem Steady.held_wake (h : Steady p₀ p) (inside : p.inside = some (.call c)) :
    p.Held c (p.heard p.link.inbox) p.wake.1 p.wake.2 := by
  have pumped := h.pumped
  have still := held_nil inside
  obtain ⟨r, p', performs, continues⟩ := p.continues_wake
  rw [performs]
  cases continues with
  | idle idle =>
    have none : p.link.inbox = [] := by
      obtain outside | asleep := idle
      · cases inside.symm.trans outside
      · simp only [canWake, Bool.or_eq_false_iff, Bool.not_eq_false', List.isEmpty_iff] at asleep
        exact asleep.2
    rw [none, heard_nil]
    exact still
  | torn _ down =>
    rw [(h.down down).2, heard_nil]
    exact ⟨rfl, still.paused, nofun, nofun, still.sent⟩
  | unanswered _ _ pump =>
    rw [pump] at pumped
    exact pumped.held rfl rfl rfl nofun nofun
  | resumes place _ pump resumes =>
    cases inside.symm.trans place
    rw [pump] at pumped
    cases resumes with
    | barred barred =>
      obtain ⟨history, breaks, sent⟩ := barred.frame
      exact pumped.held history breaks sent nofun nofun
    | rests => exact pumped.held rfl rfl rfl nofun fun _ => pumped.inside.trans inside
    | goesOn _ going => exact pumped.held rfl rfl rfl (fun _ => going) nofun

/-- What batches of events come to. -/
theorem Steady.held_await (h : Steady p₀ p) (inside : p.inside = some (.call c))
    (script : List (List LinkEvent)) :
    p.Held c (p.heeds script) (p.await script).1 (p.await script).2 := by
  induction script generalizing p with
  | nil => exact held_nil inside
  | cons es script ih =>
    have first := (h.arrive es).held_wake (p := p.arrive es) inside
    have steady := (h.arrive es).wake
    rw [heeds, await]
    rcases performs : (p.arrive es).wake with ⟨_ | r, q⟩ <;> rw [performs] at first steady
    · exact (first.trans (ih steady (first.waits rfl))).arrives
    · rw [List.append_nil]
      exact first.arrives

/-! ## Announcing -/

/-- What the hook before a call comes to before it waits. -/
inductive Starts (p : Peer σ) (c : Call) : Outcome → Peer σ → Prop where
  /-- It comes to a result at once. -/
  | returns {r : Except PeerError Unit} {p' : Peer σ} {answers : List Message}
      (history : p'.history = (through [c] (some r)).foldl History.add p.history)
      (going : r = .ok () → p'.breaks.paused = false)
      (sent : p'.link.sent = p.link.sent ++ answers)
      (kind : ∀ m ∈ answers, m.isAnswer = true) : Starts p c (some r) p'
  /-- It announces the call, and waits. -/
  | announces {p' : Peer σ} {answers : List Message} (inside : p'.inside = some (.call c))
      (history : p'.history = p.history) (paused : p'.breaks.paused = true)
      (sent : p'.link.sent = p.link.sent ++ answers ++ [.paused (p.pauseBefore c)])
      (kind : ∀ m ∈ answers, m.isAnswer = true) : Starts p c none p'

theorem Held.starts {ms : List Message} {r : Except PeerError Unit}
    (h : p.Held c ms (some r) p') : p.Starts c (some r) p' := by
  obtain ⟨answers, sent, kind⟩ := h.sent
  exact .returns h.history (fun ok => h.going (congrArg some ok)) sent kind

theorem Pumped.pauseAt {r : Except PeerError Unit} (pumped : p.Pumped r q) (c : Call) :
    q.pauseAt c = p.pauseBefore c := by
  rw [Peer.pauseAt, pauseBefore, pumped.history, pumped.inspector, pumped.objects]

theorem Steady.starts (h : Steady p₀ p) (c : Call) :
    p.Starts c (p.beforeCall c).1 (p.beforeCall c).2 := by
  have pumped := h.pumped
  obtain ⟨r, p', performs, enters⟩ := p.enters_beforeCall c
  rw [performs]
  cases enters with
  | @unanswered e q pump =>
    rw [pump] at pumped
    have held : p.Held c _ (some (.error e)) { q with inside := none } :=
      pumped.held rfl rfl rfl nofun nofun
    exact held.starts
  | @begins _ q _ pump begins =>
    rw [pump] at pumped
    cases begins with
    | @barred e q' barred =>
      obtain ⟨history, breaks, sent⟩ := barred.frame
      have held : p.Held c _ (some (.error e)) { q' with inside := none } :=
        pumped.held history breaks sent nofun nofun
      exact held.starts
    | passes _ misses =>
      have going : q.breaks.paused = false := by
        simp only [BreakState.hits, Bool.or_eq_false_iff] at misses
        exact misses.1.1
      have held : p.Held c _ (some (.ok ())) (q.permitted c) :=
        pumped.held rfl rfl rfl (fun _ => going) nofun
      exact held.starts
    | unannounced _ _ refused =>
      obtain ⟨answers, sent, kind⟩ := pumped.sent
      exact .returns pumped.history nofun ((Link.sent_send_error refused).trans sent) kind
    | stops _ _ taken =>
      obtain ⟨answers, sent, kind⟩ := pumped.sent
      refine .announces rfl pumped.history rfl ?_ kind
      rw [(Link.sent_send_ok taken).1, sent, pumped.pauseAt c]

/-! ## The whole hook -/

theorem pauses_of_kind {answers : List Message} (kind : ∀ m ∈ answers, m.isAnswer = true) :
    answers.filterMap Message.pause? = [] := by
  rw [List.filterMap_eq_nil_iff]
  intro m mem
  have kind := kind m mem
  cases m with
  | trace | reply => rfl
  | _ => nomatch kind

/-- A message lets a paused process go on only if it is an order to go on that is no interrupt. -/
theorem exists_of_releases {ms : List Message} (releases : ms.any Message.releases = true) :
    ∃ how, .proceed how ∈ ms ∧ how.interrupt = false := by
  obtain ⟨m, mem, releases⟩ := List.any_eq_true.1 releases
  cases m with
  | proceed how => exact ⟨how, mem, by simpa [Message.releases] using releases⟩
  | _ => cases releases

/-- **Calls are recorded just if they may run.** Let anything happen to a server, over whatever
link, then run the hook before a call, and let any events arrive while it waits.

* The call is added to the history if the hook lets the process go on, and otherwise the history
  stays as it is. It never holds more calls than there is room for.
* The hook lets the process go on only when it is not paused.
* It announces one pause at most: that of the very call, with the length of the history and what
  the inspector tells of the context.
* Once it has announced that, the process is paused until the hook handles an order to go on that
  is no interrupt, whatever else it handles. So if it lets the process go on, it has handled one. -/
theorem calls_recorded (verdict : Nat → Message → Option LinkError) (inspector : Inspector σ)
    (objects : σ) (capacity : Nat) (os : List Occurrence) (c : Call)
    (script : List (List LinkEvent)) :
    let p := (listen (.fresh verdict) inspector objects capacity).live os
    let r := (p.runBefore c script).1
    let p' := (p.runBefore c script).2
    let known := inspector.objectsAfter p.objects (p.heard p.link.inbox)
    let waiting := (p.beforeCall c).2
    (r = some (.ok ()) → p'.history = p.history.add c ∧ p'.breaks.paused = false) ∧
    (r ≠ some (.ok ()) → p'.history = p.history) ∧
    p.history.length ≤ max capacity 1 ∧
    ∃ told, p'.link.sent = p.link.sent ++ told ∧
      (((p.beforeCall c).1 ≠ none ∧ told.filterMap Message.pause? = []) ∨
      ∃ size : UInt64, (max capacity 1 < UInt64.size → size.toNat = p.history.length) ∧
        (p.beforeCall c).1 = none ∧
        told.filterMap Message.pause? =
          [⟨c, size, inspector.currentContext known, inspector.contextReports known⟩] ∧
        p'.breaks.paused = !(waiting.heeds script).any Message.releases ∧
        (r = some (.ok ()) →
          ∃ how, .proceed how ∈ waiting.heeds script ∧ how.interrupt = false)) := by
  intro p
  have steady : Steady (listen (.fresh verdict) inspector objects capacity) p :=
    (steady_listen verdict inspector objects capacity).live os
  have starts := steady.starts c
  have steady' := steady.beforeCall c
  have pause : p.pauseBefore c = ⟨c, .ofNat p.history.length,
      inspector.currentContext (inspector.objectsAfter p.objects (p.heard p.link.inbox)),
      inspector.contextReports (inspector.objectsAfter p.objects (p.heard p.link.inbox))⟩ := by
    have same : p.inspector = inspector := steady.inspector
    rw [pauseBefore, same]
  have room : p.history.length ≤ max capacity 1 := steady.fits.2
  have size : max capacity 1 < UInt64.size →
      (UInt64.ofNat p.history.length).toNat = p.history.length :=
    fun small => UInt64.toNat_ofNat_of_lt' (Nat.lt_of_le_of_lt room small)
  unfold runBefore
  generalize p.beforeCall c = performed at starts steady'
  obtain ⟨r, q⟩ := performed
  cases starts with
  | @returns r _ told history going sent kind =>
    refine ⟨?_, ?_, room, told, sent, .inl ⟨nofun, pauses_of_kind kind⟩⟩
    · rintro ⟨⟩
      exact ⟨history, going rfl⟩
    · intro barred
      rcases r with e | ⟨⟨⟩⟩
      · exact history
      · exact absurd rfl barred
  | @announces _ answers inside history paused sent kind =>
    have held := steady'.held_await inside script
    obtain ⟨later, sent', kind'⟩ := held.sent
    have still : (q.await script).2.breaks.paused = !(q.heeds script).any Message.releases := by
      rw [held.paused, paused, Bool.true_and]
    refine ⟨?_, ?_, room, answers ++ [.paused (p.pauseBefore c)] ++ later, ?_,
      .inr ⟨_, size, rfl, ?_, still, ?_⟩⟩
    · intro ok
      refine ⟨?_, held.going ok⟩
      rw [held.history, ok, history]
      rfl
    · intro barred
      rw [held.history, history]
      generalize (q.await script).1 = r at barred
      rcases r with _ | e | ⟨⟨⟩⟩
      · rfl
      · rfl
      · exact absurd rfl barred
    · rw [sent', sent]
      simp only [List.append_assoc]
    · rw [List.filterMap_append, List.filterMap_append, pauses_of_kind kind, pauses_of_kind kind',
        pause]
      rfl
    · intro ok
      apply exists_of_releases
      have going := held.going ok
      rw [still] at going
      simpa using going

end Peer

end CallDebugger
