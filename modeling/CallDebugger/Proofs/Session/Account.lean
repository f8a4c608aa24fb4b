import CallDebugger.Proofs.Session.Plays

/-!
# What the owner is told

A turn loses the link in use if the event that it handles tells of its end, or is a message that
cannot be accepted (`Session.loss?`), and it runs a callback if that event is a reply that is waited
for (`Session.called?`). `Session.Account` says for every turn what it tells the owner and whether
it keeps the link in use: a loss is told once, where it happens, and replies are handed over by the
callbacks that run.
-/

namespace CallDebugger

variable {ι : Type}

namespace Notice

/-- The reason that is given for the loss of the link. -/
def loss? : Notice ι → Option String
  | .disconnected reason => some reason
  | _ => none

/-- Whether a reply is handed over, to the one who asked or to a watch. -/
def isAnswer : Notice ι → Bool
  | .reply .. | .update .. | .refused .. => true
  | _ => false

/-- Neither tells of a loss nor hands over a reply. -/
def Quiet (n : Notice ι) : Prop := n.loss? = none ∧ n.isAnswer = false

end Notice

/-- A callback hands over the reply, and does nothing else. -/
theorem Callback.notice_spec (c : Callback ι) (r : Reply) :
    (c.notice r).loss? = none ∧ (c.notice r).isAnswer = true := by
  cases c with
  | reply label => exact ⟨rfl, rfl⟩
  | snapshot kind label =>
    simp only [Callback.notice]
    cases r.snapshot kind <;> exact ⟨rfl, rfl⟩

namespace Session

/-- Why a turn loses the link in use. -/
def loss? (s : Session ι) : Turn ι → Option String
  | .next =>
    match s.poll with
    | some (.disconnected reason, _) => some reason
    | some (.message m, s) =>
      match (s.accept m).1 with
      | .ok () => none
      | .error e => some e.message
    | _ => none
  | _ => none

/-- The callback that a turn runs, and the reply for which it runs. -/
def called? (s : Session ι) : Turn ι → Option (Callback ι × Reply)
  | .next =>
    match s.poll with
    | some (.message (.reply reply), _) =>
      (s.requests.answer reply).1.map fun callback => (callback, reply)
    | _ => none
  | _ => none

/-- A turn gives up the link in use: its owner asks for that or for another link, or it is lost. -/
def GivesUp (s : Session ι) (t : Turn ι) : Prop :=
  t = .disconnect ∨ t.adopts ≠ [] ∨ (s.loss? t).isSome = true

/-- What a turn tells the owner, and what it does with the link in use. -/
structure Account (s : Session ι) (t : Turn ι) (s' : Session ι) (told : List (Notice ι)) :
    Prop where
  log : s'.log = s.log ++ told
  losses : told.filterMap Notice.loss? = (s.loss? t).toList
  answers : told.filter Notice.isAnswer =
    ((s.called? t).map fun called => called.1.notice called.2).toList
  keeps : s.link.isSome = true → ¬ s.GivesUp t → s'.link.isSome = true ∧ s'.retired = s.retired
  gives : s.link.isSome = true → s.GivesUp t →
    ∃ l, l.aborted = true ∧ s'.retired = s.retired ++ [l]
  lost : (s.loss? t).isSome = true → s'.link = none

/-- The owner is told nothing of a loss or of a reply. -/
def Murmurs (s s' : Session ι) : Prop :=
  ∃ told : List (Notice ι), s'.log = s.log ++ told ∧ ∀ n ∈ told, n.Quiet

variable {s s₁ s' : Session ι} {t : Turn ι}

theorem murmurs_of_log (log : s'.log = s.log) : Murmurs s s' :=
  ⟨[], by rw [log, List.append_nil], by simp⟩

theorem Murmurs.tell (h : Murmurs s s') {n : Notice ι} (quiet : n.Quiet) :
    Murmurs s (s'.tell n) := by
  obtain ⟨told, log, quiets⟩ := h
  refine ⟨told ++ [n], ?_, ?_⟩
  · rw [Session.tell, log, List.append_assoc]
  · intro m mem
    rcases List.mem_append.1 mem with mem | mem
    · exact quiets m mem
    · rw [List.mem_singleton.1 mem]
      exact quiet

theorem murmurs_disconnect (s : Session ι) : Murmurs s s.disconnect := by
  rw [disconnect, dropLink_eq]
  exact (murmurs_of_log rfl).tell ⟨rfl, rfl⟩

theorem Murmurs.connectWith (h : Murmurs s s₁) (link : Link) : Murmurs s (s₁.connectWith link) := by
  obtain ⟨told, log, quiets⟩ := h
  unfold Session.connectWith
  split
  · obtain ⟨more, log', quiets'⟩ := murmurs_disconnect s₁
    refine ⟨told ++ more, ?_, ?_⟩
    · rw [← List.append_assoc, ← log, ← log']
    · intro n mem
      exact (List.mem_append.1 mem).elim (quiets n) (quiets' n)
  · exact ⟨told, log, quiets⟩

theorem murmurs_store (s : Session ι) (t : Turn ι) : Murmurs s (s.store t) := by
  apply murmurs_of_log
  cases t <;> rfl

theorem murmurs_refuse (s : Session ι) (l : Link) (t : Turn ι) : Murmurs s (s.refuse l t) := by
  apply murmurs_of_log
  cases t <;> rfl

theorem murmurs_grant (s : Session ι) (l : Link) (t : Turn ι) : Murmurs s (s.grant l t) := by
  cases t with
  | goOn | step | interrupt => exact (murmurs_of_log rfl).tell ⟨rfl, rfl⟩
  | _ => exact murmurs_of_log rfl

theorem murmurs_unsubscribe (s : Session ι) (id : WatchId) : Murmurs s (s.unsubscribe id).2 := by
  apply murmurs_of_log
  unfold unsubscribe
  rfl

/-! ## The ways in which a turn goes -/

/-- What turns tell that neither lose the link nor run a callback. -/
theorem quiet_told {told : List (Notice ι)} (quiet : ∀ n ∈ told, n.Quiet) :
    told.filterMap Notice.loss? = [] ∧ told.filter Notice.isAnswer = [] := by
  constructor
  · rw [List.filterMap_eq_nil_iff]
    intro n mem
    exact (quiet n mem).1
  · rw [List.filter_eq_nil_iff]
    intro n mem
    rw [(quiet n mem).2]
    exact Bool.false_ne_true

/-- A turn that keeps the link in use. -/
theorem account_held {told : List (Notice ι)} (kind : t ≠ .disconnect ∧ t.adopts = [])
    (loss : s.loss? t = none) (link : s.link.isSome = true → s'.link.isSome = true)
    (retired : s'.retired = s.retired) (log : s'.log = s.log ++ told)
    (losses : told.filterMap Notice.loss? = [])
    (answers : told.filter Notice.isAnswer =
      ((s.called? t).map fun called => called.1.notice called.2).toList) :
    Account s t s' told := by
  refine ⟨log, by rw [losses, loss]; rfl, answers, ?_, ?_, by simp [loss]⟩
  · intro linked _
    exact ⟨link linked, retired⟩
  · rintro _ (asked | other | lost)
    · exact absurd asked kind.1
    · exact absurd kind.2 other
    · simp [loss] at lost

/-- A turn that keeps the link in use and runs no callback. -/
theorem account_kept (kind : t ≠ .disconnect ∧ t.adopts = []) (loss : s.loss? t = none)
    (called : s.called? t = none) (link : s.link.isSome = true → s'.link.isSome = true)
    (retired : s'.retired = s.retired) (murmurs : Murmurs s s') : ∃ told, Account s t s' told := by
  obtain ⟨told, log, quiet⟩ := murmurs
  obtain ⟨losses, answers⟩ := quiet_told quiet
  exact ⟨told, account_held kind loss link retired log losses (by rw [answers, called]; rfl)⟩

/-- A turn by which the owner gives up the link in use. -/
theorem account_given (kind : t = .disconnect ∨ t.adopts ≠ [])
    (retired : s'.retired = s.retired ++ (s.link.map Link.abort).toList) (murmurs : Murmurs s s') :
    ∃ told, Account s t s' told := by
  have loss : s.loss? t = none := by cases t <;> simp_all [loss?, Turn.adopts]
  have called : s.called? t = none := by cases t <;> simp_all [called?, Turn.adopts]
  obtain ⟨told, log, quiet⟩ := murmurs
  obtain ⟨losses, answers⟩ := quiet_told quiet
  refine ⟨told, log, by rw [losses, loss]; rfl, by rw [answers, called]; rfl, ?_, ?_,
    by simp [loss]⟩
  · intro _ held
    exact absurd (kind.imp_right .inl) held
  · intro linked _
    obtain ⟨l, linked⟩ := Option.isSome_iff_exists.1 linked
    refine ⟨l.abort, rfl, ?_⟩
    rw [retired, linked]
    rfl

/-- A turn that loses the link in use. -/
theorem account_lost {l : Link} {reason : String} (loss : s.loss? .next = some reason)
    (called : s.called? .next = none) (linked : s₁.link = some l)
    (retired : s₁.retired = s.retired) (murmurs : Murmurs s s₁) :
    ∃ told, Account s .next (s₁.lose reason) told := by
  have links := link_lose linked reason
  obtain ⟨told, log, quiet⟩ := murmurs
  obtain ⟨losses, answers⟩ := quiet_told quiet
  refine ⟨told ++ [.disconnected reason], ?_, ?_, ?_, ?_, ?_, fun _ => links.1⟩
  · rw [lose_of_link linked, ← List.append_assoc, ← log]
    rfl
  · rw [List.filterMap_append, losses, loss]
    rfl
  · rw [List.filter_append, answers, called]
    rfl
  · intro _ held
    exact absurd (.inr (.inr (by rw [loss]; rfl))) held
  · intro _ _
    exact ⟨l.abort, rfl, by rw [links.2, retired]⟩

/-! ## What decides -/

/-- Only a link in use can be lost. -/
theorem isSome_link_of_loss (lost : (s.loss? t).isSome = true) : s.link.isSome = true := by
  cases t with
  | next =>
    cases linked : s.link with
    | none => simp [loss?, poll, linked] at lost
    | some l => rfl
  | _ => simp [loss?] at lost

theorem quiet_of_command (command : t.isCommand = true) :
    (t ≠ .disconnect ∧ t.adopts = []) ∧ s.loss? t = none ∧ s.called? t = none := by
  cases t <;> simp_all [Turn.isCommand, Turn.adopts, loss?, called?]

variable {l l' : Link}

/-- An event that changes nothing loses nothing. -/
theorem quiet_of_notice {e : LinkEvent} {n : Notice ι} (linked : s.link = some l)
    (polled : l.poll = some (e, l')) (told : notice? e = some n) :
    s.loss? .next = none ∧ s.called? .next = none ∧ n.Quiet := by
  rw [loss?, called?, poll_of_event linked polled]
  cases e <;> simp only [notice?, Option.some.injEq, reduceCtorEq] at told
  all_goals
    subst told
    exact ⟨rfl, rfl, rfl, rfl⟩

/-- A message that is no reply runs no callback, and loses the link if it is not accepted. -/
theorem loss_of_message {m : Message} (linked : s.link = some l)
    (polled : l.poll = some (.message m, l')) (kind : m.kind ≠ .reply) :
    s.loss? .next =
        (match (({ s with link := some l' } : Session ι).accept m).1 with
        | .ok () => none
        | .error e => some e.message) ∧
      s.called? .next = none := by
  rw [loss?, called?, poll_of_event linked polled]
  refine ⟨rfl, ?_⟩
  cases m <;> simp_all [Message.kind]

theorem kind_of_rejects {m : Message} {e : SessionError} (rejection : s.rejects? m = some e) :
    m.kind ≠ .reply := by
  cases m <;> simp_all [rejects?, Message.kind]

/-- What accepting a pause comes to. -/
theorem accept_paused (linked : s.link = some l) (connected : s.isConnected = true)
    (pause : Pause) :
    (s.accept (.paused pause)).1 =
      match l.offer s.announcement with
      | (some e, _) => .error (.link e)
      | (none, l₁) =>
        match (Watches.query s.watches.live s.requests l₁).1 with
        | .error e => .error (.link e)
        | .ok () => .ok () := by
  simp only [accept, acceptBreak, demandConnected_of connected]
  rcases offered : l.offer s.announcement with ⟨_ | e, l₁⟩
  · simp only [sync_of_link linked offered, refresh, Watches.refresh, tell]
    rcases Watches.query s.watches.live s.requests l₁ with ⟨e | ⟨⟨⟩⟩, requests, l'⟩ <;> rfl
  · simp only [sync_of_link linked offered]

/-- What accepting a pause comes to, when the next event is one. -/
theorem loss_of_paused {pause : Pause} (linked : s.link = some l)
    (polled : l.poll = some (.message (.paused pause), l')) (connected : s.isConnected = true) :
    s.loss? .next =
        (match l'.offer s.announcement with
        | (some e, _) => some e.message
        | (none, l₁) =>
          match (Watches.query s.watches.live s.requests l₁).1 with
          | .error e => some e.message
          | .ok () => none) ∧
      s.called? .next = none := by
  have accepted := accept_paused (s := { s with link := some l' }) rfl connected pause
  obtain ⟨loss, called⟩ := loss_of_message linked polled (by simp [Message.kind])
  refine ⟨?_, called⟩
  have same : ({ s with link := some l' } : Session ι).announcement = s.announcement := rfl
  rw [loss, accepted, same]
  rcases l'.offer s.announcement with ⟨_ | e, l₁⟩
  · simp only
    cases (Watches.query s.watches.live s.requests l₁).1 with
    | error e => rfl
    | ok => rfl
  · rfl

/-- A reply is handed over to the one who waits for it. -/
theorem account_replied {reply : Reply} (linked : s.link = some l)
    (polled : l.poll = some (.message (.reply reply), l')) :
    ∃ told, Account s .next (({ s with link := some l' } : Session ι).acceptReply reply) told := by
  have event := poll_of_event linked polled
  have loss : s.loss? .next = none := by rw [loss?, event]; rfl
  have called : s.called? .next =
      (s.requests.answer reply).1.map fun callback => (callback, reply) := by
    rw [called?, event]
  rw [acceptReply_eq]
  refine ⟨_, account_held (by simp [Turn.adopts]) loss (fun _ => rfl) rfl rfl ?_ ?_⟩
  · cases (s.requests.answer reply).1 with
    | none => rfl
    | some callback => simp [(callback.notice_spec reply).1]
  · rw [called]
    cases (s.requests.answer reply).1 with
    | none => rfl
    | some callback => simp [(callback.notice_spec reply).2]

/-! ## Every turn -/

/-- **What a turn tells and keeps.** -/
theorem Effect.account (effect : Effect s t s') : ∃ told, Account s t s' told := by
  have still : Murmurs s s := murmurs_of_log rfl
  have plain : (Turn.next : Turn ι) ≠ .disconnect ∧ (Turn.next : Turn ι).adopts = [] := by
    simp [Turn.adopts]
  cases effect with
  | connect endpoint link =>
    have murmurs : Murmurs s (s.connect endpoint link) :=
      (still.tell (n := .status _) ⟨rfl, rfl⟩).connectWith link
    exact account_given (.inr (by simp [Turn.adopts])) (link_connectWith _ link).2 murmurs
  | connectWith link =>
    exact account_given (.inr (by simp [Turn.adopts])) (link_connectWith s link).2
      (still.connectWith link)
  | disconnect => exact account_given (.inl rfl) s.link_disconnect.2 s.murmurs_disconnect
  | register | unregister | subscribe =>
    exact account_kept (by simp [Turn.adopts]) rfl rfl id rfl (murmurs_of_log rfl)
  | unsubscribe id =>
    have links := s.link_unsubscribe id
    exact account_kept (by simp [Turn.adopts]) rfl rfl (by rw [links.1]; exact fun h => h) links.2
      (s.murmurs_unsubscribe id)
  | arrive events =>
    have link : s.link.isSome = true → (s.arrive events).link.isSome = true := by
      simp [Session.arrive]
    exact account_kept (by simp [Turn.adopts]) rfl rfl link rfl (murmurs_of_log rfl)
  | declined command nothing =>
    obtain ⟨kind, loss, called⟩ := quiet_of_command (s := s) command
    exact account_kept kind loss called (by rw [link_store]; exact id) (retired_store s t)
      (s.murmurs_store t)
  | @refused _ m l l' e linked offered refusal =>
    obtain ⟨kind, loss, called⟩ := quiet_of_command (s := s) (isCommand_of_offers offered)
    have links := link_refuse s l' t
    exact account_kept kind loss called (by simp [links.1]) links.2 (s.murmurs_refuse l' t)
  | @granted _ m l l' linked offered sent =>
    obtain ⟨kind, loss, called⟩ := quiet_of_command (s := s) (isCommand_of_offers offered)
    have links := link_grant s l' t
    exact account_kept kind loss called (by simp [links.1]) links.2 (s.murmurs_grant l' t)
  | idle nothing =>
    exact account_kept plain (by simp [loss?, nothing]) (by simp [called?, nothing]) id rfl still
  | noticed linked polled told =>
    obtain ⟨loss, called, quiet⟩ := quiet_of_notice linked polled told
    exact account_kept plain loss called (fun _ => rfl) rfl
      (Murmurs.tell (murmurs_of_log rfl) quiet)
  | ended linked polled =>
    have event := poll_of_event linked polled
    exact account_lost (by simp [loss?, event]) (by simp [called?, event]) rfl rfl
      (murmurs_of_log rfl)
  | rejected linked polled rejection =>
    obtain ⟨loss, called⟩ := loss_of_message linked polled (kind_of_rejects rejection)
    rw [accept_of_rejects (by exact rejection)] at loss
    exact account_lost loss called rfl rfl (murmurs_of_log rfl)
  | @greeted name l l' linked polled phase =>
    obtain ⟨loss, called⟩ := loss_of_message linked polled (by simp [Message.kind])
    have here : ({ s with link := some l' } : Session ι).phase = .connecting := phase
    simp only [accept, acceptHello, demand_of_eq here (by decide)] at loss
    exact account_kept plain loss called (fun _ => rfl) rfl
      (((murmurs_of_log rfl).tell (n := .connected name) ⟨rfl, rfl⟩).tell
        (n := .status _) ⟨rfl, rfl⟩)
  | unsynced linked polled connected refusal =>
    obtain ⟨loss, called⟩ := loss_of_paused linked polled connected
    rw [refusal] at loss
    exact account_lost loss called rfl rfl (murmurs_of_log rfl)
  | unqueried linked polled connected sent refusal =>
    obtain ⟨loss, called⟩ := loss_of_paused linked polled connected
    simp only [sent, refusal] at loss
    exact account_lost loss called rfl rfl (Murmurs.tell (murmurs_of_log rfl) ⟨rfl, rfl⟩)
  | paused linked polled connected sent queried =>
    obtain ⟨loss, called⟩ := loss_of_paused linked polled connected
    simp only [sent, queried] at loss
    exact account_kept plain loss called (fun _ => rfl) rfl
      (Murmurs.tell (Murmurs.tell (murmurs_of_log rfl) ⟨rfl, rfl⟩) ⟨rfl, rfl⟩)
  | @traced page l l' linked polled connected =>
    obtain ⟨loss, called⟩ := loss_of_message linked polled (by simp [Message.kind])
    have here : ({ s with link := some l' } : Session ι).isConnected = true := connected
    simp only [accept, acceptTrace, demandConnected_of here] at loss
    exact account_kept plain loss called (fun _ => rfl) rfl
      ((murmurs_of_log rfl).tell (n := .trace page) ⟨rfl, rfl⟩)
  | replied linked polled => exact account_replied linked polled

end Session

end CallDebugger
