import CallDebugger.Proofs.Duo.Handling

/-!
# What a process does to its session

An activity comes to one of a few things (`Peer.Comes`, `Peer.Calm.comes`), before which the process
has handled and answered all that has arrived, or nothing. So what it sends is answers, and after
them a pause or a greeting at most. Between the greeting and the end it keeps what it owes to an
announced pause (`Peer.Act`, `Peer.Keeps`): while no order to go on has been handled, it is paused
before the announced call, or it was told to exit.
-/

namespace CallDebugger

variable {σ : Type}

/-- The pause that is outstanding after messages were handled. -/
def stillOutstanding (announced : Option Pause) (handled : List Message) : Option Pause :=
  if handled.any Message.releases then none else announced

/-- A pause that is outstanding after messages were handled was so before. -/
theorem eq_of_stillOutstanding {announced : Option Pause} {ms : List Message} {pause : Pause}
    (h : stillOutstanding announced ms = some pause) :
    announced = some pause ∧ ms.any Message.releases = false := by
  unfold stillOutstanding at h
  split at h
  · nomatch h
  · exact ⟨h, Bool.eq_false_iff.2 ‹_›⟩

namespace Peer

variable {p p' q : Peer σ}

/-! ## What activities come to -/

/-- A process that has announced a pause before a call, and waits in it. -/
def stopped (p : Peer σ) (c : Call) : Peer σ :=
  { p with
    breaks := { p.breaks with paused := true, breakNext := false, pendingStep := none }
    link := { p.link with
      attempts := p.link.attempts + 1, sent := p.link.sent ++ [.paused (p.pauseAt c)] }
    inside := some (.call c) }

/-- A process that has said hello. -/
def introduced (p : Peer σ) : Peer σ :=
  { p with
    link := { p.link with
      attempts := p.link.attempts + 1
      sent := p.link.sent ++ [.hello (p.inspector.processName p.objects)] }
    inside := none }

/-- What the activity of a process comes to that goes on from `q`: the result, the process after it,
and what it sends beside its answers. -/
inductive Comes (p q : Peer σ) : Activity → Outcome → Peer σ → List Message → Prop where
  /-- The hook that waits goes on waiting. -/
  | rests : Comes p q .wake none q []
  /-- It was told to exit. -/
  | ends {a : Activity} (ending : q.terminating = true) :
      Comes p q a (some (.error .terminateRequested)) { q with inside := none } []
  | greets {a : Activity} (place : a = .attach ∨ (a = .wake ∧ p.inside = some .attach)) :
      Comes p q a (some (.ok ())) q.introduced [.hello (q.inspector.processName q.objects)]
  | awaits : Comes p q .attach none { q with inside := some .attach } []
  | stops {c : Call} (staying : ¬ q.terminating = true) (hits : q.breaks.hits c.entrypoint = true) :
      Comes p q (.before c) none (q.stopped c) [.paused (q.pauseAt c)]
  | passes {c : Call} (staying : ¬ q.terminating = true)
      (misses : ¬ q.breaks.hits c.entrypoint = true) :
      Comes p q (.before c) (some (.ok ())) (q.permitted c) []
  | goesOn {c : Call} (inside : p.inside = some (.call c)) (going : ¬ q.breaks.paused = true) :
      Comes p q .wake (some (.ok ())) (q.permitted c) []
  | reports {a : Activity} {r : Outcome} {history : History} {breaks : BreakState}
      (report : a.isReport = true) (warned : Warned q.breaks breaks) :
      Comes p q a r { q with history, breaks } []

theorem Checked.ends {e : PeerError} (checked : q.Checked (.error e) p') (up : q.lost = none) :
    e = .terminateRequested ∧ p' = q ∧ q.terminating = true := by
  cases checked with
  | gone lost =>
    rw [up] at lost
    nomatch lost
  | told up ending => exact ⟨rfl, rfl, ending⟩

theorem Checked.stays (checked : q.Checked (.ok ()) p') : ¬ q.terminating = true := by
  cases checked with
  | free up staying => exact Bool.eq_false_iff.1 staying

/-- The hook before a call, once what had arrived is handled. -/
theorem Begins.comes {c : Call} {r : Outcome} (begins : q.Begins c r p') (calm : q.Calm) :
    ∃ news, p.Comes q (.before c) r p' news := by
  cases begins with
  | barred barred =>
    obtain ⟨rfl, rfl, ending⟩ := barred.ends calm.lost
    exact ⟨_, .ends ending⟩
  | passes free misses => exact ⟨_, .passes free.stays (Bool.eq_false_iff.1 misses)⟩
  | unannounced _ _ refused => exact absurd refused (Link.send_ne_error_of_open calm.opened)
  | stops free hits taken =>
    rw [Link.send_of_open calm.opened] at taken
    cases taken
    exact ⟨_, .stops free.stays hits⟩

theorem comes_before (pump : p.pump = (.ok (), q)) (calm : q.Calm) (c : Call) :
    ∃ news, p.Comes q (.before c) (p.perform (.before c)).1 (p.perform (.before c)).2 news := by
  obtain ⟨r, p', performs, begins⟩ := begins_beforeCall pump c
  rw [perform, performs]
  exact begins.comes calm

/-- The hook that waits, once what had arrived is handled. -/
theorem Resumes.comes {hook : Hook} {r : Outcome} (resumes : q.Resumes hook r p') (calm : q.Calm)
    (inside : p.inside = some hook) : ∃ news, p.Comes q .wake r p' news := by
  cases resumes with
  | barred barred =>
    obtain ⟨rfl, rfl, ending⟩ := barred.ends calm.lost
    exact ⟨_, .ends ending⟩
  | waits | rests => exact ⟨_, .rests⟩
  | ungreeted _ refused => exact absurd refused (Link.send_ne_error_of_open calm.opened)
  | greets free taken =>
    rw [Link.send_of_open calm.opened] at taken
    cases taken
    exact ⟨_, .greets (.inr ⟨rfl, inside⟩)⟩
  | goesOn free going => exact ⟨_, .goesOn inside (Bool.eq_false_iff.1 going)⟩

/-- A process begins to wait for a controller. -/
theorem comes_attach (calm : p.Calm) :
    ∃ news, p.Comes p .attach (p.perform .attach).1 (p.perform .attach).2 news := by
  obtain ⟨r, p', performs, resumes⟩ := p.resumes_waitForController
  rw [perform, performs]
  generalize elsewhere : { p with inside := some Hook.attach } = q at resumes
  cases resumes with
  | barred barred =>
    subst elsewhere
    obtain ⟨rfl, rfl, ending⟩ := barred.ends calm.lost
    exact ⟨_, .ends ending⟩
  | waits =>
    subst elsewhere
    exact ⟨_, .awaits⟩
  | ungreeted _ refused =>
    subst elsewhere
    exact absurd refused (Link.send_ne_error_of_open calm.opened)
  | greets free taken =>
    subst elsewhere
    rw [Link.send_of_open calm.opened] at taken
    cases taken
    exact ⟨_, .greets (.inl rfl)⟩

/-- The hook after a call changes the history and what makes the process pause, no more. -/
theorem comes_after (up : p.lost = none) (result : Option Value) (error : UInt32)
    (output : Option String) :
    p.Comes p (.after result error output) (p.perform (.after result error output)).1
      (p.perform (.after result error output)).2 [] := by
  obtain ⟨breaks, r, p', warned, performs, checked⟩ := p.checked_afterCall result error output
  have same : p' = { p with history := p.history.returned result error output, breaks } := by
    cases checked with
    | gone lost =>
      have lost : p.lost = some _ := lost
      rw [up] at lost
      nomatch lost
    | told | free => rfl
  rw [perform, performs, same]
  exact .reports rfl warned

/-- **What an activity comes to.** The process goes on from what it was, or from what it is once it
has handled and answered what had arrived. -/
theorem Calm.comes (calm : p.Calm) (a : Activity) : ∃ handled answers q news,
    p.Attended handled answers q ∧ p.Comes q a (p.perform a).1 (p.perform a).2 news := by
  obtain ⟨answers, q, pump, attended⟩ := calm.pump
  cases a with
  | attach =>
    obtain ⟨news, comes⟩ := comes_attach calm
    exact ⟨[], [], p, news, calm.attended_nil, comes⟩
  | before c =>
    obtain ⟨news, comes⟩ := comes_before pump attended.calm c
    exact ⟨_, answers, q, news, attended, comes⟩
  | after result error output =>
    exact ⟨[], [], p, [], calm.attended_nil, comes_after calm.lost result error output⟩
  | compilerError =>
    exact ⟨[], [], p, [], calm.attended_nil, .reports rfl (warned_reportCompilerError p.breaks)⟩
  | wake =>
    obtain ⟨r, p', performs, continues⟩ := p.continues_wake
    rw [perform, performs]
    cases continues with
    | idle => exact ⟨[], [], p, [], calm.attended_nil, .rests⟩
    | torn _ down => cases calm.opened.up.symm.trans down
    | unanswered _ _ fails => cases pump.symm.trans fails
    | resumes inside _ answered resumes =>
      cases pump.symm.trans answered
      obtain ⟨news, comes⟩ := resumes.comes attended.calm inside
      exact ⟨_, answers, q, news, attended, comes⟩

/-! ## What it takes and sends -/

/-- A process that goes on from `q` is what it was as to messages, but that it may have sent some
that are not replies. -/
structure Follows (q : Peer σ) (news : List Message) (p' : Peer σ) : Prop where
  calm : p'.Calm
  inbox : p'.link.inbox = q.link.inbox
  sent : p'.link.sent = q.link.sent ++ news
  silent : news.filterMap Message.reply? = []
  settings : p'.breaks.settings = q.breaks.settings
  breakpoints : p'.breaks.breakpoints = q.breaks.breakpoints

theorem Comes.follows {a : Activity} {r : Outcome} {news : List Message}
    (comes : p.Comes q a r p' news) (calm : q.Calm) : q.Follows news p' := by
  have opened : ∀ n sent, ({ q.link with attempts := n, sent } : Link).Open :=
    fun _ _ => ⟨calm.opened.takes, calm.opened.up⟩
  have same : q.link.sent = q.link.sent ++ [] := (List.append_nil _).symm
  cases comes with
  | rests => exact ⟨calm, rfl, same, rfl, rfl, rfl⟩
  | ends | awaits | passes | goesOn =>
    exact ⟨⟨calm.opened, calm.lasting, calm.orders, calm.lost, calm.outbox⟩, rfl, same, rfl, rfl,
      rfl⟩
  | greets | stops =>
    exact ⟨⟨opened _ _, calm.lasting, calm.orders, calm.lost, calm.outbox⟩, rfl, rfl, rfl, rfl,
      rfl⟩
  | reports _ warned =>
    exact ⟨⟨calm.opened, calm.lasting, calm.orders, calm.lost, calm.outbox⟩, rfl, same, rfl,
      warned.settings, warned.breakpoints⟩

/-- What an activity takes from the link, puts on it, and lets through, and what the process makes
of what it takes. -/
structure Acted (p : Peer σ) (a : Activity) (p' : Peer σ) (handled sent : List Message)
    (ran : List Call) : Prop where
  next : (p.perform a).2 = p'
  calm : p'.Calm
  handles : messages p.link.inbox = handled ++ messages p'.link.inbox
  sends : p'.link.sent = p.link.sent ++ sent
  deeds : p.deeds a = handled.map .handled ++ sent.map .sent ++ ran.map .ran
  settings : p'.breaks.settings = (lastTold Message.settings? handled).getD p.breaks.settings
  breakpoints : p'.breaks.breakpoints =
    (lastTold Message.breakpoints? handled).getD p.breaks.breakpoints
  replies : sent.filterMap Message.reply? = p.inspector.replies p.objects handled

theorem Attended.acted {a : Activity} {handled answers news : List Message}
    (attended : p.Attended handled answers q) (follows : q.Follows news (p.perform a).2) :
    p.Acted a (p.perform a).2 handled (answers ++ news)
      (through (p.awaited a) (p.perform a).1) where
  next := rfl
  calm := follows.calm
  handles := by rw [follows.inbox, attended.handles]
  sends := by rw [follows.sent, attended.sends, List.append_assoc]
  deeds := by
    have sends : (p.perform a).2.link.sent = p.link.sent ++ (answers ++ news) := by
      rw [follows.sent, attended.sends, List.append_assoc]
    simp only [deeds, follows.inbox, attended.gone, sends, List.drop_left]
  settings := follows.settings.trans attended.settings
  breakpoints := follows.breakpoints.trans attended.breakpoints
  replies := by
    rw [List.filterMap_append, follows.silent, List.append_nil, attended.answering.replies]

/-! ## Hooks -/

/-- The process is held at the pause that is outstanding. -/
def Keeps (p : Peer σ) (announced : Option Pause) : Prop :=
  ∀ pause, announced = some pause →
    p.breaks.paused = true ∧ (p.inside = some (.call pause.call) ∨ p.terminating = true)

/-- What a hook makes of a process whose outstanding pause is `announced`: the messages that it
handles, those that it sends, and the call that it lets through. -/
inductive Act (announced : Option Pause) (p' : Peer σ) :
    List Message → List Message → List Call → Prop where
  | quiet {handled sent : List Message} {ran : List Call}
      (answers : ∀ m ∈ sent, m.isAnswer = true)
      (keeps : p'.Keeps (stillOutstanding announced handled))
      (held : (stillOutstanding announced handled).isSome = true → ran = [])
      (inside : p'.inside ≠ some .attach) : Act announced p' handled sent ran
  | announces {handled answers : List Message} {pause : Pause}
      (kind : ∀ m ∈ answers, m.isAnswer = true)
      (free : stillOutstanding announced handled = none)
      (keeps : p'.Keeps (some pause)) (inside : p'.inside ≠ some .attach) :
      Act announced p' handled (answers ++ [.paused pause]) []

variable {announced : Option Pause} {a : Activity} {r : Outcome}
  {handled answers news : List Message}

/-- Handling orders, a process stays held as long as none of them lets it go on. -/
theorem Heeded.held (heeded : p.Heeded handled q) (keeps : p.Keeps announced) {pause : Pause}
    (still : stillOutstanding announced handled = some pause) :
    q.breaks.paused = true ∧ (p.inside = some (.call pause.call) ∨ q.terminating = true) := by
  obtain ⟨before, none⟩ := eq_of_stillOutstanding still
  obtain ⟨paused, place⟩ := keeps pause before
  refine ⟨by rw [heeded.paused, paused, none]; rfl, place.imp id fun ending => ?_⟩
  rw [heeded.terminating, ending, Bool.true_or]

theorem Heeded.keeps (heeded : p.Heeded handled q) (keeps : p.Keeps announced) :
    q.Keeps (stillOutstanding announced handled) := by
  intro pause still
  rw [heeded.inside]
  exact heeded.held keeps still

/-- Outside a hook, only a process that was told to exit is held. -/
theorem Heeded.free_of_outside (heeded : p.Heeded handled q) (keeps : p.Keeps announced)
    (outside : p.inside = none) (staying : ¬ q.terminating = true) :
    stillOutstanding announced handled = none := by
  refine Option.eq_none_iff_forall_ne_some.2 fun pause still => ?_
  rcases (heeded.held keeps still).2 with place | ending
  · rw [outside] at place
    nomatch place
  · exact staying ending

/-- A process that is not paused has been let go on. -/
theorem Heeded.free_of_going (heeded : p.Heeded handled q) (keeps : p.Keeps announced)
    (going : ¬ q.breaks.paused = true) : stillOutstanding announced handled = none :=
  Option.eq_none_iff_forall_ne_some.2 fun _ still => going (heeded.held keeps still).1

/-- **What a hook does.** -/
theorem Comes.act (comes : p.Comes q a r p' news) (attended : p.Attended handled answers q)
    (keeps : p.Keeps announced) (hook : a ≠ .attach) (said : p.inside ≠ some .attach)
    (outside : ∀ c, a = .before c → p.inside = none) :
    Act announced p' handled (answers ++ news) (through (p.awaited a) r) := by
  have kind := attended.answering.kind
  rw [← List.append_nil answers] at kind
  have permits : ∀ {ran : List Call}, stillOutstanding announced handled = none →
      ∀ c, Act announced (q.permitted c) handled (answers ++ []) ran := by
    intro ran free c
    refine .quiet kind ?_ ?_ nofun <;> rw [free]
    · exact fun _ still => nomatch still
    · exact fun held => nomatch held
  cases comes with
  | rests =>
    exact .quiet kind (attended.keeps keeps) (fun _ => rfl) (attended.inside ▸ said)
  | ends ending =>
    refine .quiet kind ?_ (fun _ => rfl) nofun
    exact fun pause still => ⟨(attended.held keeps still).1, .inr ending⟩
  | greets place => exact absurd place (not_or.2 ⟨hook, fun place => said place.2⟩)
  | awaits => exact absurd rfl hook
  | @stops c staying hits =>
    have free := attended.free_of_outside keeps (outside c rfl) staying
    refine .announces attended.answering.kind free ?_ nofun
    intro pause eq
    cases eq
    exact ⟨rfl, .inl rfl⟩
  | @passes c staying => exact permits (attended.free_of_outside keeps (outside c rfl) staying) c
  | goesOn inside going => exact permits (attended.free_of_going keeps going) _
  | @reports _ r history breaks report warned =>
    refine .quiet kind ?_ (fun _ => ?_) (attended.inside ▸ said)
    · intro pause still
      have held := attended.keeps keeps pause still
      exact ⟨warned.paused.trans held.1, held.2⟩
    · cases a with
      | after | compilerError => rcases r with _ | _ | ⟨⟨⟩⟩ <;> rfl
      | attach | before | wake => nomatch report

/-! ## The greeting -/

/-- What becomes of a process that waits for a controller, and what it sends. -/
inductive Await (p' : Peer σ) : List Message → Prop where
  | waits (inside : p'.inside = some .attach) (staying : p'.terminating = false) : Await p' []
  | greets {name : String} (inside : p'.inside = none) : Await p' [.hello name]

/-- What becomes of a process that waits for a controller, to which nothing was said. -/
theorem Comes.await (comes : p.Comes q a r p' news) (attended : p.Attended handled answers q)
    (untold : messages p.link.inbox = []) (staying : p.terminating = false)
    (place : a = .attach ∨ (a = .wake ∧ p.inside = some .attach)) :
    handled = [] ∧ answers = [] ∧ through (p.awaited a) r = [] ∧ p'.Await news := by
  have none : handled = [] := by
    have handles := attended.handles
    rw [untold] at handles
    exact (List.append_eq_nil_iff.1 handles.symm).1
  have staying : q.terminating = false := by
    rw [attended.terminating, staying, none]
    rfl
  have idle : p.awaited a = [] := by
    rcases place with rfl | ⟨rfl, inside⟩
    · rfl
    · simp only [awaited, inside]
  refine ⟨none, attended.answering.none none, ?_, ?_⟩
  · rw [idle]
    rcases r with _ | _ | ⟨⟨⟩⟩ <;> rfl
  · cases comes with
    | rests =>
      have inside := (place.resolve_left nofun).2
      exact .waits (attended.inside.trans inside) staying
    | ends ending =>
      rw [staying] at ending
      nomatch ending
    | greets => exact .greets rfl
    | awaits => exact .waits rfl staying
    | stops | passes => exact absurd place (not_or.2 ⟨nofun, nofun⟩)
    | goesOn inside =>
      have waiting := (place.resolve_left nofun).2
      rw [inside] at waiting
      nomatch waiting
    | reports report => rcases place with rfl | ⟨rfl, _⟩ <;> nomatch report

end Peer

end CallDebugger
