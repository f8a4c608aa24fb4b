import CallDebugger.Proofs.Duo.Traffic
import Mathlib.Logic.Relation

/-!
# Settings on both sides

Once the session has handled a pause, what it keeps is what the process will keep when all that is
on its way has arrived (`Duo.Agrees`): the first pause makes the session tell everything, and from
then on whatever it changes it tells. So the process pauses at the breakpoints of the session, and
a call that it pauses at is let through only after the session was told of that very call and has
let the process go on (`Duo.settings_agree`).
-/

namespace CallDebugger

variable {ι σ : Type}

namespace Duo

variable {d d' : Duo ι σ}

/-- The process as it will be once all messages that are on their way have been handled in order. -/
def foreseen (d : Duo ι σ) : Peer σ := d.toPeer.foldl (fun p m => p.handle (.message m)) d.peer

/-- The process will keep what the session keeps. -/
structure Agrees (d : Duo ι σ) : Prop where
  settings : d.foreseen.breaks.settings = d.session.settings
  breakpoints : d.foreseen.breaks.breakpoints = d.session.breakpoints

/-- One duo has come from another by steps. -/
def Later (d d' : Duo ι σ) : Prop := Relation.ReflTransGen Step d d'

/-- One duo has come from another by steps while the process was inside the hook before a call. -/
inductive Inside (c : Call) (d : Duo ι σ) : Duo ι σ → Prop where
  | refl (inside : d.peer.inside = some (.call c)) : Inside c d d
  | step {e e' : Duo ι σ} (earlier : Inside c d e) (step : e.Step e')
      (inside : e'.peer.inside = some (.call c)) : Inside c d e'

theorem Reachable.later (h : d.Reachable) (later : d.Later d') : d'.Reachable := by
  induction later with
  | refl => exact h
  | tail _ step ih => exact ih.step step

theorem Inside.later {c : Call} (h : Inside c d d') : d.Later d' := by
  induction h with
  | refl => exact .refl
  | step _ step _ ih => exact ih.tail step

theorem Inside.ends {c : Call} (h : Inside c d d') :
    d.peer.inside = some (.call c) ∧ d'.peer.inside = some (.call c) := by
  induction h with
  | refl inside => exact ⟨inside, inside⟩
  | step _ _ inside ih => exact ⟨ih.1, inside⟩

/-! ## What the process will keep -/

/-- What the process will keep is what it is told last, or what it keeps. -/
theorem Sound.foreseen_eq (h : d.Sound) :
    d.foreseen.breaks.settings =
      (lastTold Message.settings? d.toPeer).getD d.peer.breaks.settings ∧
    d.foreseen.breaks.breakpoints =
      (lastTold Message.breakpoints? d.toPeer).getD d.peer.breaks.breakpoints := by
  have orders : ∀ m ∈ d.toPeer, m.isOrder = true := by
    intro m mem
    rcases List.mem_append.1 mem with mem | mem
    · exact h.calm.orders m mem
    · exact h.orders m mem
  have accepted := Peer.accepted_orders h.calm.lost orders
  exact ⟨accepted.settings, accepted.breakpoints⟩

/-- What the process does changes nothing of what it will keep. -/
theorem Sound.foreseen_act (h : d.Sound) {a : Activity} (sound : (d.act a).Sound) :
    (d.act a).foreseen.breaks.settings = d.foreseen.breaks.settings ∧
    (d.act a).foreseen.breaks.breakpoints = d.foreseen.breaks.breakpoints := by
  obtain ⟨p', handled, sent, ran, acted, peer, split, -⟩ := h.acts a
  rw [sound.foreseen_eq.1, sound.foreseen_eq.2, h.foreseen_eq.1, h.foreseen_eq.2, split, peer,
    getD_lastTold_append, getD_lastTold_append, ← acted.settings, ← acted.breakpoints]
  exact ⟨rfl, rfl⟩

/-- A turn adds what it offers to what the process will be told. -/
theorem Sound.foreseen_take (h : d.Sound) {t : Turn ι} (own : t.isOwn = true) :
    (d.take t).foreseen.breaks.settings =
      (lastTold Message.settings? (d.session.offered t)).getD d.foreseen.breaks.settings ∧
    (d.take t).foreseen.breaks.breakpoints =
      (lastTold Message.breakpoints? (d.session.offered t)).getD d.foreseen.breaks.breakpoints := by
  rw [(h.take own).foreseen_eq.1, (h.take own).foreseen_eq.2, h.foreseen_eq.1, h.foreseen_eq.2,
    h.toPeer_take own, getD_lastTold_append, getD_lastTold_append]
  exact ⟨rfl, rfl⟩

/-! ## Turns of the session -/

/-- The settings go out once: at the first pause. -/
theorem Sound.synced_take (h : d.Sound) {t : Turn ι} (own : t.isOwn = true) :
    (d.take t).session.synced = true ↔
      d.session.synced = true ∨ Play.Pauses ⟨d.session, t⟩ d.session.retired.length := by
  have adopts : t.adopts = [] := by cases t <;> first | rfl | nomatch own
  obtain ⟨l', link', -, -⟩ := (h.take own).linked
  exact ((Session.effect h.consistent.tied t).heard adopts (Option.isSome_of_eq_some link')).2

/-- A turn after the first pause, or at it, leaves the sides in agreement. -/
theorem Sound.agrees_take (h : d.Sound) {t : Turn ι} (own : t.isOwn = true)
    (agrees : d.session.synced = true → d.Agrees)
    (synced : (d.take t).session.synced = true) : (d.take t).Agrees := by
  obtain ⟨settings, breakpoints⟩ := h.foreseen_take own
  have kept := (Session.effect h.consistent.tied t).keeps
  rcases Bool.eq_false_or_eq_true d.session.synced with before | before
  · have agrees := agrees before
    have connected := Session.isConnected_iff.2 (h.consistent.connected_of_synced before)
    have told := Session.lastTold_offered t connected
    constructor
    · rw [settings, agrees.settings, told.1]
      exact kept.1.symm
    · rw [breakpoints, agrees.breakpoints, told.2]
      exact kept.2.symm
  · have pauses : Play.Pauses ⟨d.session, t⟩ d.session.retired.length := by
      rcases (h.synced_take own).1 synced with already | pauses
      · rw [before] at already
        nomatch already
      · exact pauses
    have next : t = .next := pauses.2.choose_spec.1
    have told := Session.lastTold_announcement before _
      (Session.not_tells_queries d.session.watches.live d.session.requests.nextRequest)
    rw [← Session.offered_of_pauses pauses] at told
    rw [next] at kept
    constructor
    · rw [settings, told.1, Option.getD_some, next]
      exact kept.1.symm
    · rw [breakpoints, told.2, Option.getD_some, next]
      exact kept.2.symm

/-! ## The system -/

/-- An arrival has nothing to do with what the sides keep. -/
theorem Agrees.arrival (agrees : d.Agrees) (h : d.Sound) (h' : d'.Sound) (arrival : d.Arrival d') :
    d'.Agrees := by
  obtain ⟨l, session⟩ := arrival.session
  obtain ⟨l', peer⟩ := arrival.peer
  constructor
  · rw [h'.foreseen_eq.1, arrival.toPeer, session, peer]
    exact h.foreseen_eq.1.symm.trans agrees.settings
  · rw [h'.foreseen_eq.2, arrival.toPeer, session, peer]
    exact h.foreseen_eq.2.symm.trans agrees.breakpoints

/-- Every step after the first pause leaves the sides in agreement. -/
theorem Agrees.step (h : d.Sound) (agrees : d.session.synced = true → d.Agrees)
    (step : d.Step d') (synced : d'.session.synced = true) : d'.Agrees := by
  have sound := h.step step
  cases h.passage step with
  | turn t own => exact h.agrees_take own agrees synced
  | activity a allowed =>
    have same := h.foreseen_act sound
    exact ⟨same.1.trans (agrees synced).settings, same.2.trans (agrees synced).breakpoints⟩
  | arrival arrival =>
    obtain ⟨l, session⟩ := arrival.session
    rw [session] at synced
    exact (agrees synced).arrival h sound arrival

theorem Reachable.agrees (h : d.Reachable) (synced : d.session.synced = true) : d.Agrees := by
  induction h with
  | @start adopted s reached t l k adopts =>
    have consistent := reached.consistent.1.after t
    have connected := Session.isConnected_iff.2 (consistent.connected_of_synced synced)
    exact absurd (s.phase_of_adopts adopts) (not_connecting connected)
  | step h step ih => exact Agrees.step h.sound ih step synced

/-- The settings that went out have gone out. -/
theorem Sound.synced_step (h : d.Sound) (step : d.Step d') (synced : d.session.synced = true) :
    d'.session.synced = true := by
  cases step with
  | take t own => exact (h.synced_take own).2 (.inl synced)
  | _ => exact synced

theorem Reachable.synced (h : d.Reachable) (later : d.Later d')
    (synced : d.session.synced = true) : d'.session.synced = true := by
  induction later with
  | refl => exact synced
  | tail earlier step ih => exact (h.later earlier).sound.synced_step step ih

/-- A pause that is handled is accepted. -/
theorem Sound.pauses (h : d.Sound) {pause : Pause} {s : Session ι}
    (polled : d.session.poll = some (.message (.paused pause), s)) :
    Play.Pauses ⟨d.session, .next⟩ d.session.retired.length := by
  obtain ⟨l, l', link, event, -⟩ := Session.poll_eq_some polled
  have first : (messages l.inbox).head? = some (.paused pause) := by
    rw [messages_of_poll event]
    rfl
  have connected : d.session.isConnected = true := by
    have welcome := h.welcome link first
    simp only [Session.rejects?, ite_eq_left_iff, reduceCtorEq] at welcome
    exact Decidable.byContradiction welcome
  exact ⟨connected, pause, rfl, ⟨Option.isSome_of_eq_some link, rfl⟩, s, polled⟩

/-! ## Breakpoints -/

/-- A pause stays announced until the process is let go on. -/
theorem isSome_outstanding_append {ds es : List Deed} (held : (outstanding ds).isSome = true)
    (unreleased : ∀ m, .handled m ∈ es → m.releases = false) :
    (outstanding (ds ++ es)).isSome = true := by
  rw [outstanding_append]
  generalize outstanding ds = announced at held
  induction es generalizing announced with
  | nil => exact held
  | cons e es ih =>
    refine ih (fun m mem => unreleased m (List.mem_cons_of_mem e mem)) _ ?_
    cases e with
    | handled m =>
      rw [Deed.next, unreleased m List.mem_cons_self]
      exact held
    | sent m => cases m <;> first | exact held | rfl
    | ran c => exact held

/-- The hook before a call that is listed fails, or announces the call and waits. -/
theorem Sound.before_of_listed (h : d.Sound) {c : Call}
    (listed : d.peer.pump.2.breaks.breakpoints.contains c.entrypoint = true) :
    ((∃ e, (d.peer.perform (.before c)).1 = some (.error e)) ∧
      (d.act (.before c)).peer.inside = none) ∨
    ((d.peer.perform (.before c)).1 = none ∧ ∃ before pause, pause.call = c ∧
      (d.act (.before c)).deeds = d.deeds ++ before ++ [.sent (.paused pause)]) := by
  obtain ⟨answers, q, pump, attended⟩ := h.calm.pump
  obtain ⟨news, comes⟩ := Peer.comes_before pump attended.calm c
  have hits : q.breaks.hits c.entrypoint = true := by
    rw [pump] at listed
    rw [BreakState.hits, listed, Bool.or_true]
  have acted := attended.acted (comes.follows attended.calm)
  have peer : (d.act (.before c)).peer = (d.peer.perform (.before c)).2 := rfl
  rw [(act_eq acted).2.2.2, peer]
  generalize d.peer.perform (.before c) = performed at comes ⊢
  obtain ⟨r, p'⟩ := performed
  cases comes with
  | ends => exact .inl ⟨⟨_, rfl⟩, rfl⟩
  | stops =>
    refine .inr ⟨rfl, (messages d.peer.link.inbox).map .handled ++ answers.map .sent,
      q.pauseAt c, rfl, ?_⟩
    simp only [Peer.through, List.map_append, List.map_cons, List.map_nil, List.append_nil,
      List.append_assoc]
  | passes _ misses => exact absurd hits misses
  | greets place => exact absurd place (not_or.2 ⟨nofun, nofun⟩)
  | reports report => nomatch report

/-- Deeds are not undone. -/
theorem deeds_step (step : d.Step d') : ∃ new, d'.deeds = d.deeds ++ new := by
  cases step with
  | act a allowed => exact ⟨d.peer.deeds a, rfl⟩
  | _ => exact ⟨[], (List.append_nil _).symm⟩

theorem deeds_later (later : d.Later d') : ∃ new, d'.deeds = d.deeds ++ new := by
  induction later with
  | refl => exact ⟨[], (List.append_nil _).symm⟩
  | tail _ step ih =>
    obtain ⟨earlier, eq⟩ := ih
    obtain ⟨new, eq'⟩ := deeds_step step
    exact ⟨earlier ++ new, by rw [eq', eq, List.append_assoc]⟩

/-- A hook that lets the process through to its call handles an order to go on if a pause is
outstanding. -/
theorem Sound.released_of_through (h : d.Sound) {c : Call} (inside : d.peer.inside = some (.call c))
    (through : (d.peer.perform .wake).1 = some (.ok ()))
    (held : (outstanding d.deeds).isSome = true) :
    ∃ m, .handled m ∈ d.peer.deeds .wake ∧ m.releases = true := by
  have said : d.peer.inside ≠ some .attach := by rw [inside]; nofun
  obtain ⟨handled, answers, q, news, attended, comes⟩ := h.calm.comes .wake
  have acted := attended.acted (comes.follows attended.calm)
  have act := comes.act attended h.keeps nofun said nofun
  have made : Deed.ran c ∈ d.peer.deeds .wake := by
    simp only [Peer.deeds, through, Peer.through, Peer.awaited, inside]
    exact List.mem_append_right _ List.mem_cons_self
  have some : 0 < handled.countP Message.releases := by
    refine Nat.pos_of_ne_zero fun none => ?_
    rw [acted.deeds, ran_nil act none held, List.map_nil, List.append_nil] at made
    exact ran_not_mem handled (answers ++ news) c made
  obtain ⟨m, mem, releases⟩ := List.countP_pos_iff.1 some
  refine ⟨m, ?_, releases⟩
  rw [acted.deeds]
  exact List.mem_append_left _ (List.mem_append_left _ (List.mem_map_of_mem mem))

/-- **The sides agree on the settings.** From the first pause on that the session handles, what is
on its way leaves the process with the settings and the breakpoints of the session, so they are the
same once nothing is on its way. The hook before a call whose breakpoint the process knows when it
looks does not let the process through at once, and when it does, it has announced this very call
and has handled an order to go on since. -/
theorem settings_agree (h : d.Reachable) :
    (∀ pause s d', d.session.poll = some (.message (.paused pause), s) →
      (d.take .next).Later d' →
      d'.Agrees ∧ (d'.toPeer = [] → d'.peer.breaks.settings = d'.session.settings ∧
        d'.peer.breaks.breakpoints = d'.session.breakpoints)) ∧
    (∀ c, d.Allows (.before c) →
      d.peer.pump.2.breaks.breakpoints.contains c.entrypoint = true →
      (d.peer.perform (.before c)).1 ≠ some (.ok ()) ∧
      ∀ d', Inside c (d.act (.before c)) d' → (d'.peer.perform .wake).1 = some (.ok ()) →
        ∃ before pause after, pause.call = c ∧
          (d.act (.before c)).deeds = d.deeds ++ before ++ [.sent (.paused pause)] ∧
          (d'.act .wake).deeds = (d.act (.before c)).deeds ++ after ∧
          ∃ m, .handled m ∈ after ∧ m.releases = true) := by
  constructor
  · intro pause s d' polled later
    have pauses := h.sound.pauses polled
    have handled : (d.take .next).Reachable := h.step (.take .next rfl)
    have first : (d.take .next).session.synced = true := (h.sound.synced_take rfl).2 (.inr pauses)
    have agrees := (handled.later later).agrees (handled.synced later first)
    refine ⟨agrees, fun drained => ?_⟩
    have same : d'.foreseen = d'.peer := by
      rw [foreseen, drained]
      rfl
    rw [← same]
    exact ⟨agrees.settings, agrees.breakpoints⟩
  · intro c allowed listed
    have stops := h.sound.before_of_listed listed
    constructor
    · rcases stops with ⟨⟨e, failed⟩, -⟩ | ⟨waits, -⟩
      · rw [failed]
        nofun
      · rw [waits]
        nofun
    · intro d' inside through
      rcases stops with ⟨-, left⟩ | ⟨-, before, pause, same, announced⟩
      · rw [inside.ends.1] at left
        nomatch left
      · obtain ⟨since, eq⟩ := deeds_later inside.later
        have sound := ((h.step (.act _ allowed)).later inside.later).sound
        have deeds : (d'.act .wake).deeds =
            (d.act (.before c)).deeds ++ (since ++ d'.peer.deeds .wake) := by
          rw [← List.append_assoc, ← eq]
          rfl
        have told : (outstanding (d.act (.before c)).deeds).isSome = true := by
          rw [announced, outstanding_append]
          rfl
        refine ⟨before, pause, _, same, announced, deeds, ?_⟩
        by_cases released : ∃ m, .handled m ∈ since ∧ m.releases = true
        · obtain ⟨m, mem, releases⟩ := released
          exact ⟨m, List.mem_append_left _ mem, releases⟩
        · have held : (outstanding d'.deeds).isSome = true := by
            rw [eq]
            apply isSome_outstanding_append told
            intro m mem
            exact Bool.eq_false_iff.2 fun releases => released ⟨m, mem, releases⟩
          obtain ⟨m, mem, releases⟩ := sound.released_of_through inside.ends.2 through held
          exact ⟨m, List.mem_append_right _ mem, releases⟩

/-- A process is told of a breakpoint at its first pause, and pauses at it before its second
call. -/
theorem settings_agree_second_call :
    ∃ d e f : Duo Unit Exhibition, d.Reachable ∧
      (∃ pause s, d.session.poll = some (.message (.paused pause), s)) ∧ (d.take .next).Later e ∧
      e.toPeer = [] ∧ e.peer.breaks.breakpoints = e.session.breakpoints ∧
      e.Allows (.before default) ∧
      e.peer.pump.2.breaks.breakpoints.contains (default : Call).entrypoint = true ∧
      (e.peer.perform (.before default)).1 ≠ some (.ok ()) ∧
      Inside default (e.act (.before default)) f ∧ (f.peer.perform .wake).1 = some (.ok ()) ∧
      ∃ m, .handled m ∈ (f.act .wake).deeds ∧ m.releases = true := by
  have opened : (Link.withBudget none).Open := ⟨fun _ _ => rfl, rfl⟩
  have start : Reachable _ :=
    .start (ι := Unit) .new (t := .connectWith (.withBudget none)) rfl opened opened rfl rfl
      Exhibition.inspector default 8
  have listed := start.step (.take (.setBreakpoints [(default : Call).entrypoint]) rfl)
  have waiting := listed.step (.act .attach rfl)
  have greeted := (waiting.step (.peerSignal .connected rfl)).step (.act .wake rfl)
  have running := (greeted.step (.inward rfl)).step (.take .next rfl)
  have paused := (running.step (.act (.before default) ⟨rfl, rfl⟩)).step (.inward rfl)
  have handled := paused.step (.take .next rfl)
  -- The runs after the first pause, and inside the second hook.
  have here : ∀ {x : Duo Unit Exhibition}, x.Reachable → x.Later x := fun _ => .refl
  have inside : ∀ {x : Duo Unit Exhibition}, x.Reachable →
      x.peer.inside = some (.call default) → Inside default x x := fun _ => .refl
  have told := ((here handled).tail (.outward rfl)).tail (.outward rfl)
  have freed := ((told.tail (.take .goOn rfl)).tail (.outward rfl)).tail (.act .wake rfl)
  have again := (handled.later freed).step (.act (.before default) ⟨rfl, rfl⟩)
  have stopped := ((inside again rfl).step (.inward rfl) rfl).step (.take .next rfl) rfl
  have released := (stopped.step (.take .goOn rfl) rfl).step (.outward rfl) rfl
  obtain ⟨d, reachable, pause, s, polled, e, later, drained, allowed, known, f, ins, through⟩ :
      ∃ d : Duo Unit Exhibition, d.Reachable ∧
        ∃ pause s, d.session.poll = some (.message (.paused pause), s) ∧
        ∃ e, (d.take .next).Later e ∧ e.toPeer = [] ∧ e.Allows (.before default) ∧
          e.peer.pump.2.breaks.breakpoints.contains (default : Call).entrypoint = true ∧
        ∃ f, Inside default (e.act (.before default)) f ∧
          (f.peer.perform .wake).1 = some (.ok ()) :=
    ⟨_, paused, _, _, rfl, _, freed, rfl, ⟨rfl, rfl⟩, rfl, _, released, rfl⟩
  obtain ⟨agreement, -⟩ := settings_agree reachable
  obtain ⟨-, same⟩ := agreement pause s e polled later
  obtain ⟨-, stops⟩ := settings_agree ((reachable.step (.take .next rfl)).later later)
  obtain ⟨held, goes⟩ := stops default allowed known
  obtain ⟨_, _, after, _, _, deeds, m, mem, releases⟩ := goes f ins through
  exact ⟨d, e, f, reachable, ⟨pause, s, polled⟩, later, drained, (same drained).2, allowed, known,
    held, ins, through, m, deeds ▸ List.mem_append_right _ mem, releases⟩

end Duo

end CallDebugger
