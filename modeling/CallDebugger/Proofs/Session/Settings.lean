import CallDebugger.Proofs.Session.Plays

/-!
# When settings and breakpoints go out

On each link a session is silent up to the hello. At the first pause it tells the settings and the
breakpoints before anything else, at later pauses it tells neither, and otherwise only a command
that changes them does (`Play.Lawful`). So a link that refuses nothing has been told last what the
session keeps (`Session.settings_told`), for as long as it is in use: what is changed after a link
was given up waits for the next one.
-/

namespace CallDebugger

variable {ι : Type}

namespace Message

/-- The settings that a message tells. -/
def settings? : Message → Option BreakSettings
  | .configuration settings => some settings
  | _ => none

/-- The breakpoints that a message tells. -/
def breakpoints? : Message → Option Breakpoints
  | .breakpoints es => some es
  | _ => none

/-- A message that tells settings or breakpoints. -/
def TellsSettings (m : Message) : Prop := m.settings?.isSome = true ∨ m.breakpoints?.isSome = true

end Message

/-- The last of what messages tell. -/
def lastTold {α : Type} (read : Message → Option α) (ms : List Message) : Option α :=
  (ms.filterMap read).getLast?

theorem lastTold_append {α : Type} (read : Message → Option α) (ms ns : List Message) :
    lastTold read (ms ++ ns) = (lastTold read ns).or (lastTold read ms) := by
  rw [lastTold, List.filterMap_append, List.getLast?_append]
  rfl

/-- What was kept before is replaced by what is told last. -/
theorem getD_lastTold_append {α : Type} (read : Message → Option α) (ms ns : List Message)
    (a : α) :
    (lastTold read (ms ++ ns)).getD a = (lastTold read ns).getD ((lastTold read ms).getD a) := by
  rw [lastTold_append]
  cases lastTold read ns <;> rfl

theorem lastTold_silent {ms : List Message} (h : ∀ m ∈ ms, ¬ m.TellsSettings) :
    lastTold Message.settings? ms = none ∧ lastTold Message.breakpoints? ms = none := by
  have settings : ∀ m ∈ ms, m.settings? = none := fun m mem =>
    Option.not_isSome_iff_eq_none.1 fun told => h m mem (.inl told)
  have breakpoints : ∀ m ∈ ms, m.breakpoints? = none := fun m mem =>
    Option.not_isSome_iff_eq_none.1 fun told => h m mem (.inr told)
  rw [lastTold, lastTold, List.filterMap_eq_nil_iff.2 settings,
    List.filterMap_eq_nil_iff.2 breakpoints]
  exact ⟨rfl, rfl⟩

namespace Play

/-- The play handles a message of the link at a place. -/
def Hears (p : Play ι) (i : Nat) (m : Message) : Prop :=
  p.turn = .next ∧ p.before.Uses i ∧ ∃ s, p.before.poll = some (.message m, s)

/-- The process says hello. -/
def Greets (p : Play ι) (i : Nat) : Prop :=
  p.before.phase = .connecting ∧ ∃ name, p.Hears i (.hello name)

/-- The process, which has said hello, pauses. -/
def Pauses (p : Play ι) (i : Nat) : Prop :=
  p.before.isConnected = true ∧ ∃ pause, p.Hears i (.paused pause)

/-- What a play may send on the link at a place after earlier plays. -/
structure Lawful (earlier : List (Play ι)) (i : Nat) (p : Play ι) : Prop where
  /-- Nothing is sent before the hello. -/
  greeted : p.sentOn i ≠ [] → ∃ g ∈ earlier, g.Greets i
  /-- The first pause makes the session send the settings, the breakpoints, and then other things,
  as far as the link takes them. -/
  first : p.Pauses i → (∀ q ∈ earlier, ¬ q.Pauses i) →
    ∃ l others, p.before.link = some l ∧ (∀ m ∈ others, ¬ m.TellsSettings) ∧
      p.sentOn i = l.taken
        (.configuration p.before.settings :: .breakpoints p.before.breakpoints :: others)
  /-- Later pauses make it send neither. -/
  later : p.Pauses i → (∃ q ∈ earlier, q.Pauses i) → ∀ m ∈ p.sentOn i, ¬ m.TellsSettings
  /-- Otherwise they are sent one at a time, by the commands that change them. -/
  command : ¬ p.Pauses i → ∀ m ∈ p.sentOn i, m.TellsSettings →
    p.before.isConnected = true ∧ p.sentOn i = [m] ∧
      ((∃ settings, p.turn = .configure settings ∧ m = .configuration settings) ∨
        ∃ es, p.turn = .setBreakpoints es ∧ m = .breakpoints (.ofList es))

end Play

namespace Session

variable {s s' : Session ι} {t : Turn ι} {i : Nat} {l : Link}

/-! ## What is told -/

theorem not_tells_queries (ws : List (Watch ι)) (next : Nat) :
    ∀ m ∈ Watches.queries ws next, ¬ m.TellsSettings := by
  induction ws generalizing next with
  | nil => exact fun _ mem => nomatch mem
  | cons w ws ih =>
    intro m mem
    rcases List.mem_cons.1 mem with rfl | mem
    · rintro (told | told) <;> nomatch told
    · exact ih (next + 1) m mem

/-- Of the commands, only those that change the settings and the breakpoints tell them. -/
theorem offers_of_tells {m : Message} (offered : s.offers? t = some m) (tells : m.TellsSettings) :
    (∃ settings, t = .configure settings ∧ m = .configuration settings) ∨
      ∃ es, t = .setBreakpoints es ∧ m = .breakpoints (.ofList es) := by
  cases t <;> simp only [offers?, Option.ite_none_right_eq_some, Option.some.injEq,
    reduceCtorEq] at offered
  case configure settings => exact .inl ⟨settings, rfl, offered.2.symm⟩
  case setBreakpoints es => exact .inr ⟨es, rfl, offered.2.symm⟩
  all_goals
    rw [← offered.2] at tells
    exact absurd tells (not_or.2 ⟨Bool.false_ne_true, Bool.false_ne_true⟩)

/-- Two sessions keep the same settings and breakpoints. -/
def KeepsSettings (s s' : Session ι) : Prop :=
  s'.settings = s.settings ∧ s'.breakpoints = s.breakpoints

theorem keeps_lose (s : Session ι) (reason : String) : s.KeepsSettings (s.lose reason) := by
  rw [lose, dropLink_eq]
  split <;> exact ⟨rfl, rfl⟩

theorem keeps_disconnect (s : Session ι) : s.KeepsSettings s.disconnect := by
  rw [disconnect, dropLink_eq]
  exact ⟨rfl, rfl⟩

theorem keeps_connectWith (s : Session ι) (link : Link) : s.KeepsSettings (s.connectWith link) := by
  unfold connectWith
  split
  · exact s.keeps_disconnect
  · exact ⟨rfl, rfl⟩

/-- Settings and breakpoints change only by the commands that change them. -/
theorem Effect.keeps (effect : Effect s t s') : (s.store t).KeepsSettings s' := by
  cases effect with
  | connect endpoint link | connectWith link => exact keeps_connectWith _ link
  | disconnect => exact s.keeps_disconnect
  | refused | granted => cases t <;> exact ⟨rfl, rfl⟩
  | ended | rejected | unsynced | unqueried => exact keeps_lose _ _
  | replied =>
    rw [acceptReply_eq]
    exact ⟨rfl, rfl⟩
  | _ => exact ⟨rfl, rfl⟩

/-- What the first pause makes the session send tells all that it keeps. -/
theorem lastTold_announcement (fresh : s.synced = false) (others : List Message)
    (silent : ∀ m ∈ others, ¬ m.TellsSettings) :
    lastTold Message.settings? (s.announcement ++ others) = some s.settings ∧
      lastTold Message.breakpoints? (s.announcement ++ others) = some s.breakpoints := by
  have none := lastTold_silent silent
  rw [lastTold_append, lastTold_append, none.1, none.2, announcement, fresh]
  exact ⟨rfl, rfl⟩

/-- What the first pause makes the session send, and what later pauses make it send. -/
theorem offered_of_pauses {i : Nat} (pauses : Play.Pauses ⟨s, t⟩ i) :
    s.offered t = s.announcement ++ Watches.queries s.watches.live s.requests.nextRequest := by
  obtain ⟨connected, pause, next, _, s', polled⟩ := pauses
  have next : t = .next := next
  have polled : s.poll = some (.message (.paused pause), s') := polled
  rw [next, offered, polled]
  exact prompted_paused connected pause

/-- A session that is not handling a pause tells settings only by a command. -/
theorem offers_of_offered {m : Message} (pauses : ¬ Play.Pauses ⟨s, t⟩ s.retired.length)
    (mem : m ∈ s.offered t) : s.offers? t = some m := by
  cases t with
  | next =>
    refine absurd ?_ pauses
    rw [offered] at mem
    split at mem
    · rename_i e s' polled
      cases e with
      | message heard =>
        cases heard with
        | paused pause =>
          have connected : s.isConnected = true := Decidable.byContradiction fun apart => by
            rw [prompted, if_neg apart] at mem
            exact absurd mem List.not_mem_nil
          obtain ⟨l, _, linked, _⟩ := poll_eq_some polled
          exact ⟨connected, pause, rfl, ⟨Option.isSome_of_eq_some linked, rfl⟩, s', polled⟩
        | _ => exact absurd mem List.not_mem_nil
      | _ => exact absurd mem List.not_mem_nil
    · exact absurd mem List.not_mem_nil
  | _ => exact Option.mem_toList.1 mem

/-- What is offered tells what the session then keeps, if it tells anything of the kind. -/
theorem lastTold_offered (t : Turn ι) (connected : s.isConnected = true) :
    (lastTold Message.settings? (s.offered t)).getD s.settings = (s.store t).settings ∧
      (lastTold Message.breakpoints? (s.offered t)).getD s.breakpoints =
        (s.store t).breakpoints := by
  have quiet := lastTold_silent (not_tells_queries s.watches.live s.requests.nextRequest)
  by_cases pauses : Play.Pauses ⟨s, t⟩ s.retired.length
  · have kept : s.store t = s := by rw [show t = .next from pauses.2.choose_spec.1]; rfl
    rw [offered_of_pauses pauses, kept]
    cases synced : s.synced with
    | false =>
      have told := lastTold_announcement synced _ (not_tells_queries s.watches.live
        s.requests.nextRequest)
      rw [told.1, told.2]
      exact ⟨rfl, rfl⟩
    | true =>
      rw [announcement, if_pos synced, List.nil_append, quiet.1, quiet.2]
      exact ⟨rfl, rfl⟩
  · cases t with
    | configure settings =>
      have said : s.offered (.configure settings) = [.configuration settings] :=
        congrArg Option.toList (if_pos connected)
      rw [said]
      exact ⟨rfl, rfl⟩
    | setBreakpoints es =>
      have said : s.offered (.setBreakpoints es) = [.breakpoints (.ofList es)] :=
        congrArg Option.toList (if_pos connected)
      rw [said]
      exact ⟨rfl, rfl⟩
    | _ =>
      have silent := lastTold_silent fun m mem tells => by
        rcases offers_of_tells (offers_of_offered pauses mem) tells with ⟨_, ⟨⟩, _⟩ | ⟨_, ⟨⟩, _⟩
      rw [silent.1, silent.2]
      exact ⟨rfl, rfl⟩

/-! ## What has been heard on the link in use -/

/-- The next event is what the play hears. -/
theorem eq_of_hears {e : LinkEvent} {m : Message} {l' : Link} (linked : s.link = some l)
    (polled : l.poll = some (e, l')) (hears : Play.Hears ⟨s, t⟩ i m) : e = .message m := by
  obtain ⟨_, _, s', waits⟩ := hears
  have waits : s.poll = some (.message m, s') := waits
  rw [poll_of_event linked polled] at waits
  cases waits
  rfl

theorem not_pauses_of_turn (other : t ≠ .next) : ¬ Play.Pauses ⟨s, t⟩ i :=
  fun ⟨_, _, next, _⟩ => other next

theorem not_pauses_of_event {e : LinkEvent} {l' : Link} (linked : s.link = some l)
    (polled : l.poll = some (e, l')) (other : ∀ pause, e ≠ .message (.paused pause)) :
    ¬ Play.Pauses ⟨s, t⟩ i :=
  fun ⟨_, pause, hears⟩ => other pause (eq_of_hears linked polled hears)

/-- The play tells nothing new of the process. -/
theorem heard_of_quiet (connected : s'.isConnected = true → s.isConnected = true)
    (synced : s'.synced = s.synced) (quiet : ¬ Play.Pauses ⟨s, t⟩ s.retired.length) :
    (s'.isConnected = true → s.isConnected = true ∨ Play.Greets ⟨s, t⟩ s.retired.length) ∧
      (s'.synced = true ↔ s.synced = true ∨ Play.Pauses ⟨s, t⟩ s.retired.length) := by
  refine ⟨fun h => .inl (connected h), ?_⟩
  rw [synced]
  exact ⟨.inl, fun h => h.resolve_right quiet⟩

theorem ne_next_of_command (command : t.isCommand = true) : t ≠ .next := by
  rintro rfl
  nomatch command

/-- A link that stays in use has been greeted, and told the settings, only because of what was
heard on it. -/
theorem Effect.heard (effect : Effect s t s') (adopts : t.adopts = [])
    (linked' : s'.link.isSome = true) :
    (s'.isConnected = true → s.isConnected = true ∨ Play.Greets ⟨s, t⟩ s.retired.length) ∧
      (s'.synced = true ↔ s.synced = true ∨ Play.Pauses ⟨s, t⟩ s.retired.length) := by
  cases effect with
  | connect | connectWith => nomatch adopts
  | disconnect =>
    rw [s.link_disconnect.1] at linked'
    nomatch linked'
  | ended | rejected | unsynced | unqueried =>
    rw [(link_lose rfl _).1] at linked'
    nomatch linked'
  | register | unregister | subscribe | unsubscribe | arrive =>
    exact heard_of_quiet id rfl (not_pauses_of_turn nofun)
  | declined command =>
    have quiet : ¬ Play.Pauses ⟨s, t⟩ s.retired.length :=
      not_pauses_of_turn (ne_next_of_command command)
    cases t <;> exact heard_of_quiet id rfl quiet
  | refused linked offered | granted linked offered =>
    have connected := isConnected_of_offers offered
    have quiet : ¬ Play.Pauses ⟨s, t⟩ s.retired.length :=
      not_pauses_of_turn (ne_next_of_command (isCommand_of_offers offered))
    cases t <;> exact heard_of_quiet (fun _ => connected) rfl quiet
  | idle nothing =>
    refine heard_of_quiet id rfl ?_
    rintro ⟨_, _, _, _, s', polled⟩
    have polled : s.poll = _ := polled
    rw [nothing] at polled
    nomatch polled
  | noticed linked polled told =>
    refine heard_of_quiet id rfl (not_pauses_of_event linked polled ?_)
    rintro pause rfl
    nomatch told
  | @greeted name l l' linked polled phase =>
    have quiet : ¬ Play.Pauses ⟨s, .next⟩ s.retired.length :=
      not_pauses_of_event linked polled nofun
    have waits := poll_of_event linked polled
    exact ⟨fun _ => .inr ⟨phase, name, rfl, ⟨Option.isSome_of_eq_some linked, rfl⟩, _, waits⟩,
      .inl, fun h => h.resolve_right quiet⟩
  | @paused pause l l₀ l₁ l' requests linked polled connected =>
    have waits := poll_of_event linked polled
    exact ⟨fun _ => .inl connected, fun _ => .inr ⟨connected, pause, rfl,
      ⟨Option.isSome_of_eq_some linked, rfl⟩, _, waits⟩, fun _ => rfl⟩
  | traced linked polled =>
    exact heard_of_quiet id rfl (not_pauses_of_event linked polled nofun)
  | @replied reply l l' linked polled =>
    have quiet : ¬ Play.Pauses ⟨s, .next⟩ s.retired.length :=
      not_pauses_of_event linked polled nofun
    rw [acceptReply_eq]
    exact heard_of_quiet id rfl quiet

/-- What the plays of a run have to do with the session that it leads to. -/
structure Heard (ps : List (Play ι)) (s : Session ι) : Prop where
  greeted : s.isConnected = true → ∃ p ∈ ps, p.Greets s.retired.length
  paused : s.synced = true → ∃ p ∈ ps, p.Pauses s.retired.length
  /-- Pauses were heard on links that were given up, or else the settings went out. -/
  synced : ∀ p ∈ ps, ∀ i, p.Pauses i → i < s.retired.length ∨ (s.Uses i ∧ s.synced = true)
  up : s.isConnected = true → ∀ l, s.link = some l → l.aborted = false

/-- Nothing has been heard where there is no link, or only just. -/
theorem Consistent.unheard (h : s.Consistent) (phase : s.phase = .disconnected ∨
    s.phase = .connecting) : ¬ s.isConnected = true ∧ ¬ s.synced = true := by
  have apart : ¬ s.Connected := by
    rcases phase with phase | phase <;> rintro (other | other) <;> rw [phase] at other <;>
      nomatch other
  exact ⟨fun connected => apart (isConnected_iff.1 connected),
    fun synced => apart (h.connected_of_synced synced)⟩

theorem heard_new : Heard [] (new : Session ι) := by
  have unheard := (consistent_new (ι := ι)).unheard (.inl rfl)
  exact ⟨fun h => absurd h unheard.1, fun h => absurd h unheard.2,
    fun _ mem => absurd mem List.not_mem_nil, fun h => absurd h unheard.1⟩

theorem Consistent.phase_of_none (h : s.Consistent) (gone : s.link = none) :
    s.phase = .disconnected :=
  Decidable.byContradiction fun phase => by
    have linked := h.link_iff.2 phase
    rw [gone] at linked
    nomatch linked

theorem Consistent.unheard_of_replaced (h : s.Consistent)
    (link : (s.after t).link = t.adopts.head?) :
    ¬ (s.after t).isConnected = true ∧ ¬ (s.after t).synced = true := by
  refine (h.after t).unheard ?_
  by_cases adopts : t.adopts = []
  · rw [adopts] at link
    exact .inl ((h.after t).phase_of_none link)
  · obtain ⟨l, adopts⟩ := exists_of_adopts adopts
    exact .inr (s.phase_of_adopts adopts)

variable {ps : List (Play ι)}

/-- A play that leaves no link that has been heard. -/
theorem Heard.lost (ih : Heard ps s) (unheard : ¬ s'.isConnected = true ∧ ¬ s'.synced = true)
    (more : s.retired.length ≤ s'.retired.length)
    (given : s.link.isSome = true → s.retired.length < s'.retired.length) :
    Heard (ps ++ [⟨s, t⟩]) s' := by
  refine ⟨fun h => absurd h unheard.1, fun h => absurd h unheard.2, ?_, fun h => absurd h unheard.1⟩
  have past : ∀ i, s.Uses i → i < s'.retired.length := fun i uses => uses.2 ▸ given uses.1
  intro p mem i pauses
  refine .inl ?_
  rcases List.mem_append.1 mem with mem | mem
  · rcases ih.synced p mem i pauses with early | ⟨uses, _⟩
    · exact Nat.lt_of_lt_of_le early more
    · exact past i uses
  · rw [List.mem_singleton.1 mem] at pauses
    exact past i pauses.2.choose_spec.2.1

/-- A play that keeps the link in use. -/
theorem Heard.kept (ih : Heard ps s) (effect : Effect s t s') (adopts : t.adopts = [])
    (linked' : s'.link.isSome = true) {f : Link → Link} (link : s'.link = s.link.map f)
    (served : ∀ l, s.link = some l → l.Served (s.offered t) (f l))
    (retired : s'.retired = s.retired) : Heard (ps ++ [⟨s, t⟩]) s' := by
  obtain ⟨connected, synced⟩ := effect.heard adopts linked'
  have last : ⟨s, t⟩ ∈ ps ++ [(⟨s, t⟩ : Play ι)] :=
    List.mem_append_right _ (List.mem_singleton.2 rfl)
  have uses' : ∀ i, s.Uses i → s'.Uses i := fun i uses => ⟨linked', by rw [retired]; exact uses.2⟩
  refine ⟨fun h => ?_, fun h => ?_, fun p mem i pauses => ?_, fun h l' here => ?_⟩
  · rw [retired]
    rcases connected h with h | greets
    · obtain ⟨p, mem, greets⟩ := ih.greeted h
      exact ⟨p, List.mem_append_left _ mem, greets⟩
    · exact ⟨_, last, greets⟩
  · rw [retired]
    rcases synced.1 h with h | pauses
    · obtain ⟨p, mem, pauses⟩ := ih.paused h
      exact ⟨p, List.mem_append_left _ mem, pauses⟩
    · exact ⟨_, last, pauses⟩
  · rcases List.mem_append.1 mem with mem | mem
    · rcases ih.synced p mem i pauses with early | ⟨uses, out⟩
      · exact .inl (retired ▸ early)
      · exact .inr ⟨uses' i uses, synced.2 (.inl out)⟩
    · rw [List.mem_singleton.1 mem] at pauses
      have uses := pauses.2.choose_spec.2.1
      exact .inr ⟨uses' i uses, synced.2 (.inr (uses.2 ▸ pauses))⟩
  · rw [link] at here
    obtain ⟨l, linked, rfl⟩ := Option.map_eq_some_iff.1 here
    rw [(served l linked).aborted]
    rcases connected h with h | ⟨_, _, _, _, s₀, polled⟩
    · exact ih.up h l linked
    · obtain ⟨l₀, l₁, linked₀, polled, -⟩ := poll_eq_some polled
      rw [linked] at linked₀
      cases linked₀
      exact (Link.poll_eq_some polled).1

theorem Heard.after (ih : Heard ps s) (h : s.Consistent) (t : Turn ι) :
    Heard (ps ++ [⟨s, t⟩]) (s.after t) := by
  have h' := h.after t
  have effect := effect h.tied t
  cases effect.fate with
  | kept f served adopts link retired =>
    by_cases linked' : (s.after t).link.isSome = true
    · exact ih.kept effect adopts linked' link served retired
    · have gone' := Option.not_isSome_iff_eq_none.1 linked'
      have gone : ¬ s.link.isSome = true := by
        rw [link] at gone'
        rw [Option.map_eq_none_iff.1 gone']
        nofun
      exact ih.lost (h'.unheard (.inl (h'.phase_of_none gone'))) (Nat.le_of_eq (by rw [retired]))
        fun linked => absurd linked gone
  | replaced f served link retired =>
    refine ih.lost (h.unheard_of_replaced link) ?_ fun linked => ?_
    · rw [retired, List.length_append]
      exact Nat.le_add_right _ _
    · obtain ⟨l, linked⟩ := Option.isSome_iff_exists.1 linked
      rw [retired, linked, List.length_append]
      exact Nat.lt_add_one _

theorem Heard.run (ih : Heard ps s) (h : s.Consistent) (ts : List (Turn ι)) :
    Heard (ps ++ s.plays ts) (s.run ts) := by
  induction ts generalizing ps s with
  | nil => rwa [plays_nil, List.append_nil]
  | cons t ts ih' =>
    have later := ih' (ih.after h t) (h.after t)
    rwa [List.append_assoc] at later

theorem heard_run (ts : List (Turn ι)) : Heard ((new : Session ι).plays ts) (new.run ts) :=
  heard_new.run consistent_new ts

/-! ## What goes out -/

/-- Nothing is offered before the hello. -/
theorem isConnected_of_offered {m : Message} (mem : m ∈ s.offered t) : s.isConnected = true := by
  by_cases pauses : Play.Pauses ⟨s, t⟩ s.retired.length
  · exact pauses.1
  · exact isConnected_of_offers (offers_of_offered pauses mem)

/-- The play after the plays of a run sends what it may. -/
theorem lawful (heard : Heard ps s) (h : s.Consistent) (t : Turn ι) (i : Nat) :
    (⟨s, t⟩ : Play ι).Lawful ps i where
  greeted sends := by
    obtain ⟨m, sent⟩ := List.exists_mem_of_ne_nil _ sends
    obtain ⟨uses, mem⟩ := Play.uses_of_sent h sent
    rw [uses.2]
    exact heard.greeted (isConnected_of_offered mem)
  first pauses none := by
    have uses : s.Uses i := pauses.2.choose_spec.2.1
    obtain ⟨l, linked⟩ := Option.isSome_iff_exists.1 uses.1
    have fresh : ¬ s.synced = true := fun synced => by
      obtain ⟨q, mem, earlier⟩ := heard.paused synced
      exact none q mem (uses.2 ▸ earlier)
    have sent : (⟨s, t⟩ : Play ι).sentOn s.retired.length = l.taken (s.offered t) :=
      Play.sentOn_of_uses h linked
    rw [offered_of_pauses pauses, announcement, if_neg fresh] at sent
    exact ⟨l, _, linked, not_tells_queries _ _, by rw [uses.2]; exact sent⟩
  later pauses := by
    rintro ⟨q, mem, earlier⟩ m sent
    have uses : s.Uses i := pauses.2.choose_spec.2.1
    have synced : s.synced = true := by
      rcases heard.synced q mem i earlier with past | ⟨_, synced⟩
      · exact absurd uses.2 (Nat.ne_of_lt past)
      · exact synced
    have mem : m ∈ s.offered t := (Play.uses_of_sent h sent).2
    rw [offered_of_pauses pauses, announcement, if_pos synced] at mem
    exact not_tells_queries _ _ m mem
  command other := by
    intro m sent tells
    obtain ⟨uses, mem⟩ := Play.uses_of_sent h sent
    have mem : m ∈ s.offered t := mem
    have offers := offers_of_offered (uses.2 ▸ other) mem
    obtain ⟨l, linked⟩ := Option.isSome_iff_exists.1 uses.1
    have whole : (⟨s, t⟩ : Play ι).sentOn i = l.taken [m] := by
      rw [uses.2, Play.sentOn_of_uses h linked]
      exact congrArg l.taken (by rw [offered_of_command (isCommand_of_offers offers), offers]; rfl)
    refine ⟨isConnected_of_offered mem, ?_, offers_of_tells offers tells⟩
    rw [whole] at sent ⊢
    exact (l.taken_prefix [m]).eq_of_length_le (List.length_pos_of_mem sent)

/-- A link in use that has been told the settings, and refused nothing, was told last what the
session keeps. -/
def Told (ps : List (Play ι)) (s : Session ι) : Prop :=
  s.link.isSome = true → s.synced = true → (∀ p ∈ ps, ¬ p.Refused s.retired.length) →
    lastTold Message.settings? (history ps s.retired.length) = some s.settings ∧
      lastTold Message.breakpoints? (history ps s.retired.length) = some s.breakpoints

theorem told_after (told : Told ps s) (heard : Heard ps s) (h : s.Consistent) (t : Turn ι) :
    Told (ps ++ [⟨s, t⟩]) (s.after t) := by
  intro linked' synced' willing
  have effect := effect h.tied t
  cases effect.fate with
  | replaced f served link retired => exact absurd synced' (h.unheard_of_replaced link).2
  | kept f served adopts link retired =>
    have synced := (effect.heard adopts linked').2.1 synced'
    have connected : s.isConnected = true :=
      synced.elim (fun synced => isConnected_iff.2 (h.connected_of_synced synced)) (·.1)
    obtain ⟨l, linked⟩ := Option.isSome_iff_exists.1 (h.tied connected)
    rw [retired] at willing ⊢
    -- The link takes all that the turn offers.
    have takes : (⟨s, t⟩ : Play ι).sentOn s.retired.length = s.offered t := by
      have granted := willing ⟨s, t⟩ (List.mem_append_right _ (List.mem_singleton.2 rfl))
      have granted := mt (Play.refused_iff h linked (heard.up connected l linked)).2 granted
      have granted : (l.offer (s.offered t)).1 = none := Option.not_isSome_iff_eq_none.1 granted
      have taken := Link.taken_of_offer (Prod.ext granted rfl)
      exact (Play.sentOn_of_uses h linked).trans taken
    have more : history (ps ++ [⟨s, t⟩]) s.retired.length =
        history ps s.retired.length ++ s.offered t := by
      rw [history, history, List.flatMap_append, List.flatMap_singleton, takes]
    obtain ⟨settings, breakpoints⟩ := effect.keeps
    rw [more, lastTold_append, lastTold_append, settings, breakpoints]
    by_cases synced : s.synced = true
    · have before := told (h.tied connected) synced fun p mem =>
        willing p (List.mem_append_left _ mem)
      have now := lastTold_offered t connected
      rw [before.1, before.2, Option.or_some, Option.or_some, now.1, now.2]
      exact ⟨rfl, rfl⟩
    · have pauses := (effect.heard adopts linked').2.1 synced' |>.resolve_left synced
      have now := lastTold_announcement (Bool.eq_false_iff.2 synced) _
        (not_tells_queries s.watches.live s.requests.nextRequest)
      have next : t = .next := pauses.2.choose_spec.1
      rw [offered_of_pauses pauses, now.1, now.2, next]
      exact ⟨rfl, rfl⟩

theorem told_run (told : Told ps s) (heard : Heard ps s) (h : s.Consistent) (ts : List (Turn ι)) :
    Told (ps ++ s.plays ts) (s.run ts) := by
  induction ts generalizing ps s with
  | nil => rwa [plays_nil, List.append_nil]
  | cons t ts ih =>
    have later := ih (told_after told heard h t) (heard.after h t) (h.after t)
    rwa [List.append_assoc] at later

/-- **What goes out on a link.** In every run from a new session, each play sends on each link what
it may after the plays before it. If the link in use has paused and refused nothing, then the last
settings and breakpoints that it was told are those that the session keeps. -/
theorem settings_told (ts : List (Turn ι)) (i : Nat) :
    (∀ earlier p later, (new : Session ι).plays ts = earlier ++ p :: later →
      p.Lawful earlier i) ∧
    ((new.run ts).Uses i → (∃ p ∈ (new : Session ι).plays ts, p.Pauses i) →
      (∀ p ∈ (new : Session ι).plays ts, ¬ p.Refused i) →
      lastTold Message.settings? (history (new.plays ts) i) = some (new.run ts).settings ∧
        lastTold Message.breakpoints? (history (new.plays ts) i) =
          some (new.run ts).breakpoints) := by
  refine ⟨fun earlier p later split => ?_, fun uses paused willing => ?_⟩
  · obtain ⟨us, rfl, before⟩ := plays_split split
    obtain ⟨s, t⟩ := p
    have before : s = new.run us := before
    rw [before]
    exact lawful (heard_run us) (consistent_new.run us) t i
  · have first : Told [] (new : Session ι) := fun linked => nomatch linked
    obtain ⟨p, mem, pauses⟩ := paused
    have synced : (new.run ts).synced = true := by
      rcases (heard_run ts).synced p mem i pauses with past | ⟨_, synced⟩
      · exact absurd uses.2 (Nat.ne_of_lt past)
      · exact synced
    rw [uses.2] at willing ⊢
    exact told_run first heard_new consistent_new ts uses.1 synced willing

/-- A process that has said hello and paused is told of new settings. -/
theorem settings_told_to_paused :
    let ts : List (Turn Unit) := [.connectWith (.withBudget none),
      .arrive [.message (.hello "demo"), .message (.paused default)], .next, .next,
      .configure default]
    (∃ earlier p later, new.plays ts = earlier ++ p :: later ∧ p.Pauses 0 ∧
      p.Lawful earlier 0) ∧
    (new.run ts).Uses 0 ∧ (∀ p ∈ new.plays ts, ¬ p.Refused 0) ∧
    lastTold Message.settings? (history (new.plays ts) 0) = some default ∧
      lastTold Message.breakpoints? (history (new.plays ts) 0) = some .empty := by
  intro ts
  have split : new.plays ts = (new.plays ts).take 3 ++ ⟨new.run (ts.take 3), .next⟩ ::
    [⟨new.run (ts.take 4), .configure default⟩] := rfl
  have pauses : (⟨new.run (ts.take 3), .next⟩ : Play Unit).Pauses 0 :=
    ⟨rfl, default, rfl, ⟨rfl, rfl⟩, _, rfl⟩
  have uses : (new.run ts).Uses 0 := ⟨rfl, rfl⟩
  have willing : ∀ p ∈ new.plays ts, ¬ p.Refused 0 := by decide
  have mem : ⟨new.run (ts.take 3), .next⟩ ∈ new.plays ts :=
    split ▸ List.mem_append_right _ List.mem_cons_self
  obtain ⟨lawful, told⟩ := settings_told ts 0
  exact ⟨⟨_, _, _, split, pauses, lawful _ _ _ split⟩, uses, willing,
    told uses ⟨_, mem, pauses⟩ willing⟩

/-- What is changed after a link was given up is not told on it. -/
theorem settings_not_told_after_disconnect :
    ¬ ∀ (ts : List (Turn Unit)) (i : Nat), (∃ p ∈ (new : Session Unit).plays ts, p.Pauses i) →
      (∀ p ∈ (new : Session Unit).plays ts, ¬ p.Refused i) →
      lastTold Message.settings? (history (new.plays ts) i) = some (new.run ts).settings := by
  intro law
  have told := law [.connectWith (.withBudget none),
    .arrive [.message (.hello "demo"), .message (.paused default)], .next, .next, .disconnect,
    .configure default] 0
    ⟨_, List.mem_of_getElem? (i := 3) rfl, rfl, default, rfl, ⟨rfl, rfl⟩, _, rfl⟩ (by decide)
  revert told
  decide

end Session

end CallDebugger
