import CallDebugger.Proofs.Duo.PeerActs

/-!
# Where a pause is

From the time a process announces a pause until it handles the order to go on, the pause is in one
place: its announcement is on its way to the session, or the session is paused at it, or the order
to go on is on its way back (`Stage`). Every step of a duo keeps this (`Duo.Sound`), so
`Duo.break_token` counts the places in every duo that comes about.
-/

namespace CallDebugger

variable {ι σ : Type}

/-- Where the pause that a process has announced is: on its way to the session, held by it, or on
its way back as an order to go on. -/
inductive Stage (phase : Phase) (last : Option Pause) :
    Option Pause → List Pause → Nat → Prop where
  | free (going : phase ≠ .breaked) : Stage phase last none [] 0
  | told {pause : Pause} (going : phase ≠ .breaked) : Stage phase last (some pause) [pause] 0
  | held {pause : Pause} (breaked : phase = .breaked) (known : last = some pause) :
      Stage phase last (some pause) [] 0
  | freed {pause : Pause} (going : phase ≠ .breaked) : Stage phase last (some pause) [] 1

theorem stillOutstanding_of_countP {announced : Option Pause} {ms : List Message}
    (none : ms.countP Message.releases = 0) : stillOutstanding announced ms = announced := by
  refine if_neg fun released => ?_
  obtain ⟨m, mem, releases⟩ := List.any_eq_true.1 released
  exact List.countP_eq_zero.1 none m mem releases

theorem stillOutstanding_of_pos {announced : Option Pause} {ms : List Message}
    (some : 0 < ms.countP Message.releases) : stillOutstanding announced ms = .none := by
  obtain ⟨m, mem, releases⟩ := List.countP_pos_iff.1 some
  exact if_pos (List.any_eq_true.2 ⟨m, mem, releases⟩)

namespace Stage

variable {phase : Phase} {last : Option Pause} {announced : Option Pause} {pauses : List Pause}
  {n : Nat}

/-- The process handles orders. -/
theorem hook {handled : List Message}
    (stage : Stage phase last announced pauses (handled.countP Message.releases + n)) :
    Stage phase last (stillOutstanding announced handled) pauses n := by
  generalize eq : handled.countP Message.releases + n = k at stage
  by_cases none : handled.countP Message.releases = 0
  · rw [stillOutstanding_of_countP none]
    rw [none, Nat.zero_add] at eq
    exact eq ▸ stage
  · rw [stillOutstanding_of_pos (Nat.pos_of_ne_zero none)]
    cases stage with
    | free going =>
      obtain rfl : n = 0 := by omega
      exact .free going
    | told | held => omega
    | freed going =>
      obtain rfl : n = 0 := by omega
      exact .free going

/-- The process announces a pause. -/
theorem announce (stage : Stage phase last none pauses n) (pause : Pause) :
    Stage phase last (some pause) (pauses ++ [pause]) n := by
  cases stage with
  | free going => exact .told going

/-- The session hears the hello. -/
theorem greet (stage : Stage .connecting last announced pauses n) (last' : Option Pause) :
    Stage .running last' announced pauses n := by
  cases stage with
  | free => exact .free nofun
  | told => exact .told nofun
  | held breaked => nomatch breaked
  | freed => exact .freed nofun

/-- The announcement of a pause arrives. -/
theorem stop {pause : Pause} (stage : Stage phase last announced (pause :: pauses) n) :
    Stage .breaked (some pause) announced pauses n := by
  cases stage with
  | told => exact .held rfl rfl

/-- The session lets the process go on. -/
theorem release (stage : Stage .breaked last announced pauses n) (last' : Option Pause) :
    Stage .running last' announced pauses (n + 1) := by
  cases stage with
  | free going | told going | freed going => exact absurd rfl going
  | held => exact .freed nofun

/-- A session that is paused holds the pause. -/
theorem of_breaked (stage : Stage phase last announced pauses n) (breaked : phase = .breaked) :
    ∃ pause, announced = some pause ∧ last = some pause ∧ n = 0 := by
  cases stage with
  | free going | told going | freed going => exact absurd breaked going
  | held _ known => exact ⟨_, rfl, known, rfl⟩

/-- The places where the pause can be add up. -/
theorem balance (stage : Stage phase last announced pauses n) :
    pauses.length + (if phase = .breaked then 1 else 0) + n =
      if announced.isSome then 1 else 0 := by
  cases stage with
  | free going | told going | freed going => rw [if_neg going]; rfl
  | held breaked => rw [if_pos breaked]; rfl

end Stage

/-- A message that a process may send once it has said hello. -/
def Message.isNews : Message → Bool
  | .paused _ | .trace _ | .reply _ => true
  | _ => false

namespace Duo

variable {d d' : Duo ι σ}

/-- How far the greeting has come. -/
inductive Greeting (d : Duo ι σ) : Prop where
  | unsaid (phase : d.session.phase = .connecting) (unheard : d.toSession = [])
      (untold : d.toPeer = []) (staying : d.peer.terminating = false)
      (place : (d.begun = false ∧ d.peer.inside = none) ∨
        (d.begun = true ∧ d.peer.inside = some .attach))
  | said {name : String} {rest : List Message} (phase : d.session.phase = .connecting)
      (arrives : d.toSession = .hello name :: rest) (news : ∀ m ∈ rest, m.isNews = true)
      (begun : d.begun = true) (inside : d.peer.inside ≠ some .attach)
  | heard (connected : d.session.isConnected = true) (news : ∀ m ∈ d.toSession, m.isNews = true)
      (begun : d.begun = true) (inside : d.peer.inside ≠ some .attach)

/-- What holds of every duo that comes about. -/
structure Sound (d : Duo ι σ) : Prop where
  consistent : d.session.Consistent
  linked : ∃ l, d.session.link = some l ∧ l.Open ∧
    ∀ e ∈ l.inbox, ∀ reason, e ≠ .disconnected reason
  calm : d.peer.Calm
  orders : ∀ m ∈ d.outward, m.isOrder = true
  keeps : d.peer.Keeps (outstanding d.deeds)
  greeting : d.Greeting
  stage : Stage d.session.phase d.session.lastBreak (outstanding d.deeds)
    (d.toSession.filterMap Message.pause?) (d.toPeer.countP Message.releases)
  /-- No call was let through since the outstanding pause was announced. -/
  since : ∀ pause, outstanding d.deeds = some pause → ∃ earlier later,
    d.deeds = earlier ++ .sent (.paused pause) :: later ∧ ∀ c, .ran c ∉ later

/-! ## What deeds come to -/

theorem outstanding_append (ds es : List Deed) :
    outstanding (ds ++ es) = es.foldl Deed.next (outstanding ds) :=
  List.foldl_append

theorem next_handled (announced : Option Pause) (ms : List Message) :
    (ms.map Deed.handled).foldl Deed.next announced = stillOutstanding announced ms := by
  induction ms generalizing announced with
  | nil => rfl
  | cons m ms ih =>
    rw [List.map_cons, List.foldl_cons, ih, stillOutstanding, stillOutstanding, List.any_cons]
    cases released : m.releases with
    | true => simp [Deed.next, released]
    | false => simp [Deed.next, released]

theorem next_answers (announced : Option Pause) {ms : List Message}
    (answers : ∀ m ∈ ms, m.isAnswer = true) :
    (ms.map Deed.sent).foldl Deed.next announced = announced := by
  induction ms with
  | nil => rfl
  | cons m ms ih =>
    have same : Deed.next announced (.sent m) = announced := by
      have answer := answers m List.mem_cons_self
      cases m <;> first | rfl | nomatch answer
    rw [List.map_cons, List.foldl_cons, same]
    exact ih fun m' mem => answers m' (List.mem_cons_of_mem m mem)

theorem next_ran (announced : Option Pause) (cs : List Call) :
    (cs.map Deed.ran).foldl Deed.next announced = announced := by
  induction cs with
  | nil => rfl
  | cons c cs ih => exact ih

theorem ran_not_mem (handled sent : List Message) (c : Call) :
    Deed.ran c ∉ handled.map Deed.handled ++ sent.map Deed.sent := by
  intro mem
  rcases List.mem_append.1 mem with mem | mem <;>
    obtain ⟨_, _, eq⟩ := List.mem_map.1 mem <;> nomatch eq

/-- Answers announce no pause. -/
theorem pauses_of_answers {ms : List Message} (answers : ∀ m ∈ ms, m.isAnswer = true) :
    ms.filterMap Message.pause? = [] := by
  refine List.filterMap_eq_nil_iff.2 fun m mem => ?_
  have answer := answers m mem
  cases m <;> first | rfl | nomatch answer

theorem countP_releases_zero {ms : List Message}
    (silent : ∀ m ∈ ms, m.isOrder = true ∧ m.releases = false) :
    ms.countP Message.releases = 0 :=
  List.countP_eq_zero.2 fun m mem => by rw [(silent m mem).2]; nofun

/-! ## Turns of the session -/

theorem toSession_of_link {l : Link} (link : d.session.link = some l) :
    d.toSession = messages l.inbox ++ d.inward := by
  rw [toSession, link]
  rfl

/-- The next message is one that the session accepts. -/
theorem Sound.welcome (h : d.Sound) {l : Link} (link : d.session.link = some l) {m : Message}
    (next : (messages l.inbox).head? = some m) : d.session.rejects? m = none := by
  obtain ⟨rest, first⟩ : ∃ rest, d.toSession = m :: rest := by
    obtain ⟨ms, eq⟩ := List.head?_eq_some_iff.1 next
    exact ⟨ms ++ d.inward, by rw [toSession_of_link link, eq, List.cons_append]⟩
  cases h.greeting with
  | unsaid phase unheard =>
    rw [unheard] at first
    nomatch first
  | said phase arrives =>
    rw [arrives, List.cons.injEq] at first
    rw [← first.1]
    exact if_pos phase
  | heard connected news =>
    have kind := news m (by rw [first]; exact List.mem_cons_self)
    cases m with
    | paused | trace => exact if_pos connected
    | reply => rfl
    | _ => nomatch kind

/-- A turn, seen from both ends. -/
theorem take_eq {t : Turn ι} {l l' : Link} {handled sent : List Message}
    (link : d.session.link = some l)
    (moved : d.session.Moved l (d.session.after t) l' handled sent) :
    d.toSession = handled ++ (d.take t).toSession ∧ (d.take t).outward = d.outward ++ sent ∧
      (d.take t).toPeer = d.toPeer ++ sent := by
  have outward : (d.take t).outward = d.outward ++ sent := by
    simp only [take, link, moved.link, moved.sends, List.drop_left]
  refine ⟨?_, outward, ?_⟩
  · rw [toSession_of_link (d := d.take t) moved.link, toSession_of_link link, moved.handles,
      List.append_assoc]
    rfl
  · rw [toPeer, outward, ← List.append_assoc]
    rfl

/-- Every turn has an outcome. -/
theorem Sound.outcome (h : d.Sound) {t : Turn ι} (own : t.isOwn = true) :
    ∃ l l' handled, d.session.Linked l ∧
      d.session.Outcome l t (d.session.after t) l' handled := by
  obtain ⟨l, link, opened, lasting⟩ := h.linked
  have linked : d.session.Linked l := ⟨link, opened, lasting, fun m next => h.welcome link next⟩
  obtain ⟨l', handled, outcome⟩ := (Session.effect h.consistent.tied t).outcome linked own
  exact ⟨l, l', handled, linked, outcome⟩

theorem not_connecting {s : Session ι} (connected : s.isConnected = true) :
    s.phase ≠ .connecting := by
  intro phase
  rw [Session.isConnected, phase] at connected
  exact absurd connected Bool.false_ne_true

/-- A turn takes the greeting no step back. -/
theorem Greeting.take {t : Turn ι} {handled sent : List Message} (greeting : d.Greeting)
    (move : d.session.Move handled sent (d.session.after t))
    (split : d.toSession = handled ++ (d.take t).toSession)
    (told : (d.take t).toPeer = d.toPeer ++ sent) : (d.take t).Greeting := by
  cases move with
  | quiet answers _ silent phase' =>
    cases greeting with
    | unsaid phase unheard untold staying place =>
      rw [unheard] at split
      obtain ⟨_, unheard'⟩ := List.append_eq_nil_iff.1 split.symm
      rw [untold, silent phase] at told
      exact .unsaid (phase'.trans phase) unheard' told staying place
    | said phase arrives news begun inside =>
      rw [arrives] at split
      cases handled with
      | nil => exact .said (phase'.trans phase) split.symm news begun inside
      | cons m ms =>
        have answer := answers m List.mem_cons_self
        rw [← (List.cons.inj split).1] at answer
        nomatch answer
    | heard connected news begun inside =>
      have connected' := (Session.isConnected_congr phase').trans connected
      exact .heard connected' (fun m mem => news m (split ▸ List.mem_append_right _ mem)) begun
        inside
  | greeted before after =>
    cases greeting with
    | unsaid _ unheard =>
      rw [unheard] at split
      nomatch split
    | said _ arrives news begun inside =>
      rw [arrives] at split
      have rest := (List.cons.inj split).2
      exact .heard (Session.isConnected_of_running after) (fun m mem => news m (rest ▸ mem))
        begun inside
    | heard connected => exact absurd before (not_connecting connected)
  | stopped connected _ after =>
    cases greeting with
    | unsaid phase | said phase => exact absurd phase (not_connecting connected)
    | heard _ news begun inside =>
      exact .heard (Session.isConnected_of_breaked after)
        (fun m mem => news m (split ▸ List.mem_append_right _ mem)) begun inside
  | freed _ _ before after =>
    cases greeting with
    | unsaid phase | said phase =>
      rw [before] at phase
      nomatch phase
    | heard _ news begun inside =>
      exact .heard (Session.isConnected_of_running after)
        (fun m mem => news m (split ▸ List.mem_append_right _ mem)) begun inside

/-- A turn moves the pause from one place to the next, if at all. -/
theorem stage_take {s s' : Session ι} {handled sent : List Message} {announced : Option Pause}
    {arriving going : List Message} (move : s.Move handled sent s')
    (stage : Stage s.phase s.lastBreak announced ((handled ++ arriving).filterMap Message.pause?)
      (going.countP Message.releases)) :
    Stage s'.phase s'.lastBreak announced (arriving.filterMap Message.pause?)
      ((going ++ sent).countP Message.releases) := by
  rw [List.filterMap_append] at stage
  rw [List.countP_append]
  cases move with
  | quiet answers orders silent phase lastBreak =>
    rw [phase, lastBreak, countP_releases_zero orders]
    rw [pauses_of_answers answers] at stage
    exact stage
  | greeted before after =>
    rw [before] at stage
    rw [after]
    exact stage.greet _
  | stopped connected orders after lastBreak =>
    rw [after, lastBreak, countP_releases_zero orders]
    exact stage.stop
  | @freed m _ order releases before after =>
    rw [before] at stage
    rw [after, List.countP_singleton, if_pos releases]
    exact stage.release _

/-- The session takes a turn. -/
theorem Sound.take (h : d.Sound) {t : Turn ι} (own : t.isOwn = true) : (d.take t).Sound := by
  obtain ⟨l, l', handled, linked, outcome⟩ := h.outcome own
  have moved := outcome.moved linked
  obtain ⟨split, outward, told⟩ := take_eq linked.link moved
  refine ⟨h.consistent.after t,
    ⟨l', moved.link, moved.opened, fun e mem => linked.lasting e (moved.fewer mem)⟩,
    h.calm, ?_, h.keeps, h.greeting.take moved.move split told, ?_, h.since⟩
  · rw [outward]
    exact fun m mem => (List.mem_append.1 mem).elim (h.orders m) (moved.move.orders m)
  · have stage := h.stage
    rw [split] at stage
    rw [told]
    exact stage_take moved.move stage

/-! ## What the process does -/

/-- An activity, seen from both ends. -/
theorem act_eq {a : Activity} {p' : Peer σ} {handled sent : List Message} {ran : List Call}
    (acted : d.peer.Acted a p' handled sent ran) :
    (d.act a).peer = p' ∧ (d.act a).toSession = d.toSession ++ sent ∧
      d.toPeer = handled ++ (d.act a).toPeer ∧
      (d.act a).deeds =
        d.deeds ++ (handled.map .handled ++ sent.map .sent ++ ran.map .ran) := by
  have next := acted.next
  refine ⟨next, ?_, ?_, ?_⟩
  · have inward : (d.act a).inward = d.inward ++ sent := by
      simp only [act, next, acted.sends, List.drop_left]
    rw [toSession, inward, ← List.append_assoc]
    rfl
  · have inbox : messages (d.act a).peer.link.inbox = messages p'.link.inbox := by
      simp only [act, next]
    rw [toPeer, toPeer, acted.handles, inbox, List.append_assoc]
    rfl
  · simp only [act, acted.deeds]

theorem isNews_of_isAnswer {m : Message} (answer : m.isAnswer = true) : m.isNews = true := by
  cases m <;> first | rfl | nomatch answer

/-- A hook sends news. -/
theorem act_news {p' : Peer σ} {announced : Option Pause} {handled sent : List Message}
    {ran : List Call} (act : p'.Act announced handled sent ran) :
    (∀ m ∈ sent, m.isNews = true) ∧ p'.inside ≠ some .attach := by
  cases act with
  | quiet answers _ _ inside => exact ⟨fun m mem => isNews_of_isAnswer (answers m mem), inside⟩
  | announces kind _ _ inside =>
    refine ⟨fun m mem => ?_, inside⟩
    rcases List.mem_append.1 mem with mem | mem
    · exact isNews_of_isAnswer (kind m mem)
    · rw [List.mem_singleton.1 mem]
      rfl

/-- A hook takes the greeting no step back. -/
theorem Greeting.hook {a : Activity} {sent : List Message} (greeting : d.Greeting)
    (begun : d.begun = true) (said : d.peer.inside ≠ some .attach)
    (arrives : (d.act a).toSession = d.toSession ++ sent) (news : ∀ m ∈ sent, m.isNews = true)
    (inside : (d.act a).peer.inside ≠ some .attach) : (d.act a).Greeting := by
  cases greeting with
  | unsaid _ _ _ _ place =>
    rcases place with ⟨fresh, _⟩ | ⟨_, waiting⟩
    · rw [begun] at fresh
      nomatch fresh
    · exact absurd waiting said
  | said phase before earlier =>
    rw [before] at arrives
    exact .said phase arrives (fun m mem => (List.mem_append.1 mem).elim (earlier m) (news m)) rfl
      inside
  | heard connected earlier =>
    refine .heard connected (fun m mem => ?_) rfl inside
    rw [arrives] at mem
    exact (List.mem_append.1 mem).elim (earlier m) (news m)

/-- What is outstanding after a hook. -/
theorem outstanding_act {ds : List Deed} {p' : Peer σ} {handled sent : List Message}
    {ran : List Call} (act : p'.Act (outstanding ds) handled sent ran) (phase : Phase)
    (last : Option Pause) {pauses : List Pause} {n : Nat}
    (stage : Stage phase last (outstanding ds) pauses (handled.countP Message.releases + n))
    (since : ∀ pause, outstanding ds = some pause → ∃ earlier later,
      ds = earlier ++ .sent (.paused pause) :: later ∧ ∀ c, .ran c ∉ later) :
    ∃ announced, outstanding (ds ++ (handled.map .handled ++ sent.map .sent ++ ran.map .ran)) =
        announced ∧ p'.Keeps announced ∧
      Stage phase last announced (pauses ++ sent.filterMap Message.pause?) n ∧
      ∀ pause, announced = some pause → ∃ earlier later,
        ds ++ (handled.map .handled ++ sent.map .sent ++ ran.map .ran) =
          earlier ++ .sent (.paused pause) :: later ∧ ∀ c, .ran c ∉ later := by
  have stage := stage.hook
  cases act with
  | quiet answers keeps held =>
    refine ⟨stillOutstanding (outstanding ds) handled, ?_, keeps, ?_, fun pause still => ?_⟩
    · rw [outstanding_append, List.foldl_append, List.foldl_append, next_handled,
        next_answers _ answers, next_ran]
    · rw [pauses_of_answers answers, List.append_nil]
      exact stage
    · obtain ⟨earlier, later, eq, none⟩ := since pause (eq_of_stillOutstanding still).1
      rw [still] at held
      rw [held rfl, List.map_nil, List.append_nil]
      refine ⟨earlier, later ++ (handled.map .handled ++ sent.map .sent), ?_, fun c mem => ?_⟩
      · rw [eq, List.append_assoc, List.cons_append]
      · exact (List.mem_append.1 mem).elim (none c) (ran_not_mem handled sent c)
  | @announces answers pause kind free keeps =>
    rw [free] at stage
    refine ⟨some pause, ?_, keeps, ?_, fun pause' eq => ?_⟩
    · rw [outstanding_append, List.foldl_append, List.foldl_append, next_ran, List.map_append,
        List.foldl_append]
      rfl
    · rw [List.filterMap_append, pauses_of_answers kind]
      exact stage.announce pause
    · cases eq
      refine ⟨ds ++ (handled.map .handled ++ answers.map .sent), [], ?_, fun c mem => nomatch mem⟩
      rw [List.map_nil, List.append_nil, List.map_append, List.append_assoc, List.append_assoc]
      rfl

/-- A hook keeps everything in order. -/
theorem Sound.hook (h : d.Sound) {a : Activity} {p' : Peer σ} {handled sent : List Message}
    {ran : List Call} (acted : d.peer.Acted a p' handled sent ran)
    (act : p'.Act (outstanding d.deeds) handled sent ran) (begun : d.begun = true)
    (said : d.peer.inside ≠ some .attach) : (d.act a).Sound := by
  obtain ⟨peer, arrives, split, deeds⟩ := act_eq acted
  obtain ⟨news, inside⟩ := act_news act
  have stage := h.stage
  rw [split, List.countP_append] at stage
  obtain ⟨announced, outstanding, keeps, stage, since⟩ :=
    outstanding_act act d.session.phase d.session.lastBreak stage h.since
  rw [← deeds] at outstanding since
  refine ⟨h.consistent, h.linked, peer ▸ acted.calm, h.orders, ?_,
    h.greeting.hook begun said arrives news (peer ▸ inside), ?_, ?_⟩
  · rw [outstanding, peer]
    exact keeps
  · rw [outstanding, arrives, List.filterMap_append]
    exact stage
  · rw [outstanding]
    exact since

/-- Waiting for a controller keeps everything in order. -/
theorem Sound.await (h : d.Sound) {a : Activity} {p' : Peer σ} {sent : List Message}
    (acted : d.peer.Acted a p' [] sent []) (await : p'.Await sent)
    (phase : d.session.phase = .connecting) (unheard : d.toSession = []) (untold : d.toPeer = []) :
    (d.act a).Sound := by
  obtain ⟨peer, arrives, split, deeds⟩ := act_eq acted
  rw [unheard, List.nil_append] at arrives
  have untold' : (d.act a).toPeer = [] := split.symm.trans untold
  have free : outstanding d.deeds = none := by
    have stage := h.stage
    rw [unheard, untold, phase] at stage
    generalize outstanding d.deeds = announced at stage
    cases stage with
    | free => rfl
    | held breaked => nomatch breaked
  have answers : sent.filterMap Message.pause? = [] ∧
      (sent.map Deed.sent).foldl Deed.next none = none := by
    cases await <;> exact ⟨rfl, rfl⟩
  have free' : outstanding (d.act a).deeds = none := by
    rw [deeds, outstanding_append, free, List.map_nil, List.map_nil, List.nil_append,
      List.append_nil]
    exact answers.2
  refine ⟨h.consistent, h.linked, peer ▸ acted.calm, h.orders, ?_, ?_, ?_, ?_⟩
  · rw [free']
    exact fun _ held => nomatch held
  · cases await with
    | waits inside staying =>
      exact .unsaid phase arrives untold' (peer ▸ staying) (.inr ⟨rfl, peer ▸ inside⟩)
    | greets inside =>
      have left : (d.act a).peer.inside = none := by rw [peer, inside]
      exact .said phase arrives (fun _ mem => nomatch mem) rfl (by rw [left]; nofun)
  · rw [free', arrives, answers.1, untold']
    have going : d.session.phase ≠ .breaked := by rw [phase]; nofun
    exact .free going
  · rw [free']
    exact fun _ held => nomatch held

/-- A process that waits for a controller goes on waiting, or says hello. -/
theorem Sound.acted_waiting (h : d.Sound) {a : Activity} (allowed : d.Allows a)
    (waiting : d.begun = false ∨ d.peer.inside = some .attach) :
    ∃ p' sent, d.peer.Acted a p' [] sent [] ∧ p'.Await sent ∧
      d.session.phase = .connecting ∧ d.toSession = [] ∧ d.toPeer = [] := by
  cases h.greeting with
  | said _ _ _ begun inside | heard _ _ begun inside =>
    rcases waiting with fresh | waiting
    · rw [begun] at fresh
      nomatch fresh
    · exact absurd waiting inside
  | unsaid phase unheard untold staying place =>
    have fresh : messages d.peer.link.inbox = [] := (List.append_eq_nil_iff.1 untold).1
    have place : a = .attach ∨ (a = .wake ∧ d.peer.inside = some .attach) := by
      cases a with
      | attach => exact .inl rfl
      | wake =>
        rcases place with ⟨_, inside⟩ | ⟨_, inside⟩
        · have awake : d.peer.inside.isSome = true := allowed
          rw [inside] at awake
          nomatch awake
        · exact .inr ⟨rfl, inside⟩
      | before | after | compilerError =>
        rcases place with ⟨fresh, _⟩ | ⟨_, inside⟩
        · rw [allowed.1] at fresh
          nomatch fresh
        · rw [allowed.2] at inside
          nomatch inside
    obtain ⟨handled, answers, q, news, attended, comes⟩ := h.calm.comes a
    obtain ⟨rfl, rfl, idle, await⟩ := comes.await attended fresh staying place
    have acted := attended.acted (comes.follows attended.calm)
    rw [idle] at acted
    exact ⟨_, news, acted, await, phase, unheard, untold⟩

/-- A process that has said hello runs hooks. -/
theorem Sound.acted_hook (h : d.Sound) {a : Activity} (allowed : d.Allows a)
    (begun : d.begun = true) (said : d.peer.inside ≠ some .attach) :
    ∃ p' handled sent ran, d.peer.Acted a p' handled sent ran ∧
      p'.Act (outstanding d.deeds) handled sent ran := by
  have hook : a ≠ .attach := by
    rintro rfl
    have fresh : d.begun = false := allowed
    rw [begun] at fresh
    nomatch fresh
  have outside : ∀ c, a = .before c → d.peer.inside = none := by
    rintro c rfl
    exact allowed.2
  obtain ⟨handled, answers, q, news, attended, comes⟩ := h.calm.comes a
  exact ⟨_, handled, answers ++ news, _, attended.acted (comes.follows attended.calm),
    comes.act attended h.keeps hook said outside⟩

/-- Whether the process still waits for a controller, or runs hooks. -/
theorem begun_or_waiting (d : Duo ι σ) : (d.begun = false ∨ d.peer.inside = some .attach) ∨
    (d.begun = true ∧ d.peer.inside ≠ some .attach) := by
  by_cases waiting : d.begun = false ∨ d.peer.inside = some .attach
  · exact .inl waiting
  · rw [not_or] at waiting
    exact .inr ⟨eq_true_of_ne_false waiting.1, waiting.2⟩

/-- The process does something. -/
theorem Sound.act (h : d.Sound) {a : Activity} (allowed : d.Allows a) : (d.act a).Sound := by
  rcases d.begun_or_waiting with waiting | ⟨begun, said⟩
  · obtain ⟨p', sent, acted, await, phase, unheard, untold⟩ := h.acted_waiting allowed waiting
    exact h.await acted await phase unheard untold
  · obtain ⟨p', handled, sent, ran, acted, act⟩ := h.acted_hook allowed begun said
    exact h.hook acted act begun said

/-! ## What arrives -/

/-- What arrives at the process was on its way before. -/
theorem toPeer_arrive {es : List LinkEvent} {rest : List Message}
    (up : d.peer.link.aborted = false) (queue : d.outward = messages es ++ rest) :
    ({ d with peer := d.peer.arrive es, outward := rest } : Duo ι σ).toPeer = d.toPeer := by
  rw [toPeer, toPeer, queue, ← List.append_assoc, ← messages_append, Peer.arrive,
    Link.push_of_up up]

/-- What arrives at the session was on its way before. -/
theorem toSession_arrive {es : List LinkEvent} {rest : List Message} {l : Link}
    (link : d.session.link = some l) (up : l.aborted = false)
    (queue : d.inward = messages es ++ rest) :
    ({ d with session := d.session.arrive es, inward := rest } : Duo ι σ).toSession =
      d.toSession := by
  have link' : (d.session.arrive es).link = some (l.push es) := by
    rw [Session.arrive, link]
    rfl
  rw [toSession_of_link link', toSession_of_link link, queue, Link.push_of_up up, messages_append,
    List.append_assoc]

/-- Events arrive at the process. -/
theorem Sound.peerArrives (h : d.Sound) {es : List LinkEvent} {rest : List Message}
    (queue : d.outward = messages es ++ rest)
    (lasting : ∀ e ∈ es, ∀ reason, e ≠ .disconnected reason) :
    ({ d with peer := d.peer.arrive es, outward := rest } : Duo ι σ).Sound := by
  have pushed : d.peer.arrive es =
      { d.peer with link := { d.peer.link with inbox := d.peer.link.inbox ++ es } } := by
    rw [Peer.arrive, Link.push_of_up h.calm.opened.up]
  have orders := h.orders
  rw [queue] at orders
  have same := toPeer_arrive h.calm.opened.up queue
  rw [pushed] at same ⊢
  refine ⟨h.consistent, h.linked, ⟨⟨h.calm.opened.takes, h.calm.opened.up⟩, ?_, ?_, h.calm.lost,
    h.calm.outbox⟩, fun m mem => orders m (List.mem_append_right _ mem), h.keeps, ?_, ?_, h.since⟩
  · exact fun e mem => (List.mem_append.1 mem).elim (h.calm.lasting e) (lasting e)
  · intro m mem
    have mem : m ∈ messages (d.peer.link.inbox ++ es) := mem
    rw [messages_append] at mem
    rcases List.mem_append.1 mem with mem | mem
    · exact h.calm.orders m mem
    · exact orders m (List.mem_append_left _ mem)
  · cases h.greeting with
    | unsaid phase unheard untold staying place =>
      exact .unsaid phase unheard (same.trans untold) staying place
    | said phase arrives news begun inside => exact .said phase arrives news begun inside
    | heard connected news begun inside => exact .heard connected news begun inside
  · have stage := h.stage
    rw [← same] at stage
    exact stage

/-- Events arrive at the session. -/
theorem Sound.sessionArrives (h : d.Sound) {es : List LinkEvent} {rest : List Message}
    (queue : d.inward = messages es ++ rest)
    (lasting : ∀ e ∈ es, ∀ reason, e ≠ .disconnected reason) :
    ({ d with session := d.session.arrive es, inward := rest } : Duo ι σ).Sound := by
  obtain ⟨l, link, opened, lasting'⟩ := h.linked
  have link' : (d.session.arrive es).link = some { l with inbox := l.inbox ++ es } := by
    rw [Session.arrive, link, ← Link.push_of_up opened.up]
    rfl
  have same := toSession_arrive link opened.up queue
  refine ⟨h.consistent.arrive es, ⟨_, link', ⟨opened.takes, opened.up⟩, ?_⟩, h.calm, h.orders,
    h.keeps, ?_, ?_, h.since⟩
  · exact fun e mem => (List.mem_append.1 mem).elim (lasting' e) (lasting e)
  · cases h.greeting with
    | unsaid phase unheard untold staying place =>
      exact .unsaid phase (same.trans unheard) untold staying place
    | said phase arrives news begun inside =>
      exact .said phase (same.trans arrives) news begun inside
    | heard connected news begun inside =>
      exact .heard connected (same ▸ news) begun inside
  · rw [same]
    exact h.stage

/-! ## The system -/

theorem lasting_of_signal {e : LinkEvent} (signal : e.isSignal = true) :
    messages [e] = [] ∧ ∀ e' ∈ [e], ∀ reason, e' ≠ .disconnected reason := by
  constructor
  · cases e <;> first | rfl | nomatch signal
  · intro e' mem reason eq
    rw [List.mem_singleton.1 mem] at eq
    rw [eq] at signal
    nomatch signal

theorem lasting_of_message (m : Message) :
    ∀ e ∈ [LinkEvent.message m], ∀ reason, e ≠ .disconnected reason := by
  intro e mem reason
  rw [List.mem_singleton.1 mem]
  nofun

/-- Every step keeps everything in order. -/
theorem Sound.step (h : d.Sound) (step : d.Step d') : d'.Sound := by
  cases step with
  | take t own => exact h.take own
  | act a allowed => exact h.act allowed
  | outward next => exact h.peerArrives next (lasting_of_message _)
  | inward next => exact h.sessionArrives next (lasting_of_message _)
  | peerSignal e signal =>
    obtain ⟨none, lasting⟩ := lasting_of_signal signal
    exact h.peerArrives (by rw [none, List.nil_append]) lasting
  | sessionSignal e signal =>
    obtain ⟨none, lasting⟩ := lasting_of_signal signal
    exact h.sessionArrives (by rw [none, List.nil_append]) lasting

/-- A session that has just adopted a link to a process that has not begun. -/
theorem sound_start {s : Session ι} (h : s.Consistent) {l k : Link} (link : s.link = some l)
    (phase : s.phase = .connecting) (ours : l.Open) (theirs : k.Open) (fresh : l.inbox = [])
    (fresh' : k.inbox = []) (inspector : Inspector σ) (objects : σ) (capacity : Nat) :
    (⟨s, .listen k inspector objects capacity, [], [], false, []⟩ : Duo ι σ).Sound := by
  let d : Duo ι σ := ⟨s, .listen k inspector objects capacity, [], [], false, []⟩
  have unheard : d.toSession = [] := by
    rw [toSession_of_link (d := d) link, fresh]
    rfl
  have inbox : d.peer.link.inbox = [] := fresh'
  have untold : d.toPeer = [] := by
    rw [toPeer, inbox]
    rfl
  have going : s.phase ≠ .breaked := by rw [phase]; nofun
  have calm : d.peer.Calm := ⟨theirs, by rw [inbox]; exact List.forall_mem_nil _,
    by rw [inbox]; exact List.forall_mem_nil _, rfl, rfl⟩
  refine ⟨h, ⟨l, link, ours, by rw [fresh]; exact List.forall_mem_nil _⟩, calm,
    List.forall_mem_nil _, (fun _ held => nomatch held),
    .unsaid phase unheard untold rfl (.inl ⟨rfl, rfl⟩), ?_, (fun _ held => nomatch held)⟩
  rw [unheard, untold]
  exact .free going

theorem Reachable.sound (h : d.Reachable) : d.Sound := by
  induction h with
  | step _ step ih => exact ih.step step
  | @start adopted s reached t l k adopts ours theirs fresh fresh' =>
    exact sound_start (reached.consistent.1.after t) (s.link_of_adopts adopts)
      (s.phase_of_adopts adopts) ours theirs fresh fresh' _ _ _

/-! ## The pause and its announcement -/

/-- The process is held at a pause that it has announced: nothing let it go on since, and no call
was let through. It is before the announced call, unless it was told to exit. -/
structure Holds (d : Duo ι σ) (pause : Pause) : Prop where
  announced : outstanding d.deeds = some pause
  since : ∃ earlier later,
    d.deeds = earlier ++ .sent (.paused pause) :: later ∧ ∀ c, .ran c ∉ later
  paused : d.peer.breaks.paused = true
  place : d.peer.inside = some (.call pause.call) ∨ d.peer.terminating = true

/-- While a pause is outstanding, a hook that handles no order to go on lets no call through. -/
theorem ran_nil {p' : Peer σ} {announced : Option Pause} {handled sent : List Message}
    {ran : List Call} (act : p'.Act announced handled sent ran)
    (none : handled.countP Message.releases = 0) (held : announced.isSome = true) : ran = [] := by
  cases act with
  | quiet _ _ idle =>
    rw [stillOutstanding_of_countP none] at idle
    exact idle held
  | announces => rfl

/-- In a step, the process lets a call through only if no pause is outstanding, or if the order to
go on has been sent. -/
theorem Sound.idle (h : d.Sound) (held : (outstanding d.deeds).isSome = true)
    (none : d.toPeer.countP Message.releases = 0) (step : d.Step d') :
    ∃ new, d'.deeds = d.deeds ++ new ∧ ∀ c, .ran c ∉ new := by
  cases step with
  | act a allowed =>
    rcases d.begun_or_waiting with waiting | ⟨begun, said⟩
    · obtain ⟨p', sent, acted, _⟩ := h.acted_waiting allowed waiting
      have deeds := (act_eq acted).2.2.2
      rw [List.map_nil, List.map_nil, List.append_nil] at deeds
      exact ⟨_, deeds, ran_not_mem [] sent⟩
    · obtain ⟨p', handled, sent, ran, acted, act⟩ := h.acted_hook allowed begun said
      obtain ⟨_, _, split, deeds⟩ := act_eq acted
      rw [split, List.countP_append] at none
      rw [ran_nil act (Nat.eq_zero_of_add_eq_zero_right none) held, List.map_nil,
        List.append_nil] at deeds
      exact ⟨_, deeds, ran_not_mem handled sent⟩
  | _ => exact ⟨[], (List.append_nil _).symm, fun _ mem => nomatch mem⟩

/-- **A pause is in one place.** In every duo that comes about, the announcements of pauses on their
way to the session, the session that is paused, and the orders to go on that are on their way to the
process are one if the process has announced a pause and was not let go on since, and none
otherwise. A session that is paused knows the pause at which the process is held, and no step lets a
call through. -/
theorem break_token (h : d.Reachable) :
    (d.toSession.filterMap Message.pause?).length
        + (if d.session.phase = .breaked then 1 else 0) + d.toPeer.countP Message.releases
      = (if (outstanding d.deeds).isSome then 1 else 0) ∧
    (d.session.phase = .breaked → ∃ pause, d.session.lastBreak = some pause ∧ d.Holds pause ∧
      ∀ d', d.Step d' → ∃ new, d'.deeds = d.deeds ++ new ∧ ∀ c, .ran c ∉ new) := by
  have sound := h.sound
  refine ⟨sound.stage.balance, fun breaked => ?_⟩
  obtain ⟨pause, announced, known, none⟩ := sound.stage.of_breaked breaked
  obtain ⟨paused, place⟩ := sound.keeps pause announced
  have held : (outstanding d.deeds).isSome = true := by rw [announced]; rfl
  exact ⟨pause, known, ⟨announced, sound.since pause announced, paused, place⟩,
    fun d' step => sound.idle held none step⟩

/-- A process says hello and pauses before its first call. -/
theorem break_token_first_call :
    ∃ d : Duo Unit Exhibition, d.Reachable ∧ d.session.phase = .breaked ∧
      (d.toSession.filterMap Message.pause?).length + 1 + d.toPeer.countP Message.releases = 1 ∧
      ∃ pause, d.session.lastBreak = some pause ∧ d.Holds pause := by
  have opened : (Link.withBudget none).Open := ⟨fun _ _ => rfl, rfl⟩
  have start : Reachable _ :=
    .start (ι := Unit) .new (t := .connectWith (.withBudget none)) rfl opened opened rfl rfl
      Exhibition.inspector default 8
  have waiting := start.step (.act .attach rfl)
  have greeted := (waiting.step (.peerSignal .connected rfl)).step (.act .wake rfl)
  have running := (greeted.step (.inward rfl)).step (.take .next rfl)
  have paused := (running.step (.act (.before default) ⟨rfl, rfl⟩)).step (.inward rfl)
  obtain ⟨d, reachable, breaked⟩ : ∃ d : Duo Unit Exhibition,
      d.Reachable ∧ d.session.phase = .breaked := ⟨_, paused.step (.take .next rfl), rfl⟩
  obtain ⟨balance, held⟩ := break_token reachable
  obtain ⟨pause, known, holds, _⟩ := held breaked
  rw [if_pos breaked, holds.announced] at balance
  exact ⟨d, reachable, breaked, balance, pause, known, holds⟩

end Duo

end CallDebugger
