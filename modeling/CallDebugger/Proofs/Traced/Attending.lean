import CallDebugger.Proofs.Duo.PeerActs

/-!
# What a debug server makes of what arrives

Over whatever link, a server handles messages up to the event by which it loses the link. While it
handles what has arrived, its answers wait in the outbox; they go out when all is handled, and they
are dropped if the link was lost meanwhile (`Peer.Minds`). Every activity does that first, or takes
nothing, and then settles the rest (`Peer.Tidy.perform`).
-/

namespace CallDebugger

variable {σ : Type}

/-- An event by which a server loses its link: the link has failed, or a message has come that no
controller sends. -/
def LinkEvent.isFatal : LinkEvent → Bool
  | .message m => !m.isOrder
  | .disconnected _ => true
  | .connected | .sendingStarted | .sendingStopped => false

/-- The reply to a request whose errand has come to something. -/
def Request.replyBy (r : Request) : Except String (Option Resource) → Reply
  | .ok resource => .success r.id resource
  | .error reason => .failure r.id reason

namespace Inspector

theorem answer_eq (i : Inspector σ) (r : Request) (s : σ) :
    i.answer r s = (r.replyBy (i.run r.errand s).1, (i.run r.errand s).2) := by
  unfold answer
  rcases i.run r.errand s with ⟨_ | _, _⟩ <;> rfl

/-- The answers to messages, in order: the calls of a window of the history, and what the errands
come to, each on the objects that the ones before it have left. -/
def answers (i : Inspector σ) (h : History) (s : σ) : List Message → List Message
  | [] => []
  | .queryTrace w :: ms => .trace (h.query w) :: i.answers h s ms
  | .request r :: ms =>
    .reply (r.replyBy (i.run r.errand s).1) :: i.answers h (i.run r.errand s).2 ms
  | _ :: ms => i.answers h s ms

theorem answers_append (i : Inspector σ) (h : History) (s : σ) (ms ns : List Message) :
    i.answers h s (ms ++ ns) = i.answers h s ms ++ i.answers h (i.objectsAfter s ms) ns := by
  induction ms generalizing s with
  | nil => rfl
  | cons m ms ih =>
    cases m with
    | queryTrace w => exact congrArg _ (ih s)
    | request r =>
      have later := ih (i.run r.errand s).2
      rw [List.cons_append, answers, answers, objectsAfter, answer_eq, later]
      rfl
    | _ => exact ih s

end Inspector

namespace Peer

/-! ## Handling what has arrived -/

/-- The messages that a server handles of what has arrived: those before it loses the link. -/
def heard (p : Peer σ) (es : List LinkEvent) : List Message :=
  if p.lost.isSome then [] else messages (es.takeWhile fun e => !e.isFatal)

variable {p q p' p₁ : Peer σ} {es : List LinkEvent}

/-- What a server has made of events, its answers waiting. -/
structure Hears (p : Peer σ) (es : List LinkEvent) (q : Peer σ) : Prop where
  link : q.link = p.link
  inside : q.inside = p.inside
  inspector : q.inspector = p.inspector
  history : q.history = p.history
  objects : q.objects = p.inspector.objectsAfter p.objects (p.heard es)
  outbox : q.outbox = p.outbox ++ p.inspector.answers p.history p.objects (p.heard es)
  lost : q.lost.isSome = (p.lost.isSome || es.any LinkEvent.isFatal)

theorem heard_nil (p : Peer σ) : p.heard [] = [] := by
  unfold heard
  split <;> rfl

theorem heard_of_lost (lost : p.lost.isSome = true) (es : List LinkEvent) : p.heard es = [] :=
  if_pos lost

theorem heard_cons {e : LinkEvent} (lost : p₁.lost.isSome = (p.lost.isSome || e.isFatal)) :
    p.heard (e :: es) = p.heard [e] ++ p₁.heard es := by
  cases gone : p.lost.isSome with
  | true =>
    rw [gone, Bool.true_or] at lost
    rw [heard_of_lost gone, heard_of_lost gone, heard_of_lost lost]
    rfl
  | false =>
    rw [gone, Bool.false_or] at lost
    cases fatal : e.isFatal with
    | true =>
      rw [fatal] at lost
      rw [heard_of_lost lost]
      simp [heard, gone, fatal]
    | false =>
      rw [fatal] at lost
      simp [heard, gone, fatal, lost, messages, List.filterMap_cons]
      split <;> simp

theorem hears_nil (p : Peer σ) : p.Hears [] p where
  link := rfl
  inside := rfl
  inspector := rfl
  history := rfl
  objects := by rw [heard_nil]; rfl
  outbox := by
    rw [heard_nil]
    exact (List.append_nil _).symm
  lost := (Bool.or_false _).symm

/-- What comes of one event, and then of the others. -/
theorem Hears.cons {e : LinkEvent} (first : p.Hears [e] p₁) (later : p₁.Hears es q) :
    p.Hears (e :: es) q := by
  have lost : p₁.lost.isSome = (p.lost.isSome || e.isFatal) := by
    rw [first.lost, List.any_cons, List.any_nil, Bool.or_false]
  have heard : p.heard (e :: es) = p.heard [e] ++ p₁.heard es := heard_cons lost
  constructor
  · rw [later.link, first.link]
  · rw [later.inside, first.inside]
  · rw [later.inspector, first.inspector]
  · rw [later.history, first.history]
  · rw [later.objects, first.inspector, first.objects, heard, Inspector.objectsAfter_append]
  · rw [later.outbox, first.outbox, first.inspector, first.history, first.objects, heard,
      Inspector.answers_append, List.append_assoc]
  · rw [later.lost, lost, List.any_cons, Bool.or_assoc]

/-- An event that brings nothing to handle. -/
theorem hears_nothing {e : LinkEvent} (quiet : p.heard [e] = []) (connected : Bool)
    {lost : Option String} (loses : lost.isSome = (p.lost.isSome || e.isFatal)) :
    p.Hears [e] { p with connected, lost } where
  link := rfl
  inside := rfl
  inspector := rfl
  history := rfl
  objects := by
    rw [quiet]
    rfl
  outbox := by
    rw [quiet]
    exact (List.append_nil _).symm
  lost := by rw [loses, List.any_cons, List.any_nil, Bool.or_false]

theorem heard_order (up : p.lost = none) {m : Message} (order : m.isOrder = true) :
    p.heard [.message m] = [m] := by
  simp [heard, up, LinkEvent.isFatal, order, messages, LinkEvent.message?]

theorem heard_alien {m : Message} (alien : m.isOrder = false) : p.heard [.message m] = [] := by
  simp [heard, LinkEvent.isFatal, alien, messages]

/-- A message of a kind that no controller sends is not accepted. -/
theorem accept_of_alien {m : Message} (alien : m.isOrder = false) :
    p.accept m = .error (.unhandled m.kind) := by
  cases m with
  | hello | paused | trace | reply => rfl
  | _ => nomatch alien

/-- A message of a kind that a controller sends is handled. -/
theorem hears_order (up : p.lost = none) {m : Message} (order : m.isOrder = true) :
    ∃ q, p.accept m = .ok q ∧ p.Hears [.message m] q := by
  have heard : p.heard [.message m] = [m] := heard_order up order
  have lost : p.lost.isSome = (p.lost.isSome || [LinkEvent.message m].any LinkEvent.isFatal) := by
    simp [LinkEvent.isFatal, order]
  cases m with
  | configuration | proceed | terminate | breakpoints =>
    refine ⟨_, rfl, rfl, rfl, rfl, rfl, ?_, ?_, lost⟩
    · rw [heard]
      rfl
    · rw [heard]
      exact (List.append_nil _).symm
  | queryTrace w =>
    refine ⟨_, rfl, rfl, rfl, rfl, rfl, ?_, ?_, lost⟩
    · rw [heard]
      rfl
    · rw [heard]
      rfl
  | request r =>
    refine ⟨{ p with
      objects := (p.inspector.answer r p.objects).2
      outbox := p.outbox ++ [.reply (p.inspector.answer r p.objects).1] }, rfl, rfl, rfl, rfl, rfl,
      ?_, ?_, lost⟩
    · rw [heard]
      rfl
    · rw [heard, p.inspector.answer_eq]
      rfl
  | hello | paused | trace | reply => nomatch order

/-- What comes of one event. -/
theorem hears_handle (p : Peer σ) (e : LinkEvent) : p.Hears [e] (p.handle e) := by
  have idle {e : LinkEvent} (none : messages [e] = []) : p.heard [e] = [] := by
    unfold heard
    split
    · rfl
    · rw [List.takeWhile_cons]
      split
      · exact none
      · rfl
  cases e with
  | connected | sendingStarted | sendingStopped =>
    exact hears_nothing (idle rfl) _ (Bool.or_false _).symm
  | disconnected reason => exact hears_nothing (idle rfl) _ (Bool.or_true _).symm
  | message m =>
    cases gone : p.lost.isSome with
    | true =>
      rw [handle, if_pos gone]
      apply hears_nothing (heard_of_lost gone _) p.connected
      rw [gone, Bool.true_or]
    | false =>
      have up : p.lost = none := Option.isNone_iff_eq_none.1 (by simpa using gone)
      rw [handle, if_neg (by simp [gone])]
      cases order : m.isOrder with
      | true =>
        obtain ⟨q, accepts, hears⟩ := hears_order up order
        rw [accepts]
        exact hears
      | false =>
        have fatal : (LinkEvent.message m).isFatal = true := by simp [LinkEvent.isFatal, order]
        rw [accept_of_alien order]
        apply hears_nothing (heard_alien order) p.connected
        rw [fatal, Bool.or_true]
        rfl

theorem hears_foldl (p : Peer σ) (es : List LinkEvent) : p.Hears es (es.foldl handle p) := by
  induction es generalizing p with
  | nil => exact p.hears_nil
  | cons e es ih => exact (p.hears_handle e).cons (ih (p.handle e))

/-! ## Sending the answers -/

theorem flush_snd (p : Peer σ) :
    p.flush.2 = { p with
      outbox := [], link := if p.lost.isSome then p.link else (p.link.offer p.outbox).2 } := by
  cases gone : p.lost.isSome with
  | true =>
    rw [flush_of_lost gone]
    rfl
  | false =>
    rw [flush_of_up (Option.isSome_eq_false_iff.1 gone |> Option.isNone_iff_eq_none.1)]
    rfl

/-- No answers wait, and the link is torn down only after it was lost. -/
structure Tidy (p : Peer σ) : Prop where
  outbox : p.outbox = []
  lost : p.link.aborted = true → p.lost.isSome = true

/-- What a server has made of the events that it took from the link: all that had arrived, or
none. -/
structure Minds (p : Peer σ) (es : List LinkEvent) (q : Peer σ) : Prop where
  inside : q.inside = p.inside
  inspector : q.inspector = p.inspector
  history : q.history = p.history
  objects : q.objects = p.inspector.objectsAfter p.objects (p.heard es)
  lost : q.lost.isSome = (p.lost.isSome || es.any LinkEvent.isFatal)
  tidy : q.Tidy
  taken : es = p.link.inbox ∧ q.link.inbox = [] ∨ es = [] ∧ q.link.inbox = p.link.inbox
  grows : p.link.Grows q.link
    (if q.lost.isSome then [] else p.inspector.answers p.history p.objects (p.heard es))

theorem Tidy.minds_nil (tidy : p.Tidy) : p.Minds [] p where
  inside := rfl
  inspector := rfl
  history := rfl
  objects := by
    rw [heard_nil]
    rfl
  lost := (Bool.or_false _).symm
  tidy := tidy
  taken := .inr ⟨rfl, rfl⟩
  grows := by
    rw [heard_nil]
    simp only [Inspector.answers, ite_self]
    exact Link.grows_of_eq rfl rfl

/-- A server handles and answers what has arrived. -/
theorem Tidy.minds_pump (tidy : p.Tidy) : ∃ es, p.Minds es p.pump.2 := by
  rw [pump, flush_snd, drain]
  by_cases down : p.link.aborted = true
  · have same : { p with outbox := [], link := p.link } = p := by
      rw [← tidy.outbox]
    rw [if_pos down]
    simp only [if_pos (tidy.lost down), same]
    exact ⟨[], tidy.minds_nil⟩
  rw [if_neg down]
  rw [Bool.not_eq_true] at down
  have hears := hears_foldl { p with link := { p.link with inbox := [] } } p.link.inbox
  generalize p.link.inbox.foldl handle { p with link := { p.link with inbox := [] } } = q at hears ⊢
  have outbox : q.outbox = p.inspector.answers p.history p.objects (p.heard p.link.inbox) := by
    rw [hears.outbox, tidy.outbox]
    rfl
  refine ⟨p.link.inbox, hears.inside, hears.inspector, hears.history, hears.objects, hears.lost,
    ⟨rfl, ?_⟩, .inl ⟨rfl, ?_⟩, ?_⟩
  · cases q.lost.isSome with
    | true =>
      intro _
      rfl
    | false =>
      simp only [Bool.false_eq_true, if_false, hears.link, Link.offer_frame, down]
      nofun
  · cases q.lost.isSome with
    | true => simp only [if_true, hears.link]
    | false => simp only [Bool.false_eq_true, if_false, hears.link, Link.offer_frame]
  · cases q.lost.isSome with
    | true =>
      simp only [if_true, hears.link]
      exact Link.grows_of_eq rfl rfl
    | false =>
      simp only [Bool.false_eq_true, if_false, hears.link, outbox, Link.offer_inbox]
      obtain ⟨attempts, sent⟩ := Link.grows_offer down
        (p.inspector.answers p.history p.objects (p.heard p.link.inbox))
      exact ⟨attempts, sent⟩

/-! ## What activities come to -/

/-- The greeting of a server that was to introduce the process, if it came to that. -/
def greeting (p : Peer σ) : Except PeerError Unit → List Message
  | .ok () => [.hello (p.inspector.processName p.objects)]
  | .error _ => []

/-- What an activity that came to a result, and to the server `p'`, has to say beside answers: that
the process pauses before a call, or that it is there. -/
def announcement (p : Peer σ) (a : Activity) (r : Outcome) (p' : Peer σ) : List Message :=
  match a, r with
  | .before c, none => [.paused (p'.pauseAt c)]
  | .attach, some r => p'.greeting r
  | .wake, some r =>
    match p.inside with
    | some .attach => p'.greeting r
    | _ => []
  | _, _ => []

/-- The history after an activity that came to a result: a call that is let through is added, and
one that has returned is amended. -/
def recorded (p : Peer σ) (a : Activity) (r : Outcome) (h : History) : History :=
  match a with
  | .after result error output => h.returned result error output
  | a => (through (p.awaited a) r).foldl History.add h

/-- What a server makes of itself once it has handled what it took: the history, and what it says
beside its answers. -/
structure Settles (q : Peer σ) (history : History) (announced : List Message) (p' : Peer σ) :
    Prop where
  inspector : p'.inspector = q.inspector
  objects : p'.objects = q.objects
  lost : p'.lost = q.lost
  tidy : p'.Tidy
  history : p'.history = history
  dropped : p'.link.inbox = q.link.inbox ∨ p'.link.inbox = [] ∧ q.lost.isSome = true
  grows : q.link.Grows p'.link announced

/-- It says nothing. -/
theorem Tidy.settles_still (tidy : q.Tidy) (history : History) (breaks : BreakState)
    (inside : Option Hook) : q.Settles history [] { q with history, breaks, inside } where
  inspector := rfl
  objects := rfl
  lost := rfl
  tidy := ⟨tidy.outbox, tidy.lost⟩
  history := rfl
  dropped := .inl rfl
  grows := Link.grows_of_eq rfl rfl

/-- It gives up a link that is lost. -/
theorem Tidy.settles_lost (tidy : q.Tidy) (lost : q.lost.isSome = true) (history : History)
    (breaks : BreakState) (inside : Option Hook) :
    q.Settles history [] { q with link := q.link.abort, history, breaks, inside } where
  inspector := rfl
  objects := rfl
  lost := rfl
  tidy := ⟨tidy.outbox, fun _ => lost⟩
  history := rfl
  dropped := .inr ⟨rfl, lost⟩
  grows := Link.grows_of_eq rfl rfl

/-- It says something, if the link takes that. -/
theorem Tidy.settles_send (tidy : q.Tidy) (up : q.lost = none) {m : Message}
    {announced : List Message} (told : (q.link.send m).1 = .ok () → announced = [m])
    (breaks : BreakState) (inside : Option Hook) :
    q.Settles q.history announced { q with link := (q.link.send m).2, breaks, inside } := by
  have aborted : q.link.aborted = false := by
    rw [← Bool.not_eq_true]
    intro down
    have lost := tidy.lost down
    rw [up] at lost
    nomatch lost
  have frame := q.link.send_frame m
  refine ⟨rfl, rfl, rfl, ⟨tidy.outbox, ?_⟩, rfl, .inl frame.2.1, Link.grows_send aborted m told⟩
  show (q.link.send m).2.aborted = true → _
  rw [frame.2.2, aborted]
  nofun

theorem Tidy.settles_refused (tidy : q.Tidy) (up : q.lost = none) {m : Message} {e : LinkError}
    {link : Link} (sent : q.link.send m = (.error e, link)) (breaks : BreakState)
    (inside : Option Hook) : q.Settles q.history [] { q with link, breaks, inside } := by
  have settles : q.Settles q.history [] { q with link := (q.link.send m).2, breaks, inside } :=
    tidy.settles_send up (by simp [sent]) breaks inside
  rw [sent] at settles
  exact settles

theorem Tidy.settles_sent (tidy : q.Tidy) (up : q.lost = none) {m : Message} {link : Link}
    (sent : q.link.send m = (.ok (), link)) (breaks : BreakState) (inside : Option Hook) :
    q.Settles q.history [m] { q with link, breaks, inside } := by
  have settles := tidy.settles_send up (m := m) (fun _ => rfl) breaks inside
  rw [sent] at settles
  exact settles

/-- It leaves off, because it has no link or was told to exit. -/
theorem Checked.settles {r : Except PeerError Unit} (checked : q.Checked r p') (tidy : q.Tidy)
    (inside : Option Hook) : q.Settles q.history [] { p' with inside } := by
  cases checked with
  | gone lost => exact tidy.settles_lost (by rw [lost]; rfl) q.history q.breaks inside
  | told | free => exact tidy.settles_still q.history q.breaks inside

/-- It goes on only with a link that is not lost. -/
theorem Checked.up (checked : q.Checked (.ok ()) p') : q.lost = none := by
  cases checked with
  | free up staying => exact up

/-- What is added to the history by a hook that may let calls through, and what it says, is told by
its result. -/
def SettlesAs (p q : Peer σ) (a : Activity) (r : Outcome) (p' : Peer σ) : Prop :=
  q.Settles ((through (p.awaited a) r).foldl History.add q.history) (p.announcement a r p') p'

/-- The hook before a call, once what it took is handled. -/
theorem Begins.settles {c : Call} {r : Outcome} (begins : q.Begins c r p') (tidy : q.Tidy) :
    p.SettlesAs q (.before c) r p' := by
  cases begins with
  | barred barred => exact barred.settles tidy none
  | passes => exact tidy.settles_still _ q.breaks none
  | unannounced free _ refused => exact tidy.settles_refused free.up refused _ none
  | stops free _ taken => exact tidy.settles_sent free.up taken _ (some (.call c))

/-- The hook that waits, once what it took is handled. -/
theorem Resumes.settles {hook : Hook} {r : Outcome} (resumes : q.Resumes hook r p') (tidy : q.Tidy)
    (inside : p.inside = some hook) : p.SettlesAs q .wake r p' := by
  cases resumes with
  | barred barred =>
    unfold SettlesAs
    simp only [awaited, announcement, inside]
    cases hook <;> exact barred.settles tidy none
  | waits | rests =>
    exact tidy.settles_still _ q.breaks q.inside
  | ungreeted free refused =>
    unfold SettlesAs
    simp only [awaited, announcement, inside]
    exact tidy.settles_refused free.up refused q.breaks none
  | greets free taken =>
    unfold SettlesAs
    simp only [awaited, announcement, inside]
    exact tidy.settles_sent free.up taken q.breaks none
  | goesOn =>
    unfold SettlesAs
    simp only [awaited, announcement, inside]
    exact tidy.settles_still _ q.breaks none

/-- The hook after a call amends the newest call, and leaves the link. -/
theorem Tidy.settles_after (tidy : p.Tidy) (result : Option Value) (error : UInt32)
    (output : Option String) :
    p.Settles (p.history.returned result error output) [] (p.afterCall result error output).2 := by
  obtain ⟨breaks, r, p', -, performs, checked⟩ := p.checked_afterCall result error output
  rw [performs]
  cases checked with
  | gone lost =>
    have lost : p.lost.isSome = true := Option.isSome_iff_exists.2 ⟨_, lost⟩
    exact tidy.settles_lost lost _ breaks p.inside
  | told | free => exact tidy.settles_still _ breaks p.inside

/-- A hook that could not send its answers says nothing more. -/
theorem Tidy.settles_error (tidy : q.Tidy) (a : Activity) (e : PeerError) :
    p.SettlesAs q a (some (.error e)) { q with inside := none } := by
  have silent : p.announcement a (some (.error e)) { q with inside := none } = [] := by
    cases a with
    | wake =>
      simp only [announcement]
      split <;> rfl
    | attach | before | after | compilerError => rfl
  unfold SettlesAs
  rw [silent]
  exact tidy.settles_still q.history q.breaks none

theorem Tidy.settles_attach (tidy : p.Tidy) :
    p.SettlesAs p .attach p.waitForController.1 p.waitForController.2 := by
  obtain ⟨r, p', performs, resumes⟩ := p.resumes_waitForController
  rw [performs]
  generalize elsewhere : { p with inside := some Hook.attach } = q at resumes
  cases resumes with
  | barred barred =>
    subst elsewhere
    have barred := barred.elsewhere p.inside
    exact barred.settles tidy none
  | waits =>
    subst elsewhere
    exact tidy.settles_still _ p.breaks (some .attach)
  | ungreeted free refused =>
    subst elsewhere
    exact tidy.settles_refused free.up refused p.breaks none
  | greets free taken =>
    subst elsewhere
    exact tidy.settles_sent free.up taken p.breaks none

/-- **What an activity comes to.** The server handles and answers what it takes, and then settles
the rest. -/
theorem Tidy.perform (tidy : p.Tidy) (a : Activity) : ∃ es q, p.Minds es q ∧
    q.Settles (p.recorded a (p.perform a).1 p.history)
      (p.announcement a (p.perform a).1 (p.perform a).2) (p.perform a).2 := by
  cases a with
  | attach => exact ⟨[], p, tidy.minds_nil, tidy.settles_attach⟩
  | after result error output =>
    exact ⟨[], p, tidy.minds_nil, tidy.settles_after result error output⟩
  | compilerError =>
    exact ⟨[], p, tidy.minds_nil, tidy.settles_still p.history p.breaks.reportCompilerError p.inside⟩
  | before c =>
    obtain ⟨es, minds⟩ := tidy.minds_pump
    refine ⟨es, p.pump.2, minds, ?_⟩
    rw [← minds.history]
    obtain ⟨r, p', performs, enters⟩ := p.enters_beforeCall c
    simp only [recorded, Peer.perform, performs]
    cases enters with
    | @unanswered e q pump =>
      rw [pump] at minds ⊢
      exact minds.tidy.settles_error (.before c) e
    | begins pump begins =>
      rw [pump] at minds ⊢
      exact begins.settles minds.tidy
  | wake =>
    obtain ⟨es, minds⟩ := tidy.minds_pump
    obtain ⟨r, p', performs, continues⟩ := p.continues_wake
    simp only [recorded, Peer.perform, performs]
    cases continues with
    | idle => exact ⟨[], p, tidy.minds_nil, tidy.settles_still p.history p.breaks p.inside⟩
    | torn => exact ⟨[], p, tidy.minds_nil, tidy.settles_error .wake (.link .closed)⟩
    | @unanswered _ e q _ _ pump =>
      rw [pump] at minds
      rw [← minds.history]
      exact ⟨es, q, minds, minds.tidy.settles_error .wake e⟩
    | @resumes _ _ q _ inside _ pump resumes =>
      rw [pump] at minds
      rw [← minds.history]
      exact ⟨es, q, minds, resumes.settles minds.tidy inside⟩

end Peer

end CallDebugger
