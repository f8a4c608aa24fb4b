import CallDebugger.Proofs.Format.Built
import CallDebugger.Proofs.Traced.Owing

/-!
# Questions to a process

A link that stays up refuses what is too long for a frame, and nothing else. So a hook that fails
either reports that the link is lost or that the process is to exit, or it had something to say that
is too long (`Peer.Excused`). A controller that only asks and sets things up makes a hook fail just
by a question whose answer is too long, and then the answers behind it are not sent
(`Peer.questions_answered`).
-/

namespace CallDebugger

variable {σ : Type}

namespace Message

/-- A frame can carry the message. -/
def Fits (m : Message) : Prop := Message.codec.size m ≤ Frame.limit

instance (m : Message) : Decidable m.Fits := inferInstanceAs (Decidable (_ ≤ _))

theorem upVerdict_of_fits {m : Message} (fits : m.Fits) (n : Nat) : Link.upVerdict n m = none := by
  simp only [Link.upVerdict, Frame.header, if_neg (Nat.not_lt.2 fits)]

theorem upVerdict_of_long {m : Message} (long : ¬ m.Fits) (n : Nat) :
    Link.upVerdict n m = some (.protocol (.frameTooLarge (Message.codec.size m))) := by
  simp only [Link.upVerdict, Frame.header, if_pos (Nat.lt_of_not_le long)]

end Message

namespace Link

variable {l l' : Link} {ms : List Message} {m : Message} {e : LinkError}

/-- A link that stays up refuses what is too long. -/
theorem refusal (live : l.aborted = false) (verdict : l.verdict = upVerdict)
    (refused : l.send m = (.error e, l')) :
    ¬ m.Fits ∧ e = .protocol (.frameTooLarge (Message.codec.size m)) := by
  obtain ⟨down, -⟩ | ⟨_, -, reason, sends⟩ | ⟨-, -, sends⟩ := l.send_cases m
  · nomatch live.symm.trans down
  · cases sends.symm.trans refused
    rw [verdict] at reason
    by_cases fits : m.Fits
    · nomatch (Message.upVerdict_of_fits fits _).symm.trans reason
    · exact ⟨fits, Option.some.inj (reason.symm.trans (Message.upVerdict_of_long fits _))⟩
  · nomatch sends.symm.trans refused

theorem refusal_offer (live : l.aborted = false) (verdict : l.verdict = upVerdict)
    (refused : (l.offer ms).1 = some e) :
    ∃ m ∈ ms, ¬ m.Fits ∧ e = .protocol (.frameTooLarge (Message.codec.size m)) := by
  induction ms generalizing l with
  | nil => nomatch refused
  | cons m ms ih =>
    rw [offer] at refused
    have frame := l.send_frame m
    rcases sends : l.send m with ⟨_ | _, l'⟩ <;> rw [sends] at refused frame
    · cases refused
      exact ⟨m, List.mem_cons_self, refusal live verdict sends⟩
    · obtain ⟨n, mem, long⟩ := ih (frame.2.2.trans live) (frame.1.trans verdict) refused
      exact ⟨n, List.mem_cons_of_mem m mem, long⟩

/-- A link that stays up takes what fits. -/
theorem offer_of_fits (live : l.aborted = false) (verdict : l.verdict = upVerdict)
    (fits : ∀ m ∈ ms, m.Fits) : (l.offer ms).1 = none := by
  cases refused : (l.offer ms).1 with
  | none => rfl
  | some e =>
    obtain ⟨m, mem, long, -⟩ := refusal_offer live verdict refused
    exact absurd (fits m mem) long

/-- A link that stays up takes what comes before the first message that does not fit. -/
theorem offer_of_long (live : l.aborted = false) (verdict : l.verdict = upVerdict)
    {earlier : List Message} (fits : ∀ n ∈ earlier, n.Fits) (long : ¬ m.Fits)
    (later : List Message) :
    (l.offer (earlier ++ m :: later)).1 =
        some (.protocol (.frameTooLarge (Message.codec.size m))) ∧
      l.taken (earlier ++ m :: later) = earlier := by
  have first : l.offer earlier = (none, (l.offer earlier).2) :=
    Prod.ext (offer_of_fits live verdict fits) rfl
  have frame := l.offer_frame earlier
  rw [offer_append, taken_append first, first, taken_of_offer first]
  generalize (l.offer earlier).2 = l' at frame
  have refused : l'.send m = (.error (.protocol (.frameTooLarge (Message.codec.size m))),
      { l' with attempts := l'.attempts + 1 }) := by
    simp only [send, frame.2.2, live, Bool.false_eq_true, if_false, frame.1, verdict,
      Message.upVerdict_of_long long]
  simp only [offer, taken, refused, List.append_nil]
  exact ⟨trivial, trivial⟩

end Link

namespace Peer

variable {p₀ p q p' : Peer σ} {e : PeerError}

/-! ## Why hooks fail -/

/-- What a hook that has failed puts that down to. -/
inductive Excused (p : Peer σ) : PeerError → Prop where
  | gone {reason : String} (lost : p.lost = some reason) : Excused p (.disconnected reason)
  | told (ending : p.terminating = true) : Excused p .terminateRequested
  /-- The link was torn down when it was lost. -/
  | torn (lost : p.lost.isSome = true) : Excused p (.link .closed)
  /-- A message that only a server sends is too long for the link. -/
  | long {m : Message} (kind : m.isOrder = false) (long : ¬ m.Fits) :
      Excused p (.link (.protocol (.frameTooLarge (Message.codec.size m))))

/-- Only the loss of the link and the order to exit matter to an excuse. -/
theorem Excused.still (excused : q.Excused e) (lost : p'.lost = q.lost)
    (terminating : p'.terminating = q.terminating) : p'.Excused e := by
  cases excused with
  | gone gone => exact .gone (lost.trans gone)
  | told ending => exact .told (terminating.trans ending)
  | torn torn => exact .torn (by rw [lost, torn])
  | long kind long => exact .long kind long

theorem isOrder_of_isAnswer {m : Message} (answers : m.isAnswer = true) : m.isOrder = false := by
  cases m with
  | trace | reply => rfl
  | _ => nomatch answers

theorem Steady.refusal (h : Steady p₀ q) (verdict : p₀.link.verdict = Link.upVerdict)
    (up : q.lost = none) {m : Message} (kind : m.isOrder = false) {reason : LinkError} {link : Link}
    (refused : q.link.send m = (.error reason, link)) : q.Excused (.link reason) := by
  obtain ⟨long, rfl⟩ := Link.refusal (h.not_aborted up) (h.verdict.trans verdict) refused
  exact .long kind long

/-- A hook that could not send its answers. -/
theorem Steady.excused_pump (h : Steady p₀ p) (verdict : p₀.link.verdict = Link.upVerdict)
    (pump : p.pump = (.error e, q)) : q.Excused e := by
  have pumped := h.pumped
  rw [pump] at pumped
  cases gone : q.lost with
  | some reason => nomatch (pumped.dropped (by rw [gone]; rfl)).1
  | none =>
    have up : p.lost = none := (Option.or_eq_none_iff.1 (pumped.lost.symm.trans gone)).1
    obtain ⟨reason, refused, rfl⟩ := exists_of_result (pumped.offered gone).1
    obtain ⟨m, mem, long, rfl⟩ :=
      Link.refusal_offer (h.not_aborted up) (h.verdict.trans verdict) refused
    exact .long (isOrder_of_isAnswer (Inspector.isAnswer_of_mem_answers mem)) long

theorem Checked.excused (checked : q.Checked (.error e) p') : p'.Excused e := by
  cases checked with
  | gone lost => exact .gone lost
  | told _ ending => exact .told ending

theorem Begins.excused {c : Call} (begins : q.Begins c (some (.error e)) p') (h : Steady p₀ q)
    (verdict : p₀.link.verdict = Link.upVerdict) : p'.Excused e := by
  cases begins with
  | barred barred => exact barred.excused.still rfl rfl
  | unannounced free _ refused =>
    cases free with
    | free up _ => exact (h.refusal verdict up rfl refused).still rfl rfl

theorem Resumes.excused {hook : Hook} (resumes : q.Resumes hook (some (.error e)) p')
    (h : Steady p₀ q) (verdict : p₀.link.verdict = Link.upVerdict) : p'.Excused e := by
  cases resumes with
  | barred barred => exact barred.excused.still rfl rfl
  | ungreeted free refused =>
    cases free with
    | free up _ => exact (h.refusal verdict up rfl refused).still rfl rfl

theorem Steady.excused_beforeCall (h : Steady p₀ p) (verdict : p₀.link.verdict = Link.upVerdict)
    {c : Call} (failed : (p.beforeCall c).1 = some (.error e)) : (p.beforeCall c).2.Excused e := by
  have steady := h.pump
  obtain ⟨r, p', performs, enters⟩ := p.enters_beforeCall c
  rw [performs] at failed ⊢
  cases failed
  cases enters with
  | unanswered pump => exact (h.excused_pump verdict pump).still rfl rfl
  | begins pump begins =>
    rw [pump] at steady
    exact begins.excused steady verdict

theorem Steady.excused_wake (h : Steady p₀ p) (verdict : p₀.link.verdict = Link.upVerdict)
    (failed : p.wake.1 = some (.error e)) : p.wake.2.Excused e := by
  have steady := h.pump
  obtain ⟨r, p', performs, continues⟩ := p.continues_wake
  rw [performs] at failed ⊢
  cases failed
  cases continues with
  | torn _ down => exact .torn (h.down down).1
  | unanswered _ _ pump => exact (h.excused_pump verdict pump).still rfl rfl
  | resumes _ _ pump resumes =>
    rw [pump] at steady
    exact resumes.excused steady verdict

/-- **A hook fails with an excuse.** -/
theorem Steady.excused (h : Steady p₀ p) (verdict : p₀.link.verdict = Link.upVerdict) (a : Activity)
    (failed : (p.perform a).1 = some (.error e)) : (p.perform a).2.Excused e := by
  cases a with
  | before c => exact h.excused_beforeCall verdict failed
  | wake => exact h.excused_wake verdict failed
  | compilerError => nomatch failed
  | attach =>
    obtain ⟨r, p', performs, resumes⟩ := p.resumes_waitForController
    rw [perform, performs] at failed ⊢
    cases failed
    exact resumes.excused (h.still p.breaks (some .attach)) verdict
  | after result error output =>
    obtain ⟨breaks, r, p', -, performs, checked⟩ := p.checked_afterCall result error output
    rw [perform, performs] at failed ⊢
    cases failed
    exact checked.excused

/-! ## Questions -/

/-- **Questions are answered as long as the answers fit.** Let anything happen to a server on a link
that stays up, and then run the hook before a call, with only harmless events to handle: questions,
settings, breakpoints and orders to go on.

* If all that the hook owes fits in frames, it sends just that, and it does not fail: it lets the
  process go on as soon as that is told to.
* It fails at the first message that does not fit. It has sent what comes before, and sends nothing
  of what comes after, although the link is up.
* So whatever has happened and whatever the hook, it fails only because the link is lost, because
  the process was told to exit, or because a message does not fit. -/
theorem questions_answered (inspector : Inspector σ) (objects : σ) (capacity : Nat)
    (os : List Occurrence) :
    let p := (listen (.fresh Link.upVerdict) inspector objects capacity).live os
    (p.Free → ∀ c script, (∀ e ∈ p.link.inbox, e.isHarmless = true) →
      (∀ e ∈ script.flatten, e.isHarmless = true) →
      let released := (messages script.flatten).any Message.releases
      let r := (p.runBefore c script).1
      let p' := (p.runBefore c script).2
      ((∀ m ∈ p.owes c script, m.Fits) →
        r = (if p.pauses c && !released then none else some (.ok ())) ∧
        p'.link.sent = p.link.sent ++ p.owes c script) ∧
      ∀ earlier m later, p.owes c script = earlier ++ m :: later → (∀ n ∈ earlier, n.Fits) →
        ¬ m.Fits →
        r = some (.error (.link (.protocol (.frameTooLarge (Message.codec.size m))))) ∧
        p'.link.sent = p.link.sent ++ earlier) ∧
    ∀ a e, (p.perform a).1 = some (.error e) → (p.perform a).2.Excused e := by
  intro p
  have steady : Steady (listen (.fresh Link.upVerdict) inspector objects capacity) p :=
    (steady_listen _ inspector objects capacity).live os
  refine ⟨?_, fun a e => steady.excused rfl a⟩
  intro free c script harmless harmless' released r p'
  have live := steady.not_aborted free.up
  have verdict : p.link.verdict = Link.upVerdict := steady.verdict
  obtain ⟨result, sent⟩ := steady.offers free c harmless harmless'
  constructor
  · intro fits
    have taken := Link.offer_of_fits live verdict fits
    rw [taken] at result
    rw [Link.taken_eq_self.2 taken] at sent
    exact ⟨result, sent⟩
  · intro earlier m later owed fits long
    obtain ⟨refused, taken⟩ := Link.offer_of_long live verdict fits long later
    rw [owed, refused] at result
    rw [owed, taken] at sent
    exact ⟨result, sent⟩

/-! ## An answer that does not fit -/

theorem utf8ByteSize_pushn (n : Nat) : ("".pushn 'x' n).utf8ByteSize = n := by
  rw [String.pushn]
  induction n with
  | zero => rfl
  | succ n ih =>
    rw [Nat.repeat, String.utf8ByteSize_push, ih]
    rfl

/-- A page does not fit if the debug output of one of its calls does not. -/
theorem not_fits_trace {page : TracePage} {c : Call} {text : String} (mem : c ∈ page.records)
    (output : c.debugOutput = some text) (long : Frame.limit ≤ text.utf8ByteSize) :
    ¬ (Message.trace page).Fits := by
  have call : text.utf8ByteSize < Call.codec.size c := by
    have size : Call.codec.size c = Codec.uint32.size c.entrypoint + (Value.codec.list.size c.args +
        (Value.codec.option.size c.result + (Codec.uint32.size c.error +
          Codec.text.option.size c.debugOutput))) := rfl
    rw [size, output, Codec.size_option_some, Codec.size_text]
    omega
  have records : Call.codec.size c ≤ Call.codec.list.size page.records :=
    Codec.size_le_size_list _ mem
  have whole : Call.codec.list.size page.records ≤ Message.codec.size (.trace page) := by
    show _ ≤ _ + (Codec.uint64.size page.start + Call.codec.list.size page.records)
    omega
  rw [Message.Fits]
  omega

/-- A process whose one call has returned with debug output. -/
def remarked (text : String) : List Occurrence :=
  [.arrives [.connected], .does .attach, .does (.before default),
    .arrives [.message (.proceed (.stepping .call))], .does .wake, .does (.after none 0 (some text))]

/-- The debug output of a call is as long as a frame. The hook before the next call pauses; it lets
the process go on if that is all it is told, but it fails if it is asked for the call, and then it
does not answer what it was asked next either. -/
theorem questions_answered_long_output :
    let text := "".pushn 'x' Frame.limit
    let p := (listen (.fresh Link.upVerdict) Exhibition.inspector default 4).live (remarked text)
    let page : TracePage := ⟨0, [{ (default : Call) with debugOutput := some text }]⟩
    let resumed := [[LinkEvent.message (.proceed .resume)]]
    let asked := [[LinkEvent.message (.queryTrace ⟨0, 1⟩), .message (.queryTrace ⟨1, 1⟩)]]
    ((p.runBefore default resumed).1 = some (.ok ()) ∧
      (p.runBefore default resumed).2.link.sent = p.link.sent ++ [.paused ⟨default, 1, 0, []⟩]) ∧
    (p.runBefore default asked).1 =
      some (.error (.link (.protocol (.frameTooLarge (Message.codec.size (.trace page)))))) ∧
    (p.runBefore default asked).2.link.sent = p.link.sent ++ [.paused ⟨default, 1, 0, []⟩] := by
  intro text p page resumed asked
  have size : Frame.limit ≤ text.utf8ByteSize := Nat.le_of_eq (utf8ByteSize_pushn _).symm
  clear_value text
  obtain ⟨answered, -⟩ := questions_answered Exhibition.inspector default 4 (remarked text)
  have free : p.Free := ⟨rfl, rfl⟩
  have pause : Message.Fits (.paused ⟨default, 1, 0, []⟩) := by decide
  have long : ¬ (Message.trace page).Fits := not_fits_trace List.mem_cons_self rfl size
  constructor
  · have owed : p.owes default resumed = [.paused ⟨default, 1, 0, []⟩] := rfl
    obtain ⟨goesOn, -⟩ := answered free default resumed (List.forall_mem_nil _) (by decide)
    rw [owed] at goesOn
    exact goesOn (List.forall_mem_singleton.2 pause)
  · have owed : p.owes default asked =
        [.paused ⟨default, 1, 0, []⟩] ++ .trace page :: [.trace ⟨1, []⟩] := rfl
    obtain ⟨-, fails⟩ := answered free default asked (List.forall_mem_nil _) (by decide)
    -- The runs are compared as they stand; evaluating them takes long.
    dsimp only [p]
    exact fails _ _ _ owed (List.forall_mem_singleton.2 pause) long

end Peer

end CallDebugger
