import CallDebugger.Proofs.Link.Reception

/-!
# What a transport sends

A transport counts the frames that are queued and not accounted for, so what it tells of sending
follows from a counter (`Transport.Tallied`). Whatever order the sends of an owner and the steps of
the task come in, the stream has got a first part of the queued frames, and whoever receives it gets
a first part of the messages (`Transport.frames_in_order`).
-/

namespace CallDebugger

/-- Whether an event tells that sending has started, or that it has stopped. -/
def LinkEvent.sending? : LinkEvent → Option Bool
  | .sendingStarted => some true
  | .sendingStopped => some false
  | _ => none

/-- Starts and stops take turns, and a start comes first. -/
def Alternates (signals : List Bool) : Prop :=
  ∀ i b, signals[i]? = some b → b = decide (i % 2 = 0)

theorem Alternates.concat {signals : List Bool} (h : Alternates signals) {b : Bool}
    (next : b = decide (signals.length % 2 = 0)) : Alternates (signals ++ [b]) := by
  intro i c place
  rcases Nat.lt_trichotomy i signals.length with early | rfl | late
  · rw [List.getElem?_append_left early] at place
    exact h i c place
  · rw [List.getElem?_concat_length] at place
    cases place
    exact next
  · rw [List.getElem?_eq_none (by simp; omega)] at place
    cases place

namespace Batch

/-- How many frames of a batch are not accounted for. -/
def size : Batch → Nat
  | .none => 0
  | .writing frames => frames.length
  | .written count => count

/-- The frames of a batch that are not written. -/
def unwritten : Batch → List Bytes
  | .writing frames => frames
  | .none | .written _ => []

end Batch

/-! ## Bytes that break off -/

namespace Frame

/-- A frame that is broken off is incomplete. -/
theorem decode_of_short {m : Message} {frame part : Bytes} (encoded : encode m = .ok frame)
    (front : part <+: frame) (short : part.length < frame.length) :
    ∃ needed available, decode part = .error (.incompleteFrame needed available) := by
  obtain ⟨fits, shape⟩ := eq_of_encode encoded
  have size := length_of_encode encoded
  by_cases begun : part.length < headerLength
  · refine ⟨headerLength, part.length, ?_⟩
    simp only [decode, splitBytes?_eq_none_iff.2 begun]
  · -- The header is there, so bytes of the body are missing.
    have header : littleEndian headerLength (Message.codec.size m) <+: part := by
      apply List.prefix_of_prefix_length_le _ front
      · rw [length_littleEndian]
        omega
      · rw [shape]
        exact List.prefix_append _ _
    obtain ⟨body, rfl⟩ := header
    rw [List.length_append, length_littleEndian] at short
    have few : splitBytes? (Message.codec.size m) body = none := by
      rw [splitBytes?_eq_none_iff]
      omega
    have broken := decode_header_append (length_littleEndian headerLength (Message.codec.size m)) body
    simp only [readHeader_littleEndian fits, few] at broken
    exact ⟨_, _, broken⟩

/-- What is read of frames that are broken off: the messages of those that are whole. -/
theorem reads_of_prefix {ms : List Message} {frames : List Bytes}
    (encoded : ms.mapM encode = .ok frames) {bytes : Bytes} (front : bytes <+: frames.flatten) :
    ∃ n needed available, (frames.take n).flatten <+: bytes ∧
      (n < frames.length → bytes.length < (frames.take (n + 1)).flatten.length) ∧
      Reads bytes (ms.take n) (.incompleteFrame needed available) := by
  induction ms generalizing frames bytes with
  | nil =>
    cases encoded
    obtain rfl := List.prefix_nil.1 front
    exact ⟨0, headerLength, 0, List.nil_prefix, by simp, .fails rfl⟩
  | cons m ms ih =>
    obtain ⟨frame, rest, first, others, rfl⟩ := mapM_encode_cons encoded
    rw [List.flatten_cons] at front
    by_cases whole : frame.length ≤ bytes.length
    · have begins : frame <+: bytes :=
        List.prefix_of_prefix_length_le (List.prefix_append _ _) front whole
      obtain ⟨later, rfl⟩ := begins
      obtain ⟨n, needed, available, read, stops, reads⟩ :=
        ih others ((List.prefix_append_right_inj frame).1 front)
      refine ⟨n + 1, needed, available, ?_, ?_, ?_⟩
      · rw [List.take_succ_cons, List.flatten_cons]
        exact (List.prefix_append_right_inj frame).2 read
      · intro more
        have := stops (by simpa using more)
        rw [List.take_succ_cons, List.flatten_cons, List.length_append, List.length_append]
        omega
      · apply Reads.cons (decode_append first later)
        rw [List.drop_left]
        exact reads
    · have short : bytes.length < frame.length := Nat.lt_of_not_le whole
      have part : bytes <+: frame :=
        List.prefix_of_prefix_length_le front (List.prefix_append _ _) (Nat.le_of_lt short)
      obtain ⟨needed, available, breaks⟩ := decode_of_short first part short
      refine ⟨0, needed, available, List.nil_prefix, ?_, .fails breaks⟩
      intro _
      simpa using short

end Frame

namespace Transport

theorem drain_of_aborted {t : Transport} (aborted : t.aborted = true) (how : Drain) :
    t.drain how = ([], t) := by
  cases how with
  | pump => simp only [drain, pump, if_pos aborted]
  | runOne => simp only [drain, runOne, if_pos aborted]

/-! ## What a step does -/

/-- The events that a step makes. -/
def emits (t : Transport) (s : Step) : List LinkEvent := (t.apply s).events.drop t.events.length

/-- The message that a step queues. -/
def accepts (t : Transport) : Step → List Message
  | .send m =>
    match (t.send m).1 with
    | .ok () => [m]
    | .error _ => []
  | _ => []

/-- What a step may make of a transport, with the events that it makes and the messages that it
queues. -/
inductive Move (t : Transport) : Step → Transport → List LinkEvent → List Message → Prop where
  /-- The step is not possible, or the message is refused. -/
  | idle {s : Step} : Move t s t [] []
  | queues {m : Message} {frame : Bytes} {announced : List LinkEvent}
      (opened : t.isClosed = false) (encoded : Frame.encode m = .ok frame)
      (announces : announced = if t.queued = 0 then [.sendingStarted] else []) :
      Move t (.send m)
        { t with
          outbox := t.outbox ++ [frame]
          events := t.events ++ announced
          queued := t.queued + 1 }
        announced [m]
  | establishes (phase : t.task = .establishing) :
      Move t .establish { t with task := .running, events := t.events ++ [.connected] }
        [.connected] []
  | takes (running : t.task = .running) (free : t.batch = .none) (waits : t.outbox ≠ []) :
      Move t .takeBatch { t with batch := .writing t.outbox, outbox := [] } [] []
  | writes {frames : List Bytes} (running : t.task = .running)
      (batch : t.batch = .writing frames) :
      Move t .finishWrite
        { t with written := t.written ++ frames.flatten, batch := .written frames.length } [] []
  | accounts {count : Nat} {announced : List LinkEvent} (running : t.task = .running)
      (batch : t.batch = .written count)
      (announces : announced = if t.queued - count = 0 then [.sendingStopped] else []) :
      Move t .account
        { t with queued := t.queued - count, batch := .none, events := t.events ++ announced }
        announced []
  | receives {bytes : Bytes} {ms : List Message} {receiver : Receiver}
      (running : t.task = .running) :
      Move t (.arrive bytes) { t with receiver, events := t.events ++ ms.map .message }
        (ms.map .message) []
  /-- The task fails, perhaps after messages were read or some bytes of the batch were written. -/
  | fails {s : Step} {ms : List Message} {bytes : Nat} {reason : String}
      (going : t.task ≠ .ended) :
      Move t s
        { t with
          task := .ended
          disconnected := true
          written := t.written ++ t.batch.unwritten.flatten.take bytes
          events := t.events ++ (ms.map .message ++ [.disconnected reason]) }
        (ms.map .message ++ [.disconnected reason]) []
  | aborts : Move t .abort t.abort [] []

variable {t t' : Transport} {s : Step} {es past : List LinkEvent} {ms : List Message}

/-- The events that a step makes are put behind those that wait, unless it drops them. -/
theorem Move.events (move : Move t s t' es ms) :
    t'.events = t.events ++ es ∨ t' = t.abort ∧ es = [] := by
  cases move with
  | aborts => exact .inr ⟨rfl, rfl⟩
  | idle | takes | writes => exact .inl (List.append_nil _).symm
  | queues | establishes | accounts | receives | fails => exact .inl rfl

theorem Move.emits (move : Move t s (t.apply s) es ms) : t.emits s = es := by
  rcases move.events with waits | ⟨stops, rfl⟩
  · rw [Transport.emits, waits, List.drop_left]
  · rw [Transport.emits, stops]
    exact List.drop_nil

/-- A task that has not failed fails, whatever it has done just before, and reports that. -/
theorem move_fail (going : t.task ≠ .ended) (up : t.disconnected = false) (s : Step)
    (ms : List Message) (bytes : Nat) (reason : String) :
    Move t s
      (({ t with
        written := t.written ++ t.batch.unwritten.flatten.take bytes
        events := t.events ++ ms.map .message } : Transport).fail reason)
      (ms.map .message ++ [.disconnected reason]) [] := by
  simp only [fail, if_neg going, up, Bool.false_eq_true, if_false, List.append_assoc]
  exact .fails going

/-- **What a step does.** -/
theorem move (up : t.task ≠ .ended → t.disconnected = false) (s : Step) :
    Move t s (t.apply s) (t.emits s) (t.accepts s) := by
  have going (running : t.task = .running) : t.task ≠ .ended := by
    rw [running]
    nofun
  suffices ∃ es, Move t s (t.apply s) es (t.accepts s) by
    obtain ⟨es, move⟩ := this
    rw [move.emits]
    exact move
  cases s with
  | send m =>
    simp only [apply, accepts, send]
    by_cases closed : t.isClosed = true
    · simp only [if_pos closed]
      exact ⟨_, .idle⟩
    · simp only [if_neg closed]
      cases encoded : Frame.encode m with
      | error e => exact ⟨_, .idle⟩
      | ok frame => exact ⟨_, .queues (Bool.eq_false_iff.2 closed) encoded rfl⟩
  | establish =>
    simp only [apply, establish]
    split
    · exact ⟨_, .establishes ‹_›⟩
    · exact ⟨_, .idle⟩
  | takeBatch =>
    simp only [apply, takeBatch]
    split
    · rename_i possible
      exact ⟨_, .takes possible.1 possible.2.1 possible.2.2⟩
    · exact ⟨_, .idle⟩
  | finishWrite =>
    simp only [apply, finishWrite]
    split
    · exact ⟨_, .writes ‹_› ‹_›⟩
    · exact ⟨_, .idle⟩
  | breakWrite bytes reason =>
    simp only [apply, breakWrite]
    split
    · rename_i frames running batch
      have fails := move_fail (going running) (up (going running)) (.breakWrite bytes reason) []
        bytes reason
      have unwritten : t.batch.unwritten = frames := by
        rw [batch]
        rfl
      simp only [List.map_nil, List.append_nil, List.nil_append, unwritten] at fails
      exact ⟨_, fails⟩
    · exact ⟨_, .idle⟩
  | account =>
    simp only [apply, account]
    split
    · rename_i count running batch
      have accounts : Move t .account _ _ _ := .accounts running batch rfl
      by_cases drained : t.queued - count = 0
      · simp only [if_pos drained] at accounts ⊢
        exact ⟨_, accounts⟩
      · simp only [if_neg drained, List.append_nil] at accounts ⊢
        exact ⟨_, accounts⟩
    · exact ⟨_, .idle⟩
  | arrive bytes =>
    simp only [apply, arrive]
    split
    · rename_i running
      rcases t.receiver.feed bytes with ⟨ms, e | receiver⟩
      · have fails := move_fail (going running) (up (going running)) (.arrive bytes) ms 0 e.message
        simp only [List.take_zero, List.append_nil] at fails
        exact ⟨_, fails⟩
      · exact ⟨_, .receives running⟩
    · exact ⟨_, .idle⟩
  | fail reason =>
    by_cases ended : t.task = .ended
    · simp only [apply, fail, if_pos ended]
      exact ⟨_, .idle⟩
    · have fails := move_fail ended (up ended) (.fail reason) [] 0 reason
      simp only [List.take_zero, List.append_nil, List.map_nil, List.nil_append] at fails
      exact ⟨_, fails⟩
  | abort => exact ⟨_, .aborts⟩

/-! ## What is told of sending -/

/-- What was told of sending goes with a count of queued frames. -/
structure Signals (past : List LinkEvent) (queued : Nat) : Prop where
  alternates : Alternates (past.filterMap LinkEvent.sending?)
  /-- Sending has started and not stopped just if frames are queued. -/
  sending : (past.filterMap LinkEvent.sending?).length % 2 = if queued = 0 then 0 else 1

theorem signals_nil : Signals [] 0 := ⟨by simp [Alternates], rfl⟩

theorem Signals.quiet {n k : Nat} (h : Signals past n)
    (quiet : es.filterMap LinkEvent.sending? = []) (same : n = 0 ↔ k = 0) :
    Signals (past ++ es) k := by
  have told : (past ++ es).filterMap LinkEvent.sending? =
      past.filterMap LinkEvent.sending? := by
    rw [List.filterMap_append, quiet, List.append_nil]
  constructor
  · rw [told]
    exact h.alternates
  · rw [told, h.sending]
    simp only [same]

/-- The first frame that is queued starts sending. -/
theorem Signals.start (h : Signals past 0) (n : Nat) :
    Signals (past ++ [.sendingStarted]) (n + 1) := by
  have even : (past.filterMap LinkEvent.sending?).length % 2 = 0 := h.sending
  have told : (past ++ [LinkEvent.sendingStarted]).filterMap LinkEvent.sending? =
      past.filterMap LinkEvent.sending? ++ [true] := List.filterMap_append
  constructor
  · rw [told]
    apply h.alternates.concat
    rw [even]
    rfl
  · rw [told, if_neg (Nat.succ_ne_zero n), List.length_append, List.length_singleton]
    omega

/-- The last frame that is accounted for stops it. -/
theorem Signals.stop {n : Nat} (h : Signals past n) (some : n ≠ 0) :
    Signals (past ++ [.sendingStopped]) 0 := by
  have odd := h.sending
  rw [if_neg some] at odd
  have told : (past ++ [LinkEvent.sendingStopped]).filterMap LinkEvent.sending? =
      past.filterMap LinkEvent.sending? ++ [false] := List.filterMap_append
  constructor
  · rw [told]
    apply h.alternates.concat
    rw [odd]
    rfl
  · rw [told, if_pos rfl, List.length_append, List.length_singleton]
    omega

/-- Events none of which tells of the end. -/
def Lasting (es : List LinkEvent) : Prop := ∀ e ∈ es, ∀ reason, e ≠ .disconnected reason

theorem lasting_messages (ms : List Message) : Lasting (ms.map .message) := by
  intro e mem reason
  obtain ⟨m, -, rfl⟩ := List.mem_map.1 mem
  nofun

/-- Nothing has told of the end, or the last event has, and the transport is disconnected. -/
inductive Course (t : Transport) : List LinkEvent → Prop where
  | goes {es : List LinkEvent} (lasting : Lasting es) : Course t es
  | ends {es : List LinkEvent} {reason : String} (lasting : Lasting es)
      (down : t.disconnected = true) : Course t (es ++ [.disconnected reason])

/-- What was told does not tell of the end while a transport is connected. -/
theorem Course.lasting (h : Course t es) (up : t.disconnected = false) : Lasting es := by
  cases h with
  | goes lasting => exact lasting
  | ends _ down =>
    rw [up] at down
    nomatch down

theorem lasting_nil : Lasting [] := by
  intro e mem
  nomatch mem

theorem Lasting.append {more : List LinkEvent} (h : Lasting es) (k : Lasting more) :
    Lasting (es ++ more) := by
  intro e mem
  exact (List.mem_append.1 mem).elim (h e) (k e)

/-- Nothing follows the end. -/
theorem Course.eq_nil (h : Course t es) {front rest : List LinkEvent} {reason : String}
    (split : es = front ++ .disconnected reason :: rest) : rest = [] := by
  cases h with
  | goes lasting => exact absurd rfl (lasting _ (by simp [split]) reason)
  | @ends es other lasting down =>
    rcases List.eq_nil_or_concat rest with rfl | ⟨more, e, rfl⟩
    · rfl
    · rw [List.concat_eq_append, ← List.cons_append, ← List.append_assoc] at split
      obtain ⟨rfl, -⟩ := List.append_inj' split rfl
      exact absurd rfl (lasting _ (by simp) reason)

/-! ## What the counter stands for -/

/-- Where a transport stands after some frames were queued. -/
structure Tallied (frames : List Bytes) (t : Transport) : Prop where
  ended_iff : t.task = .ended ↔ t.disconnected = true
  queued : t.queued = t.outbox.length + t.batch.size
  busy : t.batch ≠ .none → 0 < t.batch.size
  /-- Some frames are written, others are in the batch, and the rest wait. A part of the batch is
  written only if the task has failed. -/
  progress : ∃ gone bytes, frames = gone ++ t.batch.unwritten ++ t.outbox ∧
    t.written = gone.flatten ++ t.batch.unwritten.flatten.take bytes ∧
    (t.task ≠ .ended → bytes = 0)

namespace Tallied

variable {frames : List Bytes}

theorem opening (bound : Option Endpoint) : Tallied [] (opening bound) where
  ended_iff := by simp [Transport.opening]
  queued := rfl
  busy := fun busy => absurd rfl busy
  progress := ⟨[], 0, rfl, rfl, fun _ => rfl⟩

theorem up (h : Tallied frames t) (going : t.task ≠ .ended) : t.disconnected = false := by
  rw [Ne, h.ended_iff, Bool.not_eq_true] at going
  exact going

/-- The events do not count. -/
theorem events (h : Tallied frames t) (events : List LinkEvent) :
    Tallied frames { t with events } :=
  ⟨h.ended_iff, h.queued, h.busy, h.progress⟩

/-- What is written while the task goes on. -/
theorem progress_of_going (h : Tallied frames t) (going : t.task ≠ .ended) :
    ∃ gone, frames = gone ++ t.batch.unwritten ++ t.outbox ∧ t.written = gone.flatten := by
  obtain ⟨gone, bytes, all, written, whole⟩ := h.progress
  refine ⟨gone, all, ?_⟩
  rw [written, whole going, List.take_zero, List.append_nil]

/-- The bytes that are written are a first part of the frames that were queued. -/
theorem written_prefix (h : Tallied frames t) : t.written <+: frames.flatten := by
  obtain ⟨gone, bytes, all, written, -⟩ := h.progress
  rw [all, written, List.append_assoc, List.flatten_append, List.flatten_append,
    List.prefix_append_right_inj]
  exact (List.take_prefix _ _).trans (List.prefix_append _ _)

/-- So are they with the batch that is being written. -/
theorem batch_prefix (h : Tallied frames t) (going : t.task ≠ .ended) :
    t.written ++ t.batch.unwritten.flatten <+: frames.flatten := by
  obtain ⟨gone, all, written⟩ := h.progress_of_going going
  rw [all, written, List.flatten_append, List.flatten_append]
  exact List.prefix_append _ _

/-- Every frame is written if none is left that is not accounted for. -/
theorem written_of_drained (h : Tallied frames t) (going : t.task ≠ .ended) (idle : t.outbox = [])
    (none : t.batch.unwritten = []) : t.written = frames.flatten := by
  obtain ⟨gone, all, written⟩ := h.progress_of_going going
  rw [written, all, idle, none, List.append_nil, List.append_nil]

/-- A frame is queued. -/
theorem queue (h : Tallied frames t) (opened : t.isClosed = false) (frame : Bytes) :
    Tallied (frames ++ [frame])
      { t with outbox := t.outbox ++ [frame], queued := t.queued + 1 } := by
  have up : t.disconnected = false := (Bool.or_eq_false_iff.1 opened).2
  have going : t.task ≠ .ended := by
    intro ended
    rw [h.ended_iff.1 ended] at up
    nomatch up
  obtain ⟨gone, all, written⟩ := h.progress_of_going going
  constructor
  · exact h.ended_iff
  · show t.queued + 1 = (t.outbox ++ [frame]).length + t.batch.size
    rw [List.length_append, List.length_singleton, h.queued]
    omega
  · exact h.busy
  · refine ⟨gone, 0, ?_, ?_, fun _ => rfl⟩
    · rw [all, List.append_assoc]
    · rw [List.take_zero, List.append_nil]
      exact written

/-- A step that queues nothing keeps the tally. -/
theorem still (h : Tallied frames t) (move : Move t s t' es []) : Tallied frames t' := by
  have running (phase : t.task = .running) : t.task ≠ .ended := by
    rw [phase]
    nofun
  cases move with
  | idle => exact h
  | establishes phase =>
    have going : t.task ≠ .ended := by
      rw [phase]
      nofun
    obtain ⟨gone, all, written⟩ := h.progress_of_going going
    refine ⟨by simp [h.up going], h.queued, h.busy, gone, 0, all, ?_, fun _ => rfl⟩
    rw [List.take_zero, List.append_nil]
    exact written
  | takes phase free waits =>
    obtain ⟨gone, all, written⟩ := h.progress_of_going (running phase)
    have counted := h.queued
    rw [free] at all counted
    constructor
    · exact h.ended_iff
    · show t.queued = 0 + t.outbox.length
      have : t.queued = t.outbox.length + 0 := counted
      omega
    · intro _
      exact List.length_pos_iff.2 waits
    · refine ⟨gone, 0, ?_, ?_, fun _ => rfl⟩
      · simpa [Batch.unwritten] using all
      · rw [List.take_zero, List.append_nil]
        exact written
  | @writes batch phase writing =>
    obtain ⟨gone, all, written⟩ := h.progress_of_going (running phase)
    have counted := h.queued
    have busy := h.busy
    rw [writing] at all counted busy
    constructor
    · exact h.ended_iff
    · exact counted
    · intro _
      apply busy
      nofun
    · refine ⟨gone ++ batch, 0, ?_, ?_, fun _ => rfl⟩
      · simpa [Batch.unwritten] using all
      · simp [Batch.unwritten, written]
  | @accounts count _ phase wrote announces =>
    obtain ⟨gone, all, written⟩ := h.progress_of_going (running phase)
    have counted := h.queued
    rw [wrote] at all counted
    constructor
    · exact h.ended_iff
    · show t.queued - count = t.outbox.length + 0
      have : t.queued = t.outbox.length + count := counted
      omega
    · intro busy
      exact absurd rfl busy
    · refine ⟨gone, 0, all, ?_, fun _ => rfl⟩
      rw [List.take_zero, List.append_nil]
      exact written
  | receives phase => exact ⟨h.ended_iff, h.queued, h.busy, h.progress⟩
  | @fails _ _ bytes _ going =>
    obtain ⟨gone, all, written⟩ := h.progress_of_going going
    refine ⟨by simp, h.queued, h.busy, gone, bytes, all, ?_, fun ended => absurd rfl ended⟩
    rw [written]
  | aborts =>
    obtain ⟨gone, bytes, all, written, -⟩ := h.progress
    refine ⟨by simp [abort], h.queued, h.busy, gone, bytes, all, written, ?_⟩
    intro going
    exact absurd rfl going

/-- **A step keeps the tally**, with the frames of what it queues. -/
theorem move (h : Tallied frames t) (move : Move t s t' es ms) :
    ∃ new, ms.mapM Frame.encode = .ok new ∧ Tallied (frames ++ new) t' := by
  have quiet (none : ms = []) :
      ∃ new, ms.mapM Frame.encode = .ok new ∧ Tallied (frames ++ new) t' := by
    subst none
    refine ⟨[], rfl, ?_⟩
    rw [List.append_nil]
    exact h.still move
  cases move with
  | @queues m frame _ opened encoded announces =>
    refine ⟨[frame], ?_, (h.queue opened frame).events _⟩
    rw [List.mapM_cons, encoded]
    rfl
  | idle | establishes | takes | writes | accounts | receives | fails | aborts => exact quiet rfl

end Tallied

/-! ## What a run keeps -/

/-- What is told of sending fits after a step. -/
theorem Signals.move {frames : List Bytes} (h : Signals past t.queued)
    (tallied : Tallied frames t) (move : Move t s t' es ms) :
    Signals (past ++ es) t'.queued := by
  cases move with
  | idle | establishes | takes | writes | receives | fails | aborts =>
    exact h.quiet (by simp [LinkEvent.sending?]) Iff.rfl
  | queues opened encoded announces =>
    by_cases first : t.queued = 0
    · rw [if_pos first] at announces
      rw [first] at h
      subst announces
      exact h.start _
    · rw [if_neg first] at announces
      subst announces
      apply h.quiet rfl
      simp [first]
  | @accounts count _ phase wrote announces =>
    have counted := tallied.queued
    have busy := tallied.busy
    rw [wrote] at counted busy
    have some : 0 < count := by
      apply busy
      nofun
    have sum : t.queued = t.outbox.length + count := counted
    by_cases drained : t.queued - count = 0
    · rw [if_pos drained] at announces
      subst announces
      show Signals _ (t.queued - count)
      rw [drained]
      apply h.stop
      omega
    · rw [if_neg drained] at announces
      subst announces
      apply h.quiet rfl
      show t.queued = 0 ↔ t.queued - count = 0
      omega

/-- The end comes last, also after a step. -/
theorem Course.move {frames : List Bytes} (h : Course t past) (tallied : Tallied frames t)
    (move : Move t s t' es ms) : Course t' (past ++ es) := by
  -- Events come of a transport that is connected, so nothing has told of the end before them.
  have goes (up : t.disconnected = false) (lasting : Lasting es) : Course t' (past ++ es) :=
    .goes ((h.lasting up).append lasting)
  have silent (none : es = []) (down : t.disconnected = true → t'.disconnected = true) :
      Course t' (past ++ es) := by
    subst none
    rw [List.append_nil]
    cases h with
    | goes lasting => exact .goes lasting
    | ends lasting gone => exact .ends lasting (down gone)
  have running (phase : t.task = .running) : t.disconnected = false := by
    apply tallied.up
    rw [phase]
    nofun
  cases move with
  | idle | takes | writes => exact silent rfl id
  | aborts => exact silent rfl fun _ => rfl
  | queues opened encoded announces =>
    apply goes (Bool.or_eq_false_iff.1 opened).2
    subst announces
    split <;> simp [Lasting]
  | establishes phase =>
    apply goes
    · apply tallied.up
      rw [phase]
      nofun
    · simp [Lasting]
  | accounts phase wrote announces =>
    apply goes (running phase)
    subst announces
    split <;> simp [Lasting]
  | receives phase => exact goes (running phase) (lasting_messages _)
  | @fails _ told _ _ going =>
    have lasting := (h.lasting (tallied.up going)).append (lasting_messages told)
    rw [← List.append_assoc past]
    exact .ends lasting rfl

/-- Where a transport stands after some messages were accepted and some events were made. -/
structure Stands (accepted : List Message) (past : List LinkEvent) (t : Transport) : Prop where
  tallied : ∃ frames, accepted.mapM Frame.encode = .ok frames ∧ Tallied frames t
  signals : Signals past t.queued
  course : Course t past

namespace Stands

variable {accepted : List Message}

theorem opening (bound : Option Endpoint) : Stands [] [] (opening bound) :=
  ⟨⟨[], rfl, .opening bound⟩, signals_nil, .goes lasting_nil⟩

theorem step (h : Stands accepted past t) (s : Step) :
    Stands (accepted ++ t.accepts s) (past ++ t.emits s) (t.apply s) := by
  obtain ⟨frames, encoded, tallied⟩ := h.tallied
  have move := move tallied.up s
  obtain ⟨new, added, tallied'⟩ := tallied.move move
  refine ⟨⟨frames ++ new, ?_, tallied'⟩, h.signals.move tallied move, h.course.move tallied move⟩
  rw [List.mapM_append, encoded, added]
  rfl

/-- Taking events changes nothing but the events that wait. -/
theorem take (h : Stands accepted past t) (how : Drain) :
    Stands accepted past (t.drain how).2 := by
  by_cases up : t.aborted = false
  · rw [drain_of_up up]
    obtain ⟨frames, encoded, tallied⟩ := h.tallied
    refine ⟨⟨frames, encoded, tallied.events []⟩, h.signals, ?_⟩
    cases h.course with
    | goes lasting => exact .goes lasting
    | ends lasting down => exact .ends lasting down
  · rw [Bool.not_eq_false] at up
    rw [drain_of_aborted up]
    exact h

end Stands

/-- The events that steps make in the course of actions. -/
def emitted (t : Transport) : List Act → List LinkEvent
  | [] => []
  | .step s :: acts => t.emits s ++ (t.apply s).emitted acts
  | .take how :: acts => (t.drain how).2.emitted acts

/-- The messages that are queued in the course of actions. -/
def accepted (t : Transport) : List Act → List Message
  | [] => []
  | .step s :: acts => t.accepts s ++ (t.apply s).accepted acts
  | .take how :: acts => (t.drain how).2.accepted acts

theorem Stands.run {before : List Message} (h : Stands before past t) (acts : List Act) :
    Stands (before ++ t.accepted acts) (past ++ t.emitted acts) (t.attend acts).2 := by
  induction acts generalizing t before past with
  | nil =>
    simp only [Transport.accepted, Transport.emitted, List.append_nil]
    exact h
  | cons act acts ih =>
    cases act with
    | step s =>
      simp only [Transport.accepted, Transport.emitted, ← List.append_assoc]
      exact ih (h.step s)
    | take how => exact ih (h.take how)

/-! ## What the owner gets -/

/-- Nothing comes of a transport that is torn down. -/
theorem apply_abort (t : Transport) (s : Step) : t.abort.apply s = t.abort := by
  cases s with
  | send | establish | takeBatch | finishWrite | breakWrite | account | arrive | fail => rfl
  | abort => rfl

theorem attend_abort (t : Transport) (acts : List Act) :
    t.abort.attend acts = ([], t.abort) ∧ t.abort.emitted acts = [] := by
  induction acts with
  | nil => exact ⟨rfl, rfl⟩
  | cons act acts ih =>
    cases act with
    | step s =>
      have silent : t.abort.emits s = [] := by
        rw [emits, apply_abort, List.drop_length]
      simp only [attend, emitted, apply_abort, silent]
      exact ih
    | take how =>
      have none : t.abort.drain how = ([], t.abort) := drain_of_aborted rfl how
      simp only [attend, emitted, none, ih.1]
      exact ⟨rfl, ih.2⟩

/-- The owner gets the events in the order in which they were made, and each one that is made
before it tears the transport down. -/
theorem Stands.delivers {before : List Message} (h : Stands before past t) (acts : List Act) :
    ∃ dropped, t.events ++ t.emitted acts =
        (t.attend acts).1 ++ (t.attend acts).2.events ++ dropped ∧
      ((t.attend acts).2.aborted = false → dropped = []) := by
  induction acts generalizing t before past with
  | nil =>
    refine ⟨[], ?_, fun _ => rfl⟩
    simp only [attend, emitted, List.append_nil, List.nil_append]
  | cons act acts ih =>
    cases act with
    | step s =>
      obtain ⟨frames, -, tallied⟩ := h.tallied
      rcases (move tallied.up s).events with waits | ⟨stops, silent⟩
      · have later := ih (h.step s)
        rw [waits, List.append_assoc] at later
        exact later
      · obtain ⟨got, later⟩ := t.attend_abort acts
        simp only [attend, emitted, stops, silent, got, later]
        refine ⟨t.events, List.append_nil _, ?_⟩
        intro up
        cases up
    | take how =>
      obtain ⟨dropped, later, all⟩ := ih (h.take how)
      refine ⟨dropped, ?_, all⟩
      have front : t.events = (t.drain how).1 ++ (t.drain how).2.events := by
        by_cases up : t.aborted = false
        · rw [drain_of_up up, List.append_nil]
        · rw [Bool.not_eq_false] at up
          rw [drain_of_aborted up]
          rfl
      simp only [attend, emitted]
      rw [front, List.append_assoc, later]
      simp only [List.append_assoc]

/-! ## Runs -/

/-- Sending stops when everything that was queued is written. -/
theorem written_of_stopped {frames : List Bytes} (h : Tallied frames t)
    (move : Move t s t' es ms) (stops : .sendingStopped ∈ es) : t.written = frames.flatten := by
  cases move with
  | @accounts count _ phase wrote announces =>
    have counted := h.queued
    rw [wrote] at counted
    have sum : t.queued = t.outbox.length + count := counted
    have drained : t.outbox = [] := by
      subst announces
      split at stops
      · rw [← List.length_eq_zero_iff]
        omega
      · nomatch stops
    apply h.written_of_drained _ drained
    · rw [wrote]
      rfl
    · rw [phase]
      nofun
  | queues opened encoded announces =>
    subst announces
    split at stops <;> simp at stops
  | idle | establishes | takes | writes | receives | fails | aborts => simp at stops

/-- A message that is refused leaves a transport as it is. -/
theorem send_of_error {m : Message} {e : LinkError} (refused : (t.send m).1 = .error e) :
    (t.send m).2 = t ∧ ((t.isClosed = true ∧ e = .closed) ∨
      (t.isClosed = false ∧ ∃ cause, Frame.encode m = .error cause ∧ e = .protocol cause)) := by
  by_cases closed : t.isClosed = true
  · simp only [send, if_pos closed] at refused ⊢
    exact ⟨trivial, .inl ⟨closed, (Except.error.inj refused).symm⟩⟩
  · simp only [send, if_neg closed] at refused ⊢
    cases encoded : Frame.encode m with
    | error cause =>
      simp only [encoded] at refused ⊢
      refine ⟨trivial, .inr ⟨?_, cause, rfl, (Except.error.inj refused).symm⟩⟩
      rw [Bool.not_eq_true] at closed
      exact closed
    | ok frame =>
      simp only [encoded] at refused
      nomatch refused

/-- What the other end gets of frames that break off: the messages of those that are whole. -/
theorem events_of_prefix {accepted : List Message} {frames : List Bytes}
    (encoded : accepted.mapM Frame.encode = .ok frames) {stream : Bytes}
    (front : stream <+: frames.flatten) :
    ∃ n, (frames.take n).flatten <+: stream ∧
      (n < frames.length → stream.length < (frames.take (n + 1)).flatten.length) ∧
      ∀ (bound : Option Endpoint) (chunks : List Bytes), chunks.flatten = stream →
        ((opening bound).run
          (.establish :: chunks.map .arrive ++ [.fail Receiver.endOfStream])).events =
            .connected :: (accepted.take n).map .message ++
              [.disconnected Receiver.endOfStream] := by
  obtain ⟨n, needed, available, whole, stops, reads⟩ := Frame.reads_of_prefix encoded front
  refine ⟨n, whole, stops, ?_⟩
  intro bound chunks cut
  obtain ⟨ms, e, read, events⟩ := Receiver.reads_run chunks
  rw [cut] at read
  obtain ⟨rfl, rfl⟩ := reads.unique read
  rw [events_of_run, events]
  rfl

/-- **Frames in order.** Let the owner of a transport and its task act in any order.

* What it is told of sending takes turns, and a start comes first. Nothing follows the end. The
  owner gets the events in order, and every one before it tears the transport down.
* A message that is refused leaves the transport as it is.
* The stream has got a first part of the frames that were queued, with whatever part of the batch
  is being written, and all of them whenever sending stops. Of any first part of these frames,
  however it arrives, the other end reads the messages whose frames are whole. -/
theorem frames_in_order (bound : Option Endpoint) (acts : List Act) :
    let t := ((opening bound).attend acts).2
    let emitted := (opening bound).emitted acts
    let accepted := (opening bound).accepted acts
    Alternates (emitted.filterMap LinkEvent.sending?) ∧
    (∀ front reason rest, emitted = front ++ .disconnected reason :: rest → rest = []) ∧
    (∃ dropped, emitted = ((opening bound).attend acts).1 ++ t.events ++ dropped ∧
      (t.aborted = false → dropped = [])) ∧
    (∀ m e, (t.send m).1 = .error e → (t.send m).2 = t ∧
      ((t.isClosed = true ∧ e = .closed) ∨
        (t.isClosed = false ∧ ∃ cause, Frame.encode m = .error cause ∧ e = .protocol cause))) ∧
    ∃ frames, accepted.mapM Frame.encode = .ok frames ∧
      t.written <+: frames.flatten ∧
      (t.task ≠ .ended → t.written ++ t.batch.unwritten.flatten <+: frames.flatten) ∧
      (∀ s, .sendingStopped ∈ t.emits s → t.written = frames.flatten) ∧
      ∀ stream, stream <+: frames.flatten →
        ∃ n, (frames.take n).flatten <+: stream ∧
          (n < frames.length → stream.length < (frames.take (n + 1)).flatten.length) ∧
          ∀ (bound' : Option Endpoint) (chunks : List Bytes), chunks.flatten = stream →
            ((opening bound').run
              (.establish :: chunks.map .arrive ++ [.fail Receiver.endOfStream])).events =
                .connected :: (accepted.take n).map .message ++
                  [.disconnected Receiver.endOfStream] := by
  intro t emitted accepted
  have stands : Stands accepted emitted t := (Stands.opening bound).run acts
  obtain ⟨frames, encoded, tallied⟩ := stands.tallied
  refine ⟨stands.signals.alternates, ?_, (Stands.opening bound).delivers acts, ?_, frames, encoded,
    tallied.written_prefix, tallied.batch_prefix, ?_, ?_⟩
  · intro front reason rest split
    exact stands.course.eq_nil split
  · intro m e refused
    exact send_of_error refused
  · intro s stops
    exact written_of_stopped tallied (move tallied.up s) stops
  · intro stream front
    exact events_of_prefix encoded front

end Transport

end CallDebugger
