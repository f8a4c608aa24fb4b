import CallDebugger.Link.Transport
import CallDebugger.Proofs.Frame.RoundTrip

/-!
# What a transport receives

A receiver reads frames from a stream that arrives in pieces, and `Frame.decode` reads them from a
buffer that holds all bytes. `Frame.Reads` tells what the second comes to on a whole buffer. A
receiver that is fed a piece keeps what is unread (`Receiver.Settled`), so it comes to the same
wherever the stream is cut (`Receiver.reads_runFrom`), and an owner gets the same events whenever
and however it takes them (`Transport.events_of_stream`).
-/

namespace CallDebugger

/-- The reason given for the end of a stream whose frames can be read up to an error. -/
def ProtocolError.ending : ProtocolError → String
  | .incompleteFrame .. => Receiver.endOfStream
  | e => e.message

namespace Frame

/-- Reading frames from the start again and again gives the messages, and then the error. -/
inductive Reads : Bytes → List Message → ProtocolError → Prop where
  | fails {buffer : Bytes} {e : ProtocolError} (failure : decode buffer = .error e) :
      Reads buffer [] e
  | cons {buffer : Bytes} {m : Message} {used : Nat} {later : List Message} {e : ProtocolError}
      (first : decode buffer = .ok (m, used)) (rest : Reads (buffer.drop used) later e) :
      Reads buffer (m :: later) e

/-- A buffer is read in one way. -/
theorem Reads.unique {buffer : Bytes} {ms ns : List Message} {e f : ProtocolError}
    (h : Reads buffer ms e) (k : Reads buffer ns f) : ns = ms ∧ f = e := by
  induction h generalizing ns with
  | fails failure =>
    cases k with
    | fails other =>
      rw [failure] at other
      cases other
      exact ⟨rfl, rfl⟩
    | cons first =>
      rw [failure] at first
      nomatch first
  | cons first _ ih =>
    cases k with
    | fails failure =>
      rw [first] at failure
      nomatch failure
    | cons other rest =>
      rw [first] at other
      cases other
      obtain ⟨rfl, rfl⟩ := ih rest
      exact ⟨rfl, rfl⟩

/-- A buffer that begins with a whole header. -/
theorem decode_header_append {front : Bytes} (size : front.length = headerLength) (rest : Bytes) :
    decode (front ++ rest) =
      match readHeader front with
      | .error e => .error e
      | .ok length =>
        match splitBytes? length rest with
        | none => .error (.incompleteFrame (headerLength + length) (front ++ rest).length)
        | some (body, _) =>
          match decodeBody body with
          | .error e => .error e
          | .ok m => .ok (m, headerLength + length) := by
  have split := splitBytes?_append_of_length size rest
  unfold decode
  exact split ▸ rfl

/-- A header announces a length that is allowed, or it is refused for that length. -/
theorem readHeader_cases (front : Bytes) :
    (ofLittleEndian front ≤ limit ∧ readHeader front = .ok (ofLittleEndian front)) ∨
    readHeader front = .error (.frameTooLarge (ofLittleEndian front)) := by
  unfold readHeader
  by_cases large : limit < ofLittleEndian front
  · right
    simp only [if_pos large]
  · left
    simp only [if_neg large, and_true]
    omega

/-- What is wrong with a body is not that bytes are missing. -/
theorem ending_of_decodeBody {body : Bytes} {e : ProtocolError} (h : decodeBody body = .error e) :
    e.ending = e.message := by
  unfold decodeBody at h
  split at h
  · cases h
    rfl
  · split at h
    · cases h
      rfl
    · split at h
      · cases h
        rfl
      · nomatch h

end Frame

namespace Receiver

open CallDebugger.Frame

/-! ## What is unread -/

/-- The bytes that a receiver has not turned into messages: those that have arrived, after the
header that it has looked at already. -/
def unread (r : Receiver) : Bytes :=
  match r.awaited with
  | .header => r.pending
  | .body length => littleEndian headerLength length ++ r.pending

/-- A receiver waits for a body only if its header allows it. -/
def Allowed (r : Receiver) : Prop :=
  match r.awaited with
  | .header => True
  | .body length => length ≤ limit

/-- The bytes that have arrived are too few for what the receiver waits for. -/
def Short (r : Receiver) : Prop :=
  match r.awaited with
  | .header => r.pending.length < headerLength
  | .body length => r.pending.length < length

/-- As many rounds are enough for the bytes that have arrived. -/
def rounds (r : Receiver) : Nat :=
  match r.awaited with
  | .header => 2 * r.pending.length
  | .body _ => 2 * r.pending.length + 1

theorem unread_append (r : Receiver) (bytes : Bytes) :
    ({ r with pending := r.pending ++ bytes } : Receiver).unread = r.unread ++ bytes := by
  unfold unread
  cases r.awaited with
  | header => rfl
  | body length => simp only [List.append_assoc]

/-- What is unread of a receiver that waits ends inside a frame. -/
theorem reads_of_short {r : Receiver} (allowed : r.Allowed) (short : r.Short) :
    ∃ needed available, Reads r.unread [] (.incompleteFrame needed available) := by
  obtain ⟨pending, awaited⟩ := r
  cases awaited with
  | header =>
    have few : splitBytes? headerLength pending = none := splitBytes?_eq_none_iff.2 short
    refine ⟨headerLength, pending.length, .fails ?_⟩
    simp only [unread, decode, few]
  | body length =>
    have few : splitBytes? length pending = none := splitBytes?_eq_none_iff.2 short
    have small : length ≤ limit := allowed
    refine ⟨headerLength + length, (littleEndian headerLength length ++ pending).length,
      .fails ?_⟩
    simp only [unread, decode_header_append (length_littleEndian _ _),
      readHeader_littleEndian small, few]

/-! ## Going as far as the bytes reach -/

/-- What came of some bytes agrees with what is read from a buffer that holds what was unread, and
whatever arrives after it. -/
inductive Settled (r : Receiver) : Progress → Prop where
  | waits {ms : List Message} {r' : Receiver} (allowed : r'.Allowed) (short : r'.Short)
      (reads : ∀ future later e, Reads (r'.unread ++ future) later e →
        Reads (r.unread ++ future) (ms ++ later) e) : Settled r ⟨ms, .ok r'⟩
  | fails {ms : List Message} {e : ProtocolError} (ending : e.ending = e.message)
      (reads : ∀ future, Reads (r.unread ++ future) ms e) : Settled r ⟨ms, .error e⟩

/-- A receiver that waits. -/
theorem settled_of_short {r : Receiver} (allowed : r.Allowed) (short : r.Short) :
    r.Settled ⟨[], .ok r⟩ :=
  .waits allowed short fun _ _ _ reads => reads

/-- A header that was looked at is still unread. -/
theorem Settled.of_unread_eq {r r₁ : Receiver} {p : Progress} (settled : r₁.Settled p)
    (same : r₁.unread = r.unread) : r.Settled p := by
  cases settled with
  | waits allowed short reads =>
    rw [same] at reads
    exact .waits allowed short reads
  | fails ending reads =>
    rw [same] at reads
    exact .fails ending reads

/-- A frame was read, and the receiver goes on after it. -/
theorem Settled.cons {r r₁ : Receiver} {p : Progress} {m : Message} (settled : r₁.Settled p)
    (first : ∀ future, ∃ used, decode (r.unread ++ future) = .ok (m, used) ∧
      (r.unread ++ future).drop used = r₁.unread ++ future) :
    r.Settled ⟨m :: p.messages, p.next⟩ := by
  cases settled with
  | waits allowed short reads =>
    apply Settled.waits allowed short
    intro future later e read
    obtain ⟨used, decoded, rest⟩ := first future
    have after := reads future later e read
    rw [← rest] at after
    exact .cons decoded after
  | fails ending reads =>
    apply Settled.fails ending
    intro future
    obtain ⟨used, decoded, rest⟩ := first future
    have after := reads future
    rw [← rest] at after
    exact .cons decoded after

/-- A receiver that waits for a header goes on to the body that the header announces. -/
theorem settled_header {front rest : Bytes} (size : front.length = headerLength) {n : Nat}
    (later : ∀ length, length ≤ limit →
      Settled ⟨rest, .body length⟩ (advance n ⟨rest, .body length⟩)) :
    Settled ⟨front ++ rest, .header⟩
      (match readHeader front with
        | .error e => ⟨[], .error e⟩
        | .ok length => advance n ⟨rest, .body length⟩) := by
  rcases readHeader_cases front with ⟨small, read⟩ | refused
  · rw [read]
    have back : littleEndian headerLength (ofLittleEndian front) = front := by
      rw [← size]
      exact littleEndian_ofLittleEndian front
    apply (later _ small).of_unread_eq
    simp only [unread, back]
  · rw [refused]
    apply Settled.fails rfl
    intro future
    apply Reads.fails
    simp only [unread, List.append_assoc, decode_header_append size, refused]

/-- A receiver that waits for a body goes on to the next header. -/
theorem settled_body {length : Nat} (small : length ≤ limit) {body rest : Bytes}
    (size : body.length = length) {n : Nat}
    (later : Settled ⟨rest, .header⟩ (advance n ⟨rest, .header⟩)) :
    Settled ⟨body ++ rest, .body length⟩
      (match decodeBody body with
        | .error e => ⟨[], .error e⟩
        | .ok m =>
          let later := advance n ⟨rest, .header⟩
          ⟨m :: later.messages, later.next⟩) := by
  have front : (littleEndian headerLength length).length = headerLength := length_littleEndian _ _
  cases decoded : decodeBody body with
  | error e =>
    apply Settled.fails (ending_of_decodeBody decoded)
    intro future
    apply Reads.fails
    simp only [unread, List.append_assoc, decode_header_append front, readHeader_littleEndian small,
      splitBytes?_append_of_length size, decoded]
  | ok m =>
    apply later.cons
    intro future
    refine ⟨headerLength + length, ?_, ?_⟩
    · simp only [unread, List.append_assoc, decode_header_append front,
        readHeader_littleEndian small, splitBytes?_append_of_length size, decoded]
    · have frame : (littleEndian headerLength length ++ body).length = headerLength + length := by
        rw [List.length_append, front, size]
      simp only [unread]
      rw [← List.append_assoc, List.append_assoc _ rest, ← frame, List.drop_left]

/-- Enough rounds go as far as the bytes reach. -/
theorem settled_advance {n : Nat} {r : Receiver} (allowed : r.Allowed) (enough : r.rounds ≤ n) :
    r.Settled (advance n r) := by
  induction n generalizing r with
  | zero =>
    obtain ⟨pending, awaited⟩ := r
    cases awaited with
    | header =>
      have none : 2 * pending.length ≤ 0 := enough
      have short : pending.length < headerLength := by
        have : headerLength = 4 := rfl
        omega
      exact settled_of_short allowed short
    | body length => nomatch enough
  | succ n ih =>
    obtain ⟨pending, awaited⟩ := r
    cases awaited with
    | header =>
      have enough : 2 * pending.length ≤ n + 1 := enough
      cases split : splitBytes? headerLength pending with
      | none =>
        simp only [advance, split]
        exact settled_of_short allowed (splitBytes?_eq_none_iff.1 split)
      | some parts =>
        obtain ⟨front, rest⟩ := parts
        obtain ⟨rfl, size⟩ := splitBytes?_eq_some split
        have four : headerLength = 4 := rfl
        rw [List.length_append] at enough
        simp only [advance, split]
        apply settled_header size
        intro length small
        apply ih (r := ⟨rest, .body length⟩) small
        show 2 * rest.length + 1 ≤ n
        omega
    | body length =>
      have enough : 2 * pending.length + 1 ≤ n + 1 := enough
      cases split : splitBytes? length pending with
      | none =>
        simp only [advance, split]
        exact settled_of_short allowed (splitBytes?_eq_none_iff.1 split)
      | some parts =>
        obtain ⟨body, rest⟩ := parts
        obtain ⟨rfl, size⟩ := splitBytes?_eq_some split
        rw [List.length_append] at enough
        simp only [advance, split]
        apply settled_body allowed size
        apply ih (r := ⟨rest, .header⟩) trivial
        show 2 * rest.length ≤ n
        omega

/-! ## A stream in pieces -/

/-- Feeding a piece goes as far as the bytes reach. -/
theorem settled_feed {r : Receiver} (allowed : r.Allowed) (bytes : Bytes) :
    Settled { r with pending := r.pending ++ bytes } (r.feed bytes) := by
  apply settled_advance (r := { r with pending := r.pending ++ bytes }) allowed
  unfold rounds
  split <;> simp only [Nat.le_refl, Nat.le_add_right]

/-- The pieces of a stream come to what is read from the whole. -/
theorem reads_runFrom {r : Receiver} (allowed : r.Allowed) (short : r.Short)
    (chunks : List Bytes) :
    ∃ e, Reads (r.unread ++ chunks.flatten) (r.runFrom chunks).1 e ∧
      (r.runFrom chunks).2 = e.ending := by
  induction chunks generalizing r with
  | nil =>
    obtain ⟨needed, available, reads⟩ := reads_of_short allowed short
    refine ⟨.incompleteFrame needed available, ?_, rfl⟩
    rw [List.flatten_nil, List.append_nil]
    exact reads
  | cons chunk chunks ih =>
    have settled := settled_feed allowed chunk
    rw [runFrom, List.flatten_cons, ← List.append_assoc, ← unread_append]
    rcases fed : r.feed chunk with ⟨ms, e | r'⟩ <;> rw [fed] at settled
    · cases settled with
      | fails ending reads => exact ⟨e, reads _, ending.symm⟩
    · cases settled with
      | waits allowed' short' reads =>
        obtain ⟨e, later, ending⟩ := ih allowed' short'
        exact ⟨e, reads _ _ _ later, ending⟩

/-- A receiver that is fed a stream reads its frames, and tells why they end. -/
theorem reads_run (chunks : List Bytes) :
    ∃ ms e, Reads chunks.flatten ms e ∧
      run chunks = .connected :: ms.map .message ++ [.disconnected e.ending] := by
  have short : start.Short := Nat.zero_lt_succ 3
  obtain ⟨e, reads, ending⟩ := reads_runFrom (r := start) trivial short chunks
  refine ⟨_, e, reads, ?_⟩
  rw [← ending]
  rfl

end Receiver

namespace Transport

/-! ## The owner -/

/-- How an owner takes events: every one that is there, or waiting for the first one. -/
inductive Drain where
  | pump
  | runOne

/-- What happens to a transport: its task does something, or its owner takes events. -/
inductive Act where
  | step (s : Step)
  | take (how : Drain)

/-- What the task does. -/
def Act.step? : Act → Option Step
  | step s => some s
  | take _ => none

/-- The events that an owner gets. One that would have to wait gets none yet. -/
def drain (t : Transport) : Drain → List LinkEvent × Transport
  | .pump => t.pump
  | .runOne =>
    match t.runOne with
    | some (.ok events, t) => (events, t)
    | some (.error _, t) => ([], t)
    | none => ([], t)

/-- The events that the owner gets in the course of actions, and the transport after them. -/
def attend (t : Transport) : List Act → List LinkEvent × Transport
  | [] => ([], t)
  | .step s :: acts => (t.apply s).attend acts
  | .take how :: acts =>
    let (events, t) := t.drain how
    let (later, t) := t.attend acts
    (events ++ later, t)

/-- An owner gets every event that waits, in whichever way it takes them. -/
theorem drain_of_up {t : Transport} (up : t.aborted = false) (how : Drain) :
    t.drain how = (t.events, { t with events := [] }) := by
  obtain ⟨bound, task, outbox, batch, queued, written, receiver, disconnected, aborted, events⟩ := t
  subst up
  cases how with
  | pump => rfl
  | runOne =>
    cases events with
    | nil => cases disconnected <;> rfl
    | cons e events => rfl

/-! ## The task -/

/-- What the task of a transport does that receives and sends nothing. -/
def Step.receives : Step → Bool
  | .establish | .arrive _ | .fail _ => true
  | _ => false

/-- The events that wait do not matter to what a receiving task does. -/
theorem apply_events {t : Transport} {s : Step} (receives : s.receives = true)
    (es : List LinkEvent) :
    ({ t with events := es ++ t.events } : Transport).apply s =
      { t.apply s with events := es ++ (t.apply s).events } := by
  cases s with
  | establish =>
    simp only [apply, establish]
    split
    · simp only [List.append_assoc]
    · rfl
  | fail reason =>
    simp only [apply, fail]
    split
    · rfl
    · split
      · rfl
      · simp only [List.append_assoc]
  | arrive bytes =>
    simp only [apply, arrive]
    split
    · cases (t.receiver.feed bytes).next with
      | ok receiver => simp only [List.append_assoc]
      | error e =>
        simp only [fail]
        split
        · simp only [List.append_assoc]
        · split
          · simp only [List.append_assoc]
          · simp only [List.append_assoc]
    · rfl
  | send | takeBatch | finishWrite | breakWrite | account | abort => nomatch receives

theorem aborted_apply {t : Transport} {s : Step} (receives : s.receives = true) :
    (t.apply s).aborted = t.aborted := by
  cases s with
  | establish =>
    simp only [apply, establish]
    split <;> rfl
  | fail reason =>
    simp only [apply, fail]
    split <;> rfl
  | arrive bytes =>
    simp only [apply, arrive, fail]
    split
    · cases (t.receiver.feed bytes).next with
      | ok receiver => rfl
      | error e =>
        simp only []
        split <;> rfl
    · rfl
  | send | takeBatch | finishWrite | breakWrite | account | abort => nomatch receives

/-- **Taking events changes nothing.** What the owner gets, and then what still waits, are the
events of the same steps without an owner. -/
theorem attend_events {t : Transport} (up : t.aborted = false) {acts : List Act}
    (receives : ∀ s ∈ acts.filterMap Act.step?, s.receives = true) (earlier : List LinkEvent) :
    earlier ++ (t.attend acts).1 ++ (t.attend acts).2.events =
      (({ t with events := earlier ++ t.events } : Transport).run
        (acts.filterMap Act.step?)).events ∧ (t.attend acts).2.aborted = false := by
  induction acts generalizing t earlier with
  | nil =>
    refine ⟨?_, up⟩
    simp only [attend, List.append_nil, List.filterMap_nil, run, List.foldl_nil]
  | cons act acts ih =>
    cases act with
    | step s =>
      have steps : (Act.step s :: acts).filterMap Act.step? = s :: acts.filterMap Act.step? := rfl
      rw [steps] at receives ⊢
      have receives' : s.receives = true := receives s List.mem_cons_self
      have later := ih ((aborted_apply receives').trans up)
        (fun s' mem => receives s' (List.mem_cons_of_mem s mem)) earlier
      rw [← apply_events receives'] at later
      exact later
    | take how =>
      have drained := drain_of_up up how
      have later := ih (t := { t with events := [] }) up receives (earlier ++ t.events)
      simp only [List.append_nil] at later
      simp only [attend, drained]
      rw [← List.append_assoc]
      exact later

theorem attend_append (t : Transport) (acts more : List Act) :
    (t.attend (acts ++ more)).1 = (t.attend acts).1 ++ ((t.attend acts).2.attend more).1 := by
  induction acts generalizing t with
  | nil => rfl
  | cons act acts ih =>
    cases act with
    | step s => exact ih (t.apply s)
    | take how =>
      simp only [List.cons_append, attend, List.append_assoc]
      exact congrArg _ (ih _)

/-- An owner that takes events last has got every event. -/
theorem attend_take {t : Transport} (up : t.aborted = false) {acts : List Act}
    (receives : ∀ s ∈ acts.filterMap Act.step?, s.receives = true) (how : Drain) :
    (t.attend (acts ++ [.take how])).1 = (t.run (acts.filterMap Act.step?)).events := by
  obtain ⟨all, up'⟩ := attend_events up receives []
  have last : ((t.attend acts).2.attend [.take how]).1 = (t.attend acts).2.events := by
    simp only [attend, drain_of_up up', List.append_nil]
  rw [attend_append, last]
  exact all

/-! ## A stream in pieces -/

/-- Nothing comes of what happens after the task has ended. -/
theorem run_of_ended {t : Transport} (ended : t.task = .ended) (chunks : List Bytes)
    (reason : String) : t.run (chunks.map .arrive ++ [.fail reason]) = t := by
  induction chunks with
  | nil =>
    simp only [List.map_nil, List.nil_append, run, List.foldl_cons, List.foldl_nil, apply, fail,
      ended, if_true]
  | cons chunk chunks ih =>
    have same : t.apply (.arrive chunk) = t := by
      simp only [apply, arrive, ended, reduceCtorEq, if_false]
    simp only [List.map_cons, List.cons_append, run, List.foldl_cons, same]
    exact ih

/-- The events of a stream that arrives in pieces and then ends are those of a receiver. -/
theorem run_arrive {t : Transport} (running : t.task = .running) (going : t.disconnected = false)
    (chunks : List Bytes) :
    (t.run (chunks.map .arrive ++ [.fail Receiver.endOfStream])).events =
      t.events ++ ((t.receiver.runFrom chunks).1.map .message ++
        [.disconnected (t.receiver.runFrom chunks).2]) := by
  induction chunks generalizing t with
  | nil =>
    simp only [List.map_nil, List.nil_append, run, List.foldl_cons, List.foldl_nil, apply, fail,
      running, going, reduceCtorEq, Bool.false_eq_true, if_false, Receiver.runFrom]
  | cons chunk chunks ih =>
    rw [List.map_cons, List.cons_append, run, List.foldl_cons, Receiver.runFrom]
    rcases fed : t.receiver.feed chunk with ⟨ms, e | receiver⟩
    · have arrived : t.apply (.arrive chunk) =
          ({ t with events := t.events ++ ms.map .message } : Transport).fail e.message := by
        simp only [apply, arrive, running, if_true, fed]
      have failed : ({ t with events := t.events ++ ms.map .message } : Transport).fail e.message =
          { t with
            task := .ended
            disconnected := true
            events := t.events ++ ms.map .message ++ [.disconnected e.message] } := by
        simp only [fail, running, going, reduceCtorEq, Bool.false_eq_true, if_false]
      rw [arrived, failed]
      have ended := run_of_ended (t := { t with
        task := .ended
        disconnected := true
        events := t.events ++ ms.map .message ++ [.disconnected e.message] }) rfl chunks
        Receiver.endOfStream
      rw [run] at ended
      rw [ended, List.append_assoc]
    · have arrived : t.apply (.arrive chunk) =
          { t with receiver, events := t.events ++ ms.map .message } := by
        simp only [apply, arrive, running, if_true, fed]
      have later := ih (t := { t with receiver, events := t.events ++ ms.map .message }) running
        going
      rw [arrived]
      rw [run] at later
      rw [later]
      simp only [List.map_append, List.append_assoc]

/-- A transport whose stream is set up, brings some bytes and then ends. -/
theorem events_of_run (bound : Option Endpoint) (chunks : List Bytes) :
    ((opening bound).run
      (.establish :: chunks.map .arrive ++ [.fail Receiver.endOfStream])).events =
        Receiver.run chunks := by
  have later := run_arrive (t := (opening bound).establish) rfl rfl chunks
  exact later

/-- **What a stream brings.** The frames of a byte string can be read from the start in one way, up
to an error. Wherever the string is cut and whenever its pieces arrive, and however the owner takes
events meanwhile, it gets that it is connected, then these messages, and last that the stream has
ended: with the text of the error, unless bytes were missing. -/
theorem events_of_stream (bytes : Bytes) :
    ∃ ms e, (∀ ms' e', Frame.Reads bytes ms' e' ↔ ms' = ms ∧ e' = e) ∧
      ∀ chunks : List Bytes, chunks.flatten = bytes →
        Receiver.run chunks = .connected :: ms.map .message ++ [.disconnected e.ending] ∧
        ∀ (bound : Option Endpoint) (acts : List Act) (how : Drain),
          acts.filterMap Act.step? =
            .establish :: chunks.map .arrive ++ [.fail Receiver.endOfStream] →
          ((opening bound).attend (acts ++ [.take how])).1 =
            .connected :: ms.map .message ++ [.disconnected e.ending] := by
  obtain ⟨ms, e, reads, _⟩ := Receiver.reads_run [bytes]
  rw [List.flatten_singleton] at reads
  refine ⟨ms, e, fun ms' e' => ⟨reads.unique, ?_⟩, ?_⟩
  · rintro ⟨rfl, rfl⟩
    exact reads
  · intro chunks cut
    obtain ⟨ms', e', reads', events⟩ := Receiver.reads_run chunks
    rw [cut] at reads'
    obtain ⟨rfl, rfl⟩ := reads.unique reads'
    refine ⟨events, ?_⟩
    intro bound acts how script
    have receives : ∀ s ∈ acts.filterMap Act.step?, s.receives = true := by
      intro s mem
      simp only [script, List.cons_append, List.mem_cons, List.mem_append, List.mem_map,
        List.not_mem_nil, or_false] at mem
      rcases mem with rfl | ⟨bytes, _, rfl⟩ | rfl <;> rfl
    rw [attend_take rfl receives, script, events_of_run, events]

/-- A stream that is cut inside a header, and that ends inside the next one. -/
theorem events_of_stream_cut :
    let chunks : List Bytes := [[16, 0], [0, 0, 8, 0, 0, 0, 0], [0, 0, 0],
      [0x6D, 0x73, 0x67, 0x2E, 0x74, 0x65, 0x72, 0x6D, 16]]
    let acts : List Act := [.take .runOne, .step .establish, .step (.arrive [16, 0]),
      .take .pump, .step (.arrive [0, 0, 8, 0, 0, 0, 0]), .step (.arrive [0, 0, 0]), .take .runOne,
      .step (.arrive [0x6D, 0x73, 0x67, 0x2E, 0x74, 0x65, 0x72, 0x6D, 16]), .take .pump,
      .step (.fail Receiver.endOfStream)]
    acts.filterMap Act.step? = .establish :: chunks.map .arrive ++ [.fail Receiver.endOfStream] ∧
      ((opening none).attend (acts ++ [.take .runOne])).1 =
        [.connected, .message .terminate, .disconnected "connection closed by peer"] := by
  intro chunks acts
  obtain ⟨ms, e, reads, events⟩ := events_of_stream chunks.flatten
  have encoded : Frame.encode .terminate = .ok [16, 0, 0, 0, 8, 0, 0, 0, 0, 0, 0, 0, 0x6D, 0x73,
    0x67, 0x2E, 0x74, 0x65, 0x72, 0x6D] := rfl
  have first : Frame.decode chunks.flatten = .ok (.terminate, 20) :=
    Frame.decode_append encoded [16]
  have read : Frame.Reads chunks.flatten [.terminate] (.incompleteFrame 4 1) :=
    .cons first (.fails rfl)
  obtain ⟨rfl, rfl⟩ := (reads _ _).1 read
  exact ⟨rfl, (events chunks rfl).2 none acts .runOne rfl⟩

end Transport

end CallDebugger
