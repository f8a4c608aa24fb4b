import CallDebugger.Proofs.Format.Faithful
import CallDebugger.Proofs.Format.Records
import CallDebugger.Protocol.Frame

/-!
# Frames are read back

A message that fits a frame is read back from it, whatever bytes follow, and a run of frames is read
back message by message (`Frame.encode_decode`). A message that does not fit is refused with the
length of its body.
-/

namespace CallDebugger

/-- The bytes of a message begin with the tag of a kind. -/
theorem Message.encode_eq (m : Message) :
    ∃ (kind : Kind) (content : Bytes),
      codec.encode m = Codec.text.encode kind.tag ++ content ∧
        Codec.text.size kind.tag ≤ codec.size m :=
  ⟨(alternatives.parts m).1, _, rfl, Nat.le_add_right _ _⟩

theorem Message.length_encode (m : Message) : (codec.encode m).length = codec.size m :=
  built.faithful.length_encode m

namespace Frame

theorem limit_lt : limit < UInt64.size := by decide

/-- A length that is allowed is read back from its header. -/
theorem readHeader_littleEndian {length : Nat} (h : length ≤ limit) :
    readHeader (littleEndian headerLength length) = .ok length := by
  have small : length < 2 ^ (8 * headerLength) := Nat.lt_of_le_of_lt h (by decide)
  have back : ofLittleEndian (littleEndian headerLength length) = length :=
    ofLittleEndian_littleEndian small
  have allowed : ¬ limit < length := Nat.not_lt.2 h
  simp only [readHeader, back, if_neg allowed]

/-- The tag of a body is found among the tags of messages. -/
theorem find?_tag (kind : Message.Kind) :
    Message.Kind.all.find? (fun k => k.tag == kind.tag) = some kind := by
  cases kind <;> decide

/-- A body that can be counted is read back. -/
theorem decodeBody_encode {m : Message} (small : Message.codec.size m < UInt64.size) :
    decodeBody (Message.codec.encode m) = .ok m := by
  obtain ⟨kind, content, shape, shorter⟩ := m.encode_eq
  have tag := Codec.faithful_text.decode_encode kind.tag content (Nat.lt_of_le_of_lt shorter small)
  have whole := Message.built.faithful.decode_encode_self small
  rw [← shape] at tag
  simp only [decodeBody, tag, find?_tag, whole]

theorem encode_of_le {m : Message} (h : Message.codec.size m ≤ limit) :
    encode m =
      .ok (littleEndian headerLength (Message.codec.size m) ++ Message.codec.encode m) := by
  simp only [encode, header, if_neg (Nat.not_lt.2 h)]

theorem encode_of_lt {m : Message} (h : limit < Message.codec.size m) :
    encode m = .error (.frameTooLarge (Message.codec.size m)) := by
  simp only [encode, header, if_pos h]

/-- What a frame that was made looks like. -/
theorem eq_of_encode {m : Message} {frame : Bytes} (h : encode m = .ok frame) :
    Message.codec.size m ≤ limit ∧
      frame = littleEndian headerLength (Message.codec.size m) ++ Message.codec.encode m := by
  by_cases fits : Message.codec.size m ≤ limit
  · rw [encode_of_le fits] at h
    exact ⟨fits, (Except.ok.inj h).symm⟩
  · rw [encode_of_lt (Nat.lt_of_not_le fits)] at h
    nomatch h

theorem length_of_encode {m : Message} {frame : Bytes} (h : encode m = .ok frame) :
    frame.length = headerLength + Message.codec.size m := by
  rw [(eq_of_encode h).2, List.length_append, length_littleEndian, m.length_encode]

/-- A frame is read back, and nothing of what follows it is taken. -/
theorem decode_append {m : Message} {frame : Bytes} (h : encode m = .ok frame) (rest : Bytes) :
    decode (frame ++ rest) = .ok (m, frame.length) := by
  obtain ⟨fits, shape⟩ := eq_of_encode h
  have front := splitBytes?_append_of_length
    (length_littleEndian headerLength (Message.codec.size m)) (Message.codec.encode m ++ rest)
  have body := splitBytes?_append_of_length m.length_encode rest
  have message := decodeBody_encode (m := m) (Nat.lt_of_le_of_lt fits limit_lt)
  rw [length_of_encode h, shape, List.append_assoc]
  simp only [decode, front, readHeader_littleEndian fits, body, message]

/-- Reading frames from the start again and again gives the messages, each with the bytes that its
frame takes, and uses up the buffer. -/
inductive UsesUp : Bytes → List (Message × Nat) → Prop where
  | nil : UsesUp [] []
  | cons {buffer : Bytes} {m : Message} {used : Nat} {later : List (Message × Nat)}
      (first : decode buffer = .ok (m, used)) (rest : UsesUp (buffer.drop used) later) :
      UsesUp buffer ((m, used) :: later)

/-- Every message of a list that can be encoded has its frame, the first one first. -/
theorem mapM_encode_cons {m : Message} {ms : List Message} {frames : List Bytes}
    (h : (m :: ms).mapM encode = .ok frames) :
    ∃ frame rest, encode m = .ok frame ∧ ms.mapM encode = .ok rest ∧ frames = frame :: rest := by
  rw [List.mapM_cons] at h
  cases first : encode m with
  | error e => rw [first] at h; nomatch h
  | ok frame =>
    cases others : ms.mapM encode with
    | error e => rw [first, others] at h; nomatch h
    | ok rest =>
      rw [first, others] at h
      exact ⟨frame, rest, rfl, rfl, (Except.ok.inj h).symm⟩

theorem length_of_mapM {ms : List Message} {frames : List Bytes}
    (h : ms.mapM encode = .ok frames) : frames.length = ms.length := by
  induction ms generalizing frames with
  | nil => cases h; rfl
  | cons m ms ih =>
    obtain ⟨frame, rest, _, others, rfl⟩ := mapM_encode_cons h
    rw [List.length_cons, List.length_cons, ih others]

/-- Frames in a row are read back one by one. -/
theorem usesUp_flatten {ms : List Message} {frames : List Bytes} (h : ms.mapM encode = .ok frames) :
    UsesUp frames.flatten (ms.zip (frames.map List.length)) := by
  induction ms generalizing frames with
  | nil =>
    cases h
    exact .nil
  | cons m ms ih =>
    obtain ⟨frame, rest, first, others, rfl⟩ := mapM_encode_cons h
    refine .cons (decode_append first rest.flatten) ?_
    rw [List.flatten_cons, List.drop_left]
    exact ih others

/-- A frame takes at least its header. -/
theorem headerLength_le_of_decode {buffer : Bytes} {m : Message} {used : Nat}
    (h : decode buffer = .ok (m, used)) : headerLength ≤ used := by
  unfold decode at h
  split at h
  · nomatch h
  split at h
  · nomatch h
  split at h
  · nomatch h
  split at h
  · nomatch h
  cases h
  exact Nat.le_add_right headerLength _

/-- A run of frames that uses up the buffer is the one that is read. -/
theorem UsesUp.decodeRun_eq {buffer : Bytes} {messages : List (Message × Nat)}
    (h : UsesUp buffer messages) {rounds : Nat} (enough : buffer.length ≤ rounds) :
    decodeRun rounds buffer = ⟨messages, none⟩ := by
  induction h generalizing rounds with
  | nil => cases rounds <;> rfl
  | @cons buffer m used later first _ ih =>
    have taken := headerLength_le_of_decode first
    cases buffer with
    | nil => nomatch first
    | cons b bytes =>
      cases rounds with
      | zero => nomatch enough
      | succ rounds =>
        have left : ((b :: bytes).drop used).length ≤ rounds := by
          rw [List.length_drop, List.length_cons] at *
          have : headerLength = 4 := rfl
          omega
        simp only [decodeRun, first, ih left]

/-- **Round trip of frames.** A message whose body is too long is refused with that length. Any other
gets a frame of a header, which reads back as the length of the body, and the body; the message is
read back from it with the length of the frame, whatever follows. So frames in a row are read back
one by one, and nothing is left. -/
theorem encode_decode :
    (∀ m : Message,
      if limit < (Message.codec.encode m).length then
        encode m = .error (.frameTooLarge (Message.codec.encode m).length)
      else
        ∃ front : Bytes, front.length = headerLength ∧
          readHeader front = .ok (Message.codec.encode m).length ∧
          encode m = .ok (front ++ Message.codec.encode m) ∧
          ∀ rest, decode (front ++ Message.codec.encode m ++ rest) =
            .ok (m, (front ++ Message.codec.encode m).length)) ∧
    ∀ (ms : List Message) (frames : List Bytes), ms.mapM encode = .ok frames →
      frames.length = ms.length ∧
        UsesUp frames.flatten (ms.zip (frames.map List.length)) ∧
        decodeAll frames.flatten = ⟨ms.zip (frames.map List.length), none⟩ := by
  constructor
  · intro m
    rw [m.length_encode]
    split
    · exact encode_of_lt ‹_›
    · have fits : Message.codec.size m ≤ limit := Nat.le_of_not_lt ‹_›
      exact ⟨_, length_littleEndian _ _, readHeader_littleEndian fits, encode_of_le fits,
        decode_append (encode_of_le fits)⟩
  · intro ms frames h
    have run := usesUp_flatten h
    exact ⟨length_of_mapM h, run, run.decodeRun_eq (Nat.le_refl _)⟩

/-- A NaN, two names that differ in their targets only, and a set of them come back as they went. -/
theorem encode_decode_targets :
    let call : Call := ⟨7, [.float32 0x7FC00001, .float64 0xFFF8000000000001], none, 0, none⟩
    let report := { ContextReport.empty 7 with textures := .ofList [⟨7, 1, 0x0DE1⟩, ⟨7, 1, 0x8513⟩] }
    let ms := [.paused ⟨call, 12, 7, [report]⟩,
      .request ⟨9, .query .texture ⟨7, 1, 0x8513⟩⟩, .terminate]
    ∃ frames, ms.mapM encode = .ok frames ∧ frames.length = ms.length ∧
      UsesUp frames.flatten (ms.zip (frames.map List.length)) ∧
        decodeAll frames.flatten = ⟨ms.zip (frames.map List.length), none⟩ := by
  intro call report ms
  have made : (ms.mapM encode).isOk := by decide +kernel
  cases h : ms.mapM encode with
  | error e => rw [h] at made; nomatch made
  | ok frames => exact ⟨frames, rfl, encode_decode.2 ms frames h⟩

end Frame

end CallDebugger
