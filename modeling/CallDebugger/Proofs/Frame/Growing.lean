import CallDebugger.Proofs.Format.Stable
import CallDebugger.Proofs.Frame.Reencoded

/-!
# More bytes behind a buffer

What a buffer says about its first frame is settled by the bytes up to the end of that frame.
`Frame.Holds` tells the four ways it goes: the bytes end in the header, the header announces too
much, the bytes end in the body, or the body is there. More bytes change the answer in the first and
the third case only, and not before there are as many as the answer asked for
(`Frame.decode_more`). A body is read as a whole or not at all (`Frame.decodeBody_of_part`).
-/

namespace CallDebugger.Frame

/-- What reading the first frame of a buffer comes to. -/
inductive Holds : Bytes → Except ProtocolError (Message × Nat) → Prop where
  | header {buffer : Bytes} (short : buffer.length < headerLength) :
      Holds buffer (.error (.incompleteFrame headerLength buffer.length))
  | tooLarge {front : Bytes} (size : front.length = headerLength)
      (large : limit < ofLittleEndian front) (rest : Bytes) :
      Holds (front ++ rest) (.error (.frameTooLarge (ofLittleEndian front)))
  | body {front rest : Bytes} (size : front.length = headerLength)
      (small : ofLittleEndian front ≤ limit) (short : rest.length < ofLittleEndian front) :
      Holds (front ++ rest)
        (.error (.incompleteFrame (headerLength + ofLittleEndian front) (front ++ rest).length))
  | whole {front body : Bytes} (size : front.length = headerLength)
      (small : ofLittleEndian front ≤ limit) (full : body.length = ofLittleEndian front)
      (rest : Bytes) :
      Holds (front ++ (body ++ rest))
        ((decodeBody body).map fun m => (m, headerLength + ofLittleEndian front))

/-- A buffer goes one of the four ways. -/
theorem exists_holds (buffer : Bytes) : ∃ r, Holds buffer r := by
  cases header : splitBytes? headerLength buffer with
  | none => exact ⟨_, .header (splitBytes?_eq_none_iff.1 header)⟩
  | some p =>
    obtain ⟨rfl, size⟩ := splitBytes?_eq_some header
    by_cases large : limit < ofLittleEndian p.1
    · exact ⟨_, .tooLarge size large p.2⟩
    have small := Nat.not_lt.1 large
    cases content : splitBytes? (ofLittleEndian p.1) p.2 with
    | none => exact ⟨_, .body size small (splitBytes?_eq_none_iff.1 content)⟩
    | some q =>
      obtain ⟨cut, full⟩ := splitBytes?_eq_some content
      exact ⟨_, cut ▸ Holds.whole size small full q.2⟩

theorem Holds.decode_eq {buffer : Bytes} {r : Except ProtocolError (Message × Nat)}
    (h : Holds buffer r) : decode buffer = r := by
  cases h with
  | header short =>
    have missing := splitBytes?_eq_none_iff.2 short
    simp only [decode, missing]
  | tooLarge size large rest =>
    have header := splitBytes?_append_of_length size rest
    simp only [decode, header, readHeader, if_pos large]
  | @body front rest size small short =>
    have header := splitBytes?_append_of_length size rest
    have missing := splitBytes?_eq_none_iff.2 short
    simp only [decode, header, readHeader, if_neg (Nat.not_lt.2 small), missing]
  | @whole front body size small full rest =>
    have header := splitBytes?_append_of_length size (body ++ rest)
    have content := splitBytes?_append_of_length full rest
    simp only [decode, header, readHeader, if_neg (Nat.not_lt.2 small), content]
    cases decodeBody body <;> rfl

theorem holds_decode (buffer : Bytes) : Holds buffer (decode buffer) := by
  obtain ⟨r, h⟩ := exists_holds buffer
  rwa [h.decode_eq]

/-- What is wrong with a body is not that bytes of the frame are missing. -/
theorem complete_of_decodeBody {body : Bytes} {needed available : Nat} :
    decodeBody body ≠ .error (.incompleteFrame needed available) := by
  intro h
  unfold decodeBody at h
  split at h
  · cases h
  split at h
  · cases h
  split at h <;> cases h

/-- An answer that does not ask for more bytes. -/
def Complete (r : Except ProtocolError (Message × Nat)) : Prop :=
  ∀ needed available, r ≠ .error (.incompleteFrame needed available)

/-- What a whole body comes to asks for nothing more, and takes the frame. -/
theorem complete_whole (body : Bytes) (used : Nat) :
    Complete ((decodeBody body).map fun m => (m, used)) := by
  intro needed available h
  cases read : decodeBody body with
  | ok m =>
    rw [read] at h
    cases h
  | error e =>
    rw [read] at h
    cases h
    exact complete_of_decodeBody read

/-- An answer that does not ask for more bytes stays whatever follows. -/
theorem Holds.append {buffer : Bytes} {r : Except ProtocolError (Message × Nat)}
    (h : Holds buffer r) (complete : Complete r) (more : Bytes) : Holds (buffer ++ more) r := by
  cases h with
  | header => exact absurd rfl (complete _ _)
  | tooLarge size large rest =>
    rw [List.append_assoc]
    exact .tooLarge size large _
  | body => exact absurd rfl (complete _ _)
  | whole size small full rest =>
    rw [List.append_assoc, List.append_assoc]
    exact .whole size small full _

theorem decode_append_of_complete {buffer : Bytes} (h : Complete (decode buffer)) (more : Bytes) :
    decode (buffer ++ more) = decode buffer :=
  ((holds_decode buffer).append h more).decode_eq

/-- A buffer that ends inside its first frame: how many bytes are asked for, and what becomes of the
question when more bytes follow. -/
structure Waits (needed : Nat) (buffer : Bytes) : Prop where
  short : buffer.length < needed
  header : buffer.length < headerLength → needed = headerLength
  /-- The question stays until the bytes are there. -/
  still : ∀ more, (buffer ++ more).length < needed →
    decode (buffer ++ more) = .error (.incompleteFrame needed (buffer ++ more).length)
  /-- Once the header is there, the question is for the frame. -/
  enough : headerLength ≤ buffer.length → ∀ more, needed ≤ (buffer ++ more).length →
    Complete (decode (buffer ++ more)) ∧
      ∀ m used, decode (buffer ++ more) = .ok (m, used) → used = needed

theorem waits_header {buffer : Bytes} (short : buffer.length < headerLength) :
    Waits headerLength buffer where
  short := short
  header _ := rfl
  still _ fewer := (Holds.header fewer).decode_eq
  enough header := absurd short (Nat.not_lt.2 header)

theorem waits_body {front rest : Bytes} (size : front.length = headerLength)
    (small : ofLittleEndian front ≤ limit) (short : rest.length < ofLittleEndian front) :
    Waits (headerLength + ofLittleEndian front) (front ++ rest) where
  short := by
    rw [List.length_append]
    omega
  header fewer := by
    rw [List.length_append] at fewer
    omega
  still more fewer := by
    rw [List.append_assoc] at fewer ⊢
    have missing : (rest ++ more).length < ofLittleEndian front := by
      rw [List.length_append] at fewer
      omega
    exact (Holds.body size small missing).decode_eq
  enough _ more there := by
    rw [List.append_assoc] at there ⊢
    cases content : splitBytes? (ofLittleEndian front) (rest ++ more) with
    | none =>
      have missing := splitBytes?_eq_none_iff.1 content
      rw [List.length_append] at there
      omega
    | some p =>
      obtain ⟨cut, full⟩ := splitBytes?_eq_some content
      have read := (Holds.whole size small full p.2).decode_eq
      rw [cut, read]
      refine ⟨complete_whole _ _, fun m used taken => ?_⟩
      cases body : decodeBody p.1 with
      | error e =>
        rw [body] at taken
        cases taken
      | ok _ =>
        rw [body] at taken
        cases taken
        rfl

/-- An answer that asks for more bytes tells how many there are and how many there have to be. -/
theorem Holds.waits {buffer : Bytes} {r : Except ProtocolError (Message × Nat)}
    (h : Holds buffer r) {needed available : Nat}
    (asks : r = .error (.incompleteFrame needed available)) :
    available = buffer.length ∧ Waits needed buffer := by
  cases h with
  | header short =>
    cases asks
    exact ⟨rfl, waits_header short⟩
  | tooLarge => cases asks
  | body size small short =>
    cases asks
    exact ⟨rfl, waits_body size small short⟩
  | whole => exact absurd asks (complete_whole _ _ _ _)

theorem waits_of_decode {buffer : Bytes} {needed available : Nat}
    (h : decode buffer = .error (.incompleteFrame needed available)) :
    available = buffer.length ∧ Waits needed buffer :=
  (holds_decode buffer).waits h

/-- A frame that was read is there. -/
theorem Holds.used_le {buffer : Bytes} {r : Except ProtocolError (Message × Nat)}
    (h : Holds buffer r) {m : Message} {used : Nat} (taken : r = .ok (m, used)) :
    used ≤ buffer.length := by
  cases h with
  | header => cases taken
  | tooLarge => cases taken
  | body => cases taken
  | @whole front body size small full rest =>
    cases read : decodeBody body with
    | error e =>
      rw [read] at taken
      cases taken
    | ok _ =>
      rw [read] at taken
      cases taken
      rw [List.length_append, List.length_append]
      omega

/-- A part of a frame asks for the header, and then for the frame. -/
theorem decode_of_part {front rest : Bytes} {m : Message}
    (frame : decode (front ++ rest) = .ok (m, (front ++ rest).length)) (missing : rest ≠ []) :
    decode front = .error (.incompleteFrame
      (if front.length < headerLength then headerLength else (front ++ rest).length)
      front.length) := by
  have longer : front.length < (front ++ rest).length := by
    have := List.length_pos_iff.2 missing
    rw [List.length_append]
    omega
  by_cases asks : ∃ needed available, decode front = .error (.incompleteFrame needed available)
  · obtain ⟨needed, available, asks⟩ := asks
    obtain ⟨rfl, waits⟩ := waits_of_decode asks
    rw [asks]
    split
    · rw [waits.header ‹_›]
    · have header : headerLength ≤ front.length := Nat.not_lt.1 ‹_›
      by_cases there : needed ≤ (front ++ rest).length
      · rw [(waits.enough header rest there).2 _ _ frame]
      · have still := waits.still rest (Nat.lt_of_not_le there)
        rw [frame] at still
        cases still
  · -- without a question the part alone would already hold the frame
    have same := decode_append_of_complete (fun n a h => asks ⟨n, a, h⟩) rest
    have fits := (holds_decode front).used_le (same.symm.trans frame)
    omega

/-! ## Bodies -/

/-- A body that is used up is refused as malformed when bytes are missing at its end. -/
theorem decodeBody_of_part {front rest : Bytes} {m : Message}
    (whole : Message.codec.decode (front ++ rest) = .ok (m, [])) (missing : rest ≠ []) :
    ∃ tag fault, decodeBody front = .error (.decode tag fault) := by
  obtain ⟨fault, refused⟩ := Message.built.stable.refuses whole missing
  cases word : Codec.text.decode front with
  | error fault => exact ⟨none, fault, by simp only [decodeBody, word]⟩
  | ok read =>
    -- the tag is whole, so it is the one that the body had
    obtain ⟨middle, kind⟩ := Message.decode_tag whole
    obtain ⟨tag, first, found⟩ := Codec.decode_keyword kind
    have same := Codec.stable_text _ _ _ word rest
    rw [first] at same
    cases same
    exact ⟨some m.kind, fault, by simp only [decodeBody, word, found, refused]⟩

/-- **More bytes.** An answer that does not ask for more bytes stays whatever follows. One that does
tells how many bytes there are and a larger number, and stays until there are that many; if the
header was there already, they are enough, and a frame that is read then takes just as many. So a
frame that lacks bytes at its end asks for them, and a body that lacks bytes is malformed. -/
theorem decode_more :
    (∀ buffer, (∀ needed available, decode buffer ≠ .error (.incompleteFrame needed available)) →
      ∀ more, decode (buffer ++ more) = decode buffer) ∧
    (∀ buffer needed available, decode buffer = .error (.incompleteFrame needed available) →
      available = buffer.length ∧ buffer.length < needed ∧
        (∀ more, (buffer ++ more).length < needed →
          decode (buffer ++ more) = .error (.incompleteFrame needed (buffer ++ more).length)) ∧
        (headerLength ≤ buffer.length → ∀ more, needed ≤ (buffer ++ more).length →
          (∀ n a, decode (buffer ++ more) ≠ .error (.incompleteFrame n a)) ∧
            ∀ m used, decode (buffer ++ more) = .ok (m, used) → used = needed)) ∧
    (∀ (m : Message) (front rest : Bytes), rest ≠ [] →
      encode m = .ok (front ++ rest) ∨ decode (front ++ rest) = .ok (m, (front ++ rest).length) →
      decode front = .error (.incompleteFrame
        (if front.length < headerLength then headerLength else (front ++ rest).length)
        front.length)) ∧
    (∀ (m : Message) (front rest : Bytes), rest ≠ [] → Message.codec.encode m = front ++ rest →
      (front ++ rest).length < UInt64.size →
      ∃ tag fault, decodeBody front = .error (.decode tag fault)) := by
  refine ⟨fun buffer => decode_append_of_complete, fun buffer needed available asks => ?_,
    fun m front rest missing frame => ?_, fun m front rest missing body counted => ?_⟩
  · obtain ⟨count, waits⟩ := waits_of_decode asks
    exact ⟨count, waits.short, waits.still, waits.enough⟩
  · rcases frame with made | read
    · have back := decode_append made []
      rw [List.append_nil] at back
      exact decode_of_part back missing
    · exact decode_of_part read missing
  · have small : Message.codec.size m < UInt64.size := by
      rw [← m.length_encode, body]
      exact counted
    have whole := Message.built.faithful.decode_encode_self small
    rw [body] at whole
    exact decodeBody_of_part whole missing

/-- The header of a body of sixteen bytes asks for twenty, and so does all but the last byte of the
frame, whose body is malformed. -/
theorem decode_more_terminate :
    let front : Bytes := [16, 0, 0, 0]
    let body : Bytes := [8, 0, 0, 0, 0, 0, 0, 0, 109, 115, 103, 46, 116, 101, 114]
    encode .terminate = .ok (front ++ body ++ [109]) ∧
      (∀ more, decode (front ++ body ++ [109] ++ more) = decode (front ++ body ++ [109])) ∧
      (∀ more, (front ++ more).length < 20 →
        decode (front ++ more) = .error (.incompleteFrame 20 (front ++ more).length)) ∧
      (∀ more, 20 ≤ (front ++ more).length → ∀ m used,
        decode (front ++ more) = .ok (m, used) → used = 20) ∧
      decode (front ++ body) = .error (.incompleteFrame 20 19) ∧
      ∃ tag fault, decodeBody body = .error (.decode tag fault) := by
  intro front body
  have written : Message.codec.encode .terminate = body ++ [109] := by decide +kernel
  have size : Message.codec.size .terminate = 16 := by decide +kernel
  have made : encode .terminate = .ok (front ++ body ++ [109]) := by
    rw [encode_of_le (by rw [size]; decide), size, written]
    rfl
  have read : decode (front ++ body ++ [109]) = .ok (.terminate, 20) := by
    have back := decode_append made []
    rwa [List.append_nil] at back
  have complete : ∀ needed available,
      decode (front ++ body ++ [109]) ≠ .error (.incompleteFrame needed available) := by
    intro needed available asks
    rw [read] at asks
    cases asks
  have asks : decode front = .error (.incompleteFrame 20 4) := rfl
  obtain ⟨-, -, still, enough⟩ := decode_more.2.1 front 20 4 asks
  exact ⟨made, decode_more.1 _ complete, still,
    fun more there => (enough (by decide) more there).2,
    decode_more.2.2.1 .terminate (front ++ body) [109] (by decide) (.inl made),
    decode_more.2.2.2 .terminate body [109] (by decide) written (by decide)⟩

end CallDebugger.Frame
