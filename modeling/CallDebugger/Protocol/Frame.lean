import CallDebugger.Protocol.Format

/-!
# Frames

A frame is a message on the wire: the length of its body as a 32-bit word, then the body. No body
may be longer than `Frame.limit`. A receiver looks at the tag of a body first, so a message of an
unknown kind is told from a malformed one.
-/

namespace CallDebugger

/-- What can be wrong with a message. -/
inductive ProtocolError where
  /-- The body is malformed; the tag is given once it is known. -/
  | decode (tag : Option Message.Kind) (fault : Fault)
  | unknownTag (tag : String)
  | frameTooLarge (length : Nat)
  /-- The bytes end inside a frame. -/
  | incompleteFrame (needed available : Nat)
  /-- The receiver does not accept messages of this kind. -/
  | unhandled (kind : Message.Kind)
deriving Repr, DecidableEq, Inhabited

/-- The wording of a mismatch between pixels and geometry. -/
def StorageMismatch.message (e : StorageMismatch) : String :=
  "pixel storage holds " ++ toString e.actual ++ " bytes, geometry requires " ++ toString e.expected

namespace Frame

/-- How many bytes the length takes. -/
def headerLength : Nat := 4

/-- The length of the longest body: 64 MiB. -/
def limit : Nat := 64 * 1024 * 1024

end Frame

/-- The wording of a protocol error. -/
def ProtocolError.message : ProtocolError → String
  | decode none fault => "failed to decode message: " ++ fault.message
  | decode (some kind) fault => "failed to decode message: " ++ kind.tag ++ ": " ++ fault.message
  | unknownTag tag => "unknown message tag: " ++ tag
  | frameTooLarge length =>
    "frame of " ++ toString length ++ " bytes exceeds the " ++ toString Frame.limit ++ " byte limit"
  | incompleteFrame needed available =>
    "incomplete frame: need " ++ toString needed ++ " bytes, have " ++ toString available
  | unhandled kind => "unhandled message: " ++ kind.tag

/-- The message, if its kind is among those that a receiver accepts. -/
def Message.accept (kinds : List Message.Kind) (m : Message) : Except ProtocolError Message :=
  if m.kind ∈ kinds then .ok m else .error (.unhandled m.kind)

namespace Frame

/-- The header of a body of the given length. -/
def header (length : Nat) : Except ProtocolError Bytes :=
  if limit < length then .error (.frameTooLarge length)
  else .ok (littleEndian headerLength length)

/-- The frame of a message. -/
def encode (m : Message) : Except ProtocolError Bytes :=
  match header (Message.codec.size m) with
  | .error e => .error e
  | .ok front => .ok (front ++ Message.codec.encode m)

/-- The length of the body that a header announces. -/
def readHeader (front : Bytes) : Except ProtocolError Nat :=
  let length := ofLittleEndian front
  if limit < length then .error (.frameTooLarge length) else .ok length

/-- The message of a body. Bytes after the message are ignored. -/
def decodeBody (body : Bytes) : Except ProtocolError Message :=
  match Codec.text.decode body with
  | .error fault => .error (.decode none fault)
  | .ok (tag, _) =>
    match Message.Kind.all.find? fun kind => kind.tag == tag with
    | none => .error (.unknownTag tag)
    | some kind =>
      match Message.codec.decode body with
      | .error fault => .error (.decode (some kind) fault)
      | .ok (m, _) => .ok m

/-- The message of the first frame, and how many bytes that frame takes. -/
def decode (buffer : Bytes) : Except ProtocolError (Message × Nat) :=
  match splitBytes? headerLength buffer with
  | none => .error (.incompleteFrame headerLength buffer.length)
  | some (front, rest) =>
    match readHeader front with
    | .error e => .error e
    | .ok length =>
      match splitBytes? length rest with
      | none => .error (.incompleteFrame (headerLength + length) buffer.length)
      | some (body, _) =>
        match decodeBody body with
        | .error e => .error e
        | .ok m => .ok (m, headerLength + length)

/-- The messages of a run of frames with the bytes that each takes, and the error that ended the
run, if the bytes were not used up. -/
structure Run where
  messages : List (Message × Nat)
  error : Option ProtocolError

/-- Reads frames from the front until the bytes are used up or a frame is wrong. Each frame takes at
least its header, so as many rounds as there are bytes are enough. -/
def decodeRun : Nat → Bytes → Run
  | _, [] => ⟨[], none⟩
  | 0, _ => ⟨[], none⟩
  | rounds + 1, buffer =>
    match decode buffer with
    | .error e => ⟨[], some e⟩
    | .ok (m, used) =>
      let later := decodeRun rounds (buffer.drop used)
      ⟨(m, used) :: later.messages, later.error⟩

/-- Reads all frames. -/
def decodeAll (buffer : Bytes) : Run := decodeRun buffer.length buffer

end Frame

end CallDebugger
