import CallDebugger.Link.Basic

/-!
# Receiving

A `Receiver` turns the bytes of a stream, in whatever pieces they arrive, into messages: it waits
for a header, then for exactly the body that the header announces, then for the next header. The
first frame that is wrong ends it.
-/

namespace CallDebugger

/-- What a receiver waits for. -/
inductive Awaited where
  | header
  | body (length : Nat)
deriving Repr, DecidableEq, Inhabited

/-- The bytes that have arrived and not been used, and what they are to become. -/
structure Receiver where
  pending : Bytes
  awaited : Awaited
deriving Repr, DecidableEq, Inhabited

namespace Receiver

/-- A receiver at the start of a stream. -/
def start : Receiver := ⟨[], .header⟩

/-- What came of some bytes: the messages, and the receiver that waits for more or the error that
ended it. -/
structure Progress where
  messages : List Message
  next : Except ProtocolError Receiver

/-- Goes as far as the bytes reach. Each round uses up a header, or goes from a body to the next
header, so twice as many rounds as there are bytes, and one, are enough. -/
def advance : Nat → Receiver → Progress
  | 0, r => ⟨[], .ok r⟩
  | rounds + 1, r =>
    match r.awaited with
    | .header =>
      match splitBytes? Frame.headerLength r.pending with
      | none => ⟨[], .ok r⟩
      | some (front, rest) =>
        match Frame.readHeader front with
        | .error e => ⟨[], .error e⟩
        | .ok length => advance rounds ⟨rest, .body length⟩
    | .body length =>
      match splitBytes? length r.pending with
      | none => ⟨[], .ok r⟩
      | some (body, rest) =>
        match Frame.decodeBody body with
        | .error e => ⟨[], .error e⟩
        | .ok m =>
          let later := advance rounds ⟨rest, .header⟩
          ⟨m :: later.messages, later.next⟩

/-- More bytes arrive. -/
def feed (r : Receiver) (bytes : Bytes) : Progress :=
  let pending := r.pending ++ bytes
  advance (2 * pending.length + 1) { r with pending }

/-- The reason given when the stream ends, wherever it does. -/
def endOfStream : String := "connection closed by peer"

/-- The messages of a stream that arrives in pieces and then ends, and the reason why it ended. -/
def runFrom (r : Receiver) : List Bytes → List Message × String
  | [] => ([], endOfStream)
  | chunk :: chunks =>
    let p := r.feed chunk
    match p.next with
    | .error e => (p.messages, e.message)
    | .ok next =>
      let (later, reason) := next.runFrom chunks
      (p.messages ++ later, reason)

/-- The events of a link on which the given pieces arrive before the stream ends. -/
def run (chunks : List Bytes) : List LinkEvent :=
  let (messages, reason) := start.runFrom chunks
  .connected :: messages.map .message ++ [.disconnected reason]

end Receiver

end CallDebugger
