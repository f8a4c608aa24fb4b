import CallDebugger.Link.Transport

/-!
# Two transports in lockstep

A `Pair` is a connecting and a listening transport at the two ends of one stream. Their I/O tasks
run to the end of what they can do after every action of an owner.
-/

namespace CallDebugger

/-- The two ends of a stream. -/
inductive Side where
  | client
  | server
deriving Repr, DecidableEq, Inhabited

/-- The other end. -/
def Side.other : Side → Side
  | client => server
  | server => client

/-- Two transports on one stream, and the events that each owner has taken. -/
structure Pair where
  client : Transport
  server : Transport
  clientSeen : List LinkEvent
  serverSeen : List LinkEvent

namespace Pair

/-- The transport at one end. -/
def get (p : Pair) : Side → Transport
  | .client => p.client
  | .server => p.server

/-- Replaces the transport at one end. -/
def set (p : Pair) (t : Transport) : Side → Pair
  | .client => { p with client := t }
  | .server => { p with server := t }

/-- Hands events to the owner at one end. -/
def see (p : Pair) (events : List LinkEvent) : Side → Pair
  | .client => { p with clientSeen := p.clientSeen ++ events }
  | .server => { p with serverSeen := p.serverSeen ++ events }

/-- Forgets what the owners have seen. -/
def forget (p : Pair) : Pair := { p with clientSeen := [], serverSeen := [] }

/-- The owner at one end takes every event; tells how many. -/
def pump (p : Pair) (side : Side) : Nat × Pair :=
  let (events, t) := (p.get side).pump
  (events.length, (p.set t side).see events side)

/-- Both ends on a stream that is set up, the listening end bound to `bound`. Both owners have seen
that they are connected. -/
def connect (bound : Endpoint) : Pair :=
  let p : Pair := ⟨(Transport.opening none).establish, (Transport.opening (some bound)).establish,
    [], []⟩
  ((p.pump .client).2.pump .server).2

/-- The task at one end writes what is queued there, and the bytes arrive at the other. -/
def flush (p : Pair) (side : Side) : Pair :=
  let before := (p.get side).written.length
  let t := (p.get side).takeBatch.finishWrite.account
  let p := p.set t side
  p.set ((p.get side.other).arrive (t.written.drop before)) side.other

/-- One owner sends a message; if it is taken, both then take every event. -/
def send (p : Pair) (side : Side) (m : Message) : Except LinkError Unit × Pair :=
  let (r, t) := (p.get side).send m
  let p := p.set t side
  match r with
  | .error e => (.error e, p)
  | .ok () => (.ok (), ((p.flush side).pump side).2.pump side.other |>.2)

/-- One owner tears its end down, so the stream ends at the other. -/
def abort (p : Pair) (side : Side) : Pair :=
  let p := p.set (p.get side).abort side
  p.set (p.get side.other).streamEnds side.other

/-- One owner takes the next event and hands it to nobody. -/
def poll (p : Pair) (side : Side) : Option LinkEvent × Pair :=
  match (p.get side).poll with
  | none => (none, p)
  | some (e, t) => (some e, p.set t side)

/-- One owner waits for an event and takes every one; `none` if it would wait for ever. -/
def runOne (p : Pair) (side : Side) : Option (Except LinkError Nat × Pair) :=
  match (p.get side).runOne with
  | none => none
  | some (.error e, t) => some (.error e, p.set t side)
  | some (.ok events, t) => some (.ok events.length, (p.set t side).see events side)

end Pair

end CallDebugger
