import CallDebugger.Link.Endpoint
import CallDebugger.Protocol.Frame

/-!
# Links

A `Link` is a connection as its owner sees it: messages can be sent, events can be polled, and it
can be torn down. Which sends are refused is a property of the link that its owner does not know
beforehand; it is given as a verdict on each attempt. A link that has been torn down refuses
everything and delivers nothing.
-/

namespace CallDebugger

/-- What happens on a link. -/
inductive LinkEvent where
  | connected
  | message (m : Message)
  /-- There is something to send again. -/
  | sendingStarted
  /-- Everything has been sent. -/
  | sendingStopped
  /-- The link has failed. Nothing comes after this. -/
  | disconnected (reason : String)
deriving Inhabited

/-- Why a link cannot be set up or a message cannot be sent. -/
inductive LinkError where
  /-- The socket has failed, with the system's own text. -/
  | io (text : String)
  | protocol (e : ProtocolError)
  | endpoint (e : EndpointError)
  | closed
deriving Repr, DecidableEq, Inhabited

/-- The wording of a link error. -/
def LinkError.message : LinkError → String
  | io text => "I/O error: " ++ text
  | protocol e => "protocol error: " ++ e.message
  | endpoint e => e.message
  | closed => "transport is closed"

/-- A connection as its owner sees it. -/
structure Link where
  /-- The verdict on the `n`th attempt to send: `none` if the message is taken. -/
  verdict : Nat → Message → Option LinkError
  /-- How often a message has been offered. -/
  attempts : Nat
  /-- The messages taken so far. -/
  sent : List Message
  /-- The events that wait to be polled. -/
  inbox : List LinkEvent
  aborted : Bool

namespace Link

/-- A fresh link with the given verdicts. -/
def fresh (verdict : Nat → Message → Option LinkError) : Link := ⟨verdict, 0, [], [], false⟩

/-- The verdicts of a stream that stays up: only a message too long for a frame is refused. -/
def upVerdict (_ : Nat) (m : Message) : Option LinkError :=
  match Frame.header (Message.codec.size m) with
  | .ok _ => none
  | .error e => some (.protocol e)

/-- Verdicts that take `limit` messages from attempt `start` on, and then report a closed link;
without a limit all are taken. -/
def budget (start : Nat) : Option Nat → Nat → Message → Option LinkError
  | none, _, _ => none
  | some limit, n, _ => if n < start + limit then none else some .closed

/-- A fresh link that takes as many messages as `limit` says. -/
def withBudget (limit : Option Nat) : Link := fresh (budget 0 limit)

/-- Lets as many further messages pass as `limit` says. -/
def setBudget (l : Link) (limit : Option Nat) : Link :=
  { l with verdict := budget l.attempts limit }

/-- Offers a message. -/
def send (l : Link) (m : Message) : Except LinkError Unit × Link :=
  if l.aborted then (.error .closed, l)
  else
    let tried := { l with attempts := l.attempts + 1 }
    match l.verdict l.attempts m with
    | some e => (.error e, tried)
    | none => (.ok (), { tried with sent := l.sent ++ [m] })

/-- Takes the next event. -/
def poll (l : Link) : Option (LinkEvent × Link) :=
  if l.aborted then none
  else
    match l.inbox with
    | [] => none
    | e :: rest => some (e, { l with inbox := rest })

/-- Events arrive. -/
def push (l : Link) (events : List LinkEvent) : Link :=
  if l.aborted then l else { l with inbox := l.inbox ++ events }

/-- Tears the link down. What it had to deliver is dropped. -/
def abort (l : Link) : Link := { l with aborted := true, inbox := [] }

end Link

end CallDebugger
