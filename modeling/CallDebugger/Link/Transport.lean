import CallDebugger.Link.Receiver

/-!
# Transports

A `Transport` joins an owner and an I/O task. The owner sends messages and takes events; the task
sets the stream up, takes every queued frame at once as a batch, writes it, accounts for it, and
reads what arrives. A counter of the frames that were queued and not yet accounted for tells when
sending starts and stops. Owner and task act in any order; every action is one step here.

So is the end of the task (`Transport.fail`), which raises a flag and then queues the last event.
Both happen under a lock, but `Transport.runOne` reads the flag without it: between the two it finds
no event and fails, although the last event is still to come. Here that moment does not occur.
-/

namespace CallDebugger

/-- Where the I/O task is. -/
inductive TaskPhase where
  | establishing
  | running
  | ended
deriving Repr, DecidableEq, Inhabited

/-- How far the batch in the hands of the task is. -/
inductive Batch where
  | none
  | writing (frames : List Bytes)
  | written (count : Nat)
deriving Repr, DecidableEq, Inhabited

/-- An owner's end of a stream together with its I/O task. -/
structure Transport where
  /-- The address that a listening transport is bound to. -/
  bound : Option Endpoint
  task : TaskPhase
  /-- The frames handed to the task and not yet taken by it. -/
  outbox : List Bytes
  batch : Batch
  /-- The frames queued and not yet accounted for. -/
  queued : Nat
  /-- Everything written to the stream. -/
  written : Bytes
  receiver : Receiver
  disconnected : Bool
  aborted : Bool
  /-- The events that the owner has not taken. -/
  events : List LinkEvent

namespace Transport

/-- A transport whose stream is not set up. -/
def opening (bound : Option Endpoint) : Transport :=
  ⟨bound, .establishing, [], .none, 0, [], .start, false, false, []⟩

/-- Whether sending is over. -/
def isClosed (t : Transport) : Bool := t.aborted || t.disconnected

/-! ## The owner -/

/-- Queues a message. The counter is raised after the frame was handed over; the first queued frame
is announced. -/
def send (t : Transport) (m : Message) : Except LinkError Unit × Transport :=
  if t.isClosed then (.error .closed, t)
  else
    match Frame.encode m with
    | .error e => (.error (.protocol e), t)
    | .ok frame =>
      let announced := if t.queued = 0 then [LinkEvent.sendingStarted] else []
      (.ok (), { t with
        outbox := t.outbox ++ [frame]
        events := t.events ++ announced
        queued := t.queued + 1 })

/-- Takes the next event. -/
def poll (t : Transport) : Option (LinkEvent × Transport) :=
  if t.aborted then none
  else
    match t.events with
    | [] => none
    | e :: rest => some (e, { t with events := rest })

/-- Takes every event. -/
def pump (t : Transport) : List LinkEvent × Transport :=
  if t.aborted then ([], t) else (t.events, { t with events := [] })

/-- Takes every event, at least one. Without one it fails if none can come any more, and is `none`
if it would wait. -/
def runOne (t : Transport) : Option (Except LinkError (List LinkEvent) × Transport) :=
  if t.aborted then some (.error .closed, t)
  else
    match t.events with
    | [] => if t.disconnected then some (.error .closed, t) else none
    | events => some (.ok events, { t with events := [] })

/-- Stops all input and output, and drops the events. -/
def abort (t : Transport) : Transport :=
  { t with aborted := true, disconnected := true, task := .ended, events := [] }

/-! ## The I/O task -/

/-- The task ends. The first failure is reported, and nothing after it. -/
def fail (t : Transport) (reason : String) : Transport :=
  if t.task = .ended then t
  else
    { t with
      task := .ended
      disconnected := true
      events := if t.disconnected then t.events else t.events ++ [.disconnected reason] }

/-- The stream is set up. -/
def establish (t : Transport) : Transport :=
  if t.task = .establishing then { t with task := .running, events := t.events ++ [.connected] }
  else t

/-- Takes every queued frame as one batch. -/
def takeBatch (t : Transport) : Transport :=
  if t.task = .running ∧ t.batch = .none ∧ t.outbox ≠ [] then
    { t with batch := .writing t.outbox, outbox := [] }
  else t

/-- The batch has been written. -/
def finishWrite (t : Transport) : Transport :=
  match t.task, t.batch with
  | .running, .writing frames =>
    { t with written := t.written ++ frames.flatten, batch := .written frames.length }
  | _, _ => t

/-- Writing the batch has failed after some bytes. -/
def breakWrite (t : Transport) (bytes : Nat) (reason : String) : Transport :=
  match t.task, t.batch with
  | .running, .writing frames =>
    { t with written := t.written ++ frames.flatten.take bytes }.fail reason
  | _, _ => t

/-- Lowers the counter by the frames of the written batch; nothing queued any more is announced. -/
def account (t : Transport) : Transport :=
  match t.task, t.batch with
  | .running, .written count =>
    let queued := t.queued - count
    { t with
      queued
      batch := .none
      events := if queued = 0 then t.events ++ [.sendingStopped] else t.events }
  | _, _ => t

/-- Bytes arrive. A frame that is wrong ends the task. -/
def arrive (t : Transport) (bytes : Bytes) : Transport :=
  if t.task = .running then
    let p := t.receiver.feed bytes
    let t := { t with events := t.events ++ p.messages.map LinkEvent.message }
    match p.next with
    | .ok receiver => { t with receiver }
    | .error e => t.fail e.message
  else t

/-- The stream has ended. -/
def streamEnds (t : Transport) : Transport := t.fail Receiver.endOfStream

/-! ## Runs -/

/-- One action of the owner or the task. -/
inductive Step where
  | send (m : Message)
  | establish
  | takeBatch
  | finishWrite
  | breakWrite (bytes : Nat) (reason : String)
  | account
  | arrive (bytes : Bytes)
  | fail (reason : String)
  | abort

/-- The transport after an action; an action that is not possible changes nothing. -/
def apply (t : Transport) : Step → Transport
  | .send m => (t.send m).2
  | .establish => t.establish
  | .takeBatch => t.takeBatch
  | .finishWrite => t.finishWrite
  | .breakWrite bytes reason => t.breakWrite bytes reason
  | .account => t.account
  | .arrive bytes => t.arrive bytes
  | .fail reason => t.fail reason
  | .abort => t.abort

/-- The transport after some actions. -/
def run (t : Transport) (steps : List Step) : Transport := steps.foldl apply t

end Transport

end CallDebugger
