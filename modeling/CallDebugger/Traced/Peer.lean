import CallDebugger.Link.Basic
import CallDebugger.Trace.History
import CallDebugger.Traced.BreakState
import CallDebugger.Traced.Inspector

/-!
# The debug server of a traced process

A `Peer` sits in the traced process, which runs a hook before and after each call. The hook before
a call may pause: it then stays inside (`Peer.inside`) and goes on only as events arrive on the
link. Nothing is handled outside a hook. A link that is lost stays lost, with the first reason.
-/

namespace CallDebugger

/-- Why a hook fails. -/
inductive PeerError where
  | link (e : LinkError)
  /-- The controller is gone. -/
  | disconnected (reason : String)
  | terminateRequested
deriving Repr, DecidableEq

/-- The wording of a hook's error. -/
def PeerError.message : PeerError → String
  | link e => e.message
  | disconnected reason => "controller disconnected: " ++ reason
  | terminateRequested => "termination requested by controller"

/-- The hook that the process is waiting in. -/
inductive Hook where
  /-- For a controller. -/
  | attach
  /-- Before a call. -/
  | call (c : Call)

/-- The debug server of a traced process. -/
structure Peer (σ : Type) where
  link : Link
  inspector : Inspector σ
  objects : σ
  history : History
  breaks : BreakState
  /-- The answers that wait to be sent. -/
  outbox : List Message
  connected : Bool
  terminating : Bool
  /-- Why the link was lost. -/
  lost : Option String
  /-- The hook that waits for the controller. -/
  inside : Option Hook

namespace Peer

variable {σ : Type}

/-- A server that listens on a link and keeps a history of the given capacity. -/
def listen (link : Link) (inspector : Inspector σ) (objects : σ) (capacity : Nat) : Peer σ :=
  ⟨link, inspector, objects, .new capacity, .start, [], false, false, none, none⟩

/-! ## Events -/

/-- Handles a message, if it is of a kind that a controller may send. -/
def accept (p : Peer σ) : Message → Except ProtocolError (Peer σ)
  | .configuration settings => .ok { p with breaks := { p.breaks with settings } }
  | .proceed how => .ok { p with breaks := p.breaks.proceed how }
  | .terminate => .ok { p with terminating := true }
  | .queryTrace window => .ok { p with outbox := p.outbox ++ [.trace (p.history.query window)] }
  | .request request =>
    let (reply, objects) := p.inspector.answer request p.objects
    .ok { p with objects, outbox := p.outbox ++ [.reply reply] }
  | .breakpoints breakpoints => .ok { p with breaks := { p.breaks with breakpoints } }
  | m => .error (.unhandled m.kind)

/-- Handles an event. A message that cannot be accepted loses the link, and nothing is accepted
after that. -/
def handle (p : Peer σ) : LinkEvent → Peer σ
  | .connected => { p with connected := true }
  | .message m =>
    if p.lost.isSome then p
    else
      match p.accept m with
      | .ok p => p
      | .error e => { p with lost := some e.message }
  | .sendingStarted | .sendingStopped => p
  | .disconnected reason => { p with lost := some (p.lost.getD reason) }

/-- Handles every event that has arrived. -/
def drain (p : Peer σ) : Peer σ :=
  if p.link.aborted then p
  else p.link.inbox.foldl handle { p with link := { p.link with inbox := [] } }

/-- Sends a message. -/
def send (p : Peer σ) (m : Message) : Except PeerError Unit × Peer σ :=
  match p.link.send m with
  | (.ok (), link) => (.ok (), { p with link })
  | (.error e, link) => (.error (.link e), { p with link })

/-- Sends messages up to the first one that the link refuses. -/
def sendAll (p : Peer σ) : List Message → Except PeerError Unit × Peer σ
  | [] => (.ok (), p)
  | m :: ms =>
    match p.send m with
    | (.error e, p) => (.error e, p)
    | (.ok (), p) => p.sendAll ms

/-- Sends the answers that wait; they are dropped if the link is lost. -/
def flush (p : Peer σ) : Except PeerError Unit × Peer σ :=
  let answers := p.outbox
  let p := { p with outbox := [] }
  if p.lost.isSome then (.ok (), p) else p.sendAll answers

/-- Handles what has arrived and answers it. -/
def pump (p : Peer σ) : Except PeerError Unit × Peer σ := p.drain.flush

/-- Fails once the link is lost, or else once the controller has asked the process to exit. -/
def check (p : Peer σ) : Except PeerError Unit × Peer σ :=
  match p.lost with
  | some reason => (.error (.disconnected reason), { p with link := p.link.abort })
  | none => (if p.terminating then .error .terminateRequested else .ok (), p)

/-! ## Hooks -/

/-- What a hook comes to: its result, or `none` while it waits inside. -/
abbrev Outcome := Option (Except PeerError Unit)

/-- Whether a wait for events would end. -/
def canWake (p : Peer σ) : Bool := p.link.aborted || !p.link.inbox.isEmpty

/-- Handles the events that have arrived, at least one, and answers them. -/
def block (p : Peer σ) : Except PeerError Unit × Peer σ :=
  if p.link.aborted then (.error (.link .closed), p) else p.pump

/-- Leaves a hook with a result. -/
def leave (p : Peer σ) (r : Except PeerError Unit) : Outcome × Peer σ :=
  (some r, { p with inside := none })

/-- Introduces the process to a controller that is there. -/
def introduce (p : Peer σ) : Outcome × Peer σ :=
  match p.check with
  | (.error e, p) => p.leave (.error e)
  | (.ok (), p) =>
    let (r, p) := p.send (.hello (p.inspector.processName p.objects))
    p.leave r

/-- Records a call that the process may make. -/
def permit (p : Peer σ) (c : Call) : Outcome × Peer σ :=
  { p with history := p.history.add c }.leave (.ok ())

/-- Waits for a controller, then introduces the process. -/
def waitForController (p : Peer σ) : Outcome × Peer σ :=
  if p.connected then p.introduce
  else
    match p.check with
    | (.error e, p) => p.leave (.error e)
    | (.ok (), p) => (none, { p with inside := some .attach })

/-- The hook before a call. It announces the call if the process pauses, and permits it once the
process is not paused. -/
def beforeCall (p : Peer σ) (c : Call) : Outcome × Peer σ :=
  match p.pump with
  | (.error e, p) => p.leave (.error e)
  | (.ok (), p) =>
    match p.check with
    | (.error e, p) => p.leave (.error e)
    | (.ok (), p) =>
      let (pauses, breaks) := p.breaks.before c.entrypoint
      let p := { p with breaks }
      if pauses then
        match p.send (.paused ⟨c, UInt64.ofNat p.history.length,
          p.inspector.currentContext p.objects, p.inspector.contextReports p.objects⟩) with
        | (.error e, p) => p.leave (.error e)
        | (.ok (), p) => (none, { p with inside := some (.call c) })
      else p.permit c

/-- The hook that waits goes on with the events that have arrived. -/
def wake (p : Peer σ) : Outcome × Peer σ :=
  match p.inside with
  | none => (none, p)
  | some hook =>
    if !p.canWake then (none, p)
    else
      match p.block with
      | (.error e, p) => p.leave (.error e)
      | (.ok (), p) =>
        match hook with
        | .attach =>
          if p.connected then p.introduce
          else
            match p.check with
            | (.error e, p) => p.leave (.error e)
            | (.ok (), p) => (none, p)
        | .call c =>
          match p.check with
          | (.error e, p) => p.leave (.error e)
          | (.ok (), p) => if p.breaks.paused then (none, p) else p.permit c

/-- The hook after a call: amends the newest call by what came back. -/
def afterCall (p : Peer σ) (result : Option Value) (error : UInt32) (output : Option String) :
    Except PeerError Unit × Peer σ :=
  let history := match result with
    | some value => p.history.setResult value
    | none => p.history
  let (history, breaks) :=
    if error = 0 then (history, p.breaks) else (history.setError error, p.breaks.reportError)
  let (history, breaks) := match output with
    | some text => (history.setDebugOutput text, breaks.reportDebugOutput)
    | none => (history, breaks)
  let breaks := match history.newest? with
    | some c => breaks.after
      ⟨p.inspector.draws p.objects c.entrypoint, p.inspector.endsFrame p.objects c.entrypoint⟩
    | none => breaks
  check { p with history, breaks }

/-- A shader did not compile or a program did not link. -/
def reportCompilerError (p : Peer σ) : Peer σ := { p with breaks := p.breaks.reportCompilerError }

/-- Events arrive on the link. -/
def arrive (p : Peer σ) (events : List LinkEvent) : Peer σ := { p with link := p.link.push events }

end Peer

end CallDebugger
