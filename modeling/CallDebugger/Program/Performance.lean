import CallDebugger.Console.Basic
import CallDebugger.Demo.Show
import CallDebugger.Link.Address
import CallDebugger.Link.Receiver
import CallDebugger.Program.Start
import CallDebugger.Program.Usage

/-!
# Performances

A `Performance` lets the console and the demonstration run against each other, joined by links, with
somebody typing lines. Both are brought to rest before the next line is typed, so what they print
depends on the lines alone. A demonstration accepts one link; what else connects to it is never
answered. There is no network, so a host where nobody listens cannot be reached.
-/

namespace CallDebugger

/-- What a program leaves behind: its exit code, what it printed, and what it complained of. -/
structure Ending where
  code : Nat
  out : List String
  complaints : List String
deriving Repr, DecidableEq, Inhabited

/-- The end of a program that failed. -/
def Failure.ending (e : Failure) (out : List String) : Ending := ⟨1, out, [e.message]⟩

/-- The demonstration on a stage. -/
structure Performer where
  endpoint : Endpoint
  play : Demo.Show
  /-- How many links were dialed before the one that it accepted, if it has accepted one. -/
  accepted : Option Nat
  /-- How many messages of the controller have reached it. -/
  heard : Nat
  /-- How many of its messages have reached the controller. -/
  told : Nat
  /-- Whether it knows that the link is down. -/
  cutOff : Bool

namespace Performer

/-- A demonstration that listens. -/
def listening (c : Config) (endpoint : Endpoint) (frames : Option UInt64) : Performer where
  endpoint := endpoint
  play := .start (.fresh Link.upVerdict) c.historyLength.toNat (frames.map (·.toNat))
  accepted := none
  heard := 0
  told := 0
  cutOff := false

/-- Lets events arrive. -/
def arrive (p : Performer) (events : List LinkEvent) : Performer :=
  { p with play := { p.play with
      app := { p.play.app with peer := p.play.app.peer.arrive events } } }

/-- The messages that the demonstration has sent. -/
def sent (p : Performer) : List Message := p.play.app.peer.link.sent

/-- What the demonstration leaves behind when it has come to its end. -/
def ending (p : Performer) : Ending :=
  let out := ["waiting for a controller on " ++ p.endpoint.render]
  match p.play.ended with
  | none => ⟨0, out, []⟩
  | some (.ok ()) => ⟨0, out, []⟩
  | some (.error .terminateRequested) => ⟨0, out ++ ["terminated by controller"], []⟩
  | some (.error e) =>
    if p.play.act = .attach then (Failure.neverAttached [e.message]).ending out
    else (Failure.lostController [e.message]).ending out

end Performer

/-- A console, and perhaps a demonstration, on one machine. -/
structure Performance where
  files : Files
  console : Console
  performer : Option Performer
  isOver : Bool

namespace Performance

/-- Whether two endpoints are one: two paths are if they lead to the same place. -/
def isSame (files : Files) : Endpoint → Endpoint → Bool
  | .unix a, .unix b =>
    match files.find ⟨a⟩, files.find ⟨b⟩ with
    | .ok (place, _), .ok (other, _) => place = other
    | _, _ => false
  | a, b => a = b

/-- What happens to somebody who connects to an endpoint. -/
def welcome (files : Files) (performer : Option Performer) (endpoint : Endpoint) : LinkEvent :=
  let isThere := performer.any fun d => isSame files d.endpoint endpoint && d.play.ended.isNone
  match endpoint with
  | .tcp host _ =>
    if isThere then .connected else .disconnected (HostKind.ofHost host).connectFailure
  | .unix path =>
    match socketPathFault? path with
    | some fault => .disconnected fault.message
    | none =>
      match files.find ⟨path⟩ with
      | .error e => .disconnected e.message
      | .ok _ => if isThere then .connected else .disconnected SocketError.refused.message

/-- A new link to an endpoint. -/
def dial (p : Performance) (endpoint : Endpoint) : Link :=
  { Link.fresh Link.upVerdict with inbox := [welcome p.files p.performer endpoint] }

/-- Whether the link of the console is the one that the demonstration accepted. -/
def isJoined (p : Performance) (d : Performer) : Bool :=
  p.console.session.link.isSome && d.accepted = some p.console.dialed

/-- The demonstration accepts the first link that was dialed to it. -/
def accept (p : Performance) (d : Performer) : Performer :=
  let isOpen := p.console.session.link.isSome && isSame p.files p.console.endpoint d.endpoint
  if d.accepted.isNone && isOpen then { d with accepted := some p.console.dialed }.arrive [.connected]
  else d

/-- What the controller has sent reaches the demonstration, and so does the end of the link. -/
def forward (p : Performance) (d : Performer) : Performer :=
  match p.console.session.link with
  | some link =>
    if p.isJoined d then
      { d with heard := link.sent.length }.arrive ((link.sent.drop d.heard).map .message)
    else cut d
  | none => cut d
where
  /-- The end of the link reaches the demonstration. -/
  cut (d : Performer) : Performer :=
    if d.accepted.isSome && !d.cutOff then
      { d with cutOff := true }.arrive [.disconnected Receiver.endOfStream]
    else d

/-- What the demonstration has sent reaches the controller, and so does its end. -/
def back (p : Performance) (d : Performer) : Performance :=
  let p := { p with performer := some { d with told := d.sent.length } }
  let ended := if d.play.ended.isSome then [LinkEvent.disconnected Receiver.endOfStream] else []
  if p.isJoined d then
    { p with console := p.console.arrive ((d.sent.drop d.told).map .message ++ ended) }
  else p

/-- Everybody goes on once. -/
def round (p : Performance) : Performance :=
  let p := if p.isOver then p else { p with console := p.console.pump.2 }
  match p.performer with
  | none => p
  | some d =>
    let d := p.forward (p.accept d)
    p.back { d with play := d.play.step }

/-- Goes on for some rounds. -/
def rounds : Nat → Performance → Performance
  | 0, p => p
  | n + 1, p => rounds n p.round

/-- How many rounds bring everybody to rest who comes to rest. A demonstration that nothing pauses
draws a frame in each. -/
def restRounds : Nat := 256

/-- Brings everybody to rest. -/
def rest (p : Performance) : Performance := rounds restRounds p

/-- The console connects for the first time. -/
def attach (p : Performance) : Performance :=
  { p with console := p.console.attach p.dial }.rest

/-- The console ends. -/
def close (p : Performance) : Performance :=
  { p with
    isOver := true
    console := p.console.withSession p.console.session.disconnect }.rest

/-- Somebody types a line. -/
def type (p : Performance) (line : String) : Performance :=
  if p.isOver then p
  else
    match p.console.runLine p.files p.dial line with
    | (.goOn, console) => { p with console }.rest
    | (.quit, console) => { p with console }.close

/-- Somebody types lines, and then nothing more. -/
def perform (p : Performance) (lines : List String) : Performance :=
  let p := lines.foldl type p.attach
  if p.isOver then p else p.close

/-- What the console leaves behind. -/
def ending (p : Performance) : Ending := ⟨0, p.console.printed.flatMap Printed.lines, []⟩

end Performance

/-! ## Programs -/

/-- What the system says when a local socket cannot be made. -/
def socketFailure (e : FileError) : String :=
  if e = .alreadyThere then SocketError.inUse.message else e.message

/-- A demonstration begins to listen: an endpoint that is a path appears among the files. -/
def Performer.open (f : Files) (c : Config) (endpoint : Endpoint) (frames : Option UInt64) :
    Except Failure Performer × Files :=
  let opened := Performer.listening c endpoint frames
  let failed (text : String) : Except Failure Performer := .error (.notListening endpoint text)
  match endpoint with
  | .tcp host _ =>
    match (HostKind.ofHost host).listenFailure? with
    | some text => (failed text, f)
    | none => (.ok opened, f)
  | .unix path =>
    match socketPathFault? path with
    | some fault => (failed fault.message, f)
    | none =>
      match f.make ⟨path⟩ .socket with
      | .error e => (failed (socketFailure e), f)
      | .ok f => (.ok opened, f)

/-- The end of a program whose arguments ask for nothing that can be done. -/
def ArgumentError.ending (e : ArgumentError) : Ending :=
  ⟨e.exitCode, if e = .displayVersion then [Arguments.versionLine] else [], []⟩

/-- What a command line comes to before its job runs. -/
def prepare (e : Environment) (f : Files) (here : Path) (words : List String) :
    Except Ending (Config × Job) × Files :=
  match Arguments.read words with
  | .error e => (.error e.ending, f)
  | .ok a =>
    match Start.run e f here a with
    | (.error e, f) => (.error (e.ending []), f)
    | (.ok r, f) => (.ok r, f)

end CallDebugger
