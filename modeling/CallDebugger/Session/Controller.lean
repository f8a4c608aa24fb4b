import CallDebugger.Session.Breakpoints
import CallDebugger.Session.Watches

/-!
# The controller

A `Session` drives one traced process over a link: it connects, pauses, steps and lets go on, sends
requests, and keeps the breakpoints and settings that the process gets when it first pauses. It acts
only when a command is given or when its link is pumped. What it tells its owner is appended to
`log`; the links that it gave up stay in `retired`.
-/

namespace CallDebugger

/-- Where a session stands. -/
inductive Phase where
  /-- There is no link. -/
  | disconnected
  /-- There is a link, and the traced process has not said hello. -/
  | connecting
  | running
  /-- The traced process is paused before a call. -/
  | breaked
deriving Repr, DecidableEq, Inhabited

/-- The name of a phase. -/
def Phase.name : Phase → String
  | disconnected => "Disconnected"
  | connecting => "Connecting"
  | running => "Running"
  | breaked => "Breaked"

/-- What a session may be asked to do. -/
inductive Action where
  | goOn
  | step
  | interrupt
  | terminate
  | queryTrace
  | sendRequest
  | acceptHello
  | acceptBreak
  | acceptTrace
deriving Repr, DecidableEq

/-- The name of an action. -/
def Action.name : Action → String
  | goOn => "continue"
  | step => "step"
  | interrupt => "interrupt"
  | terminate => "terminate"
  | queryTrace => "query trace"
  | sendRequest => "send request"
  | acceptHello => "accept hello"
  | acceptBreak => "accept break"
  | acceptTrace => "accept call trace"

/-- Why a command or an inbound message fails. -/
inductive SessionError where
  | notConnected
  | invalidPhase (action : Action) (phase : Phase)
  /-- A window that ends before it starts. -/
  | invalidWindow (window : TraceWindow)
  | link (e : LinkError)
  | protocol (e : ProtocolError)
deriving Repr, DecidableEq

/-- The wording of a session error. -/
def SessionError.message : SessionError → String
  | notConnected => "not connected"
  | invalidPhase action phase =>
    "cannot " ++ action.name ++ ": session is in " ++ phase.name ++ " state"
  | invalidWindow w =>
    "invalid trace window " ++ toString w.start.toNat ++ ".." ++ toString w.stop.toNat
  | link e => e.message
  | protocol e => e.message

/-- What a session tells its owner. -/
inductive Notice (ι : Type) where
  | status (text : String)
  | connected (processName : String)
  | breaked (pause : Pause)
  | trace (page : TracePage)
  /-- The link was lost. -/
  | disconnected (reason : String)
  | sendingStarted
  | sendingStopped
  | reply (label : ι) (reply : Reply)
  | update (label : ι) (resource : Resource)
  | refused (label : ι) (reason : String)

/-- Tells whoever asked what a reply brings. -/
def Callback.notice {ι : Type} : Callback ι → Reply → Notice ι
  | .reply label, r => .reply label r
  | .snapshot kind label, r =>
    match r.snapshot kind with
    | .ok resource => .update label resource
    | .error reason => .refused label reason

/-- A session. -/
structure Session (ι : Type) where
  link : Option Link
  phase : Phase
  requests : Requests (Callback ι)
  watches : Watches ι
  breakpoints : Breakpoints
  settings : BreakSettings
  /-- Whether the settings and breakpoints went out on this link. -/
  synced : Bool
  lastBreak : Option Pause
  peerName : Option String
  /-- The links given up, the first one first. -/
  retired : List Link
  log : List (Notice ι)

namespace Session

variable {ι : Type}

/-- A session without a link. -/
def new : Session ι :=
  ⟨none, .disconnected, .empty, .empty, .empty, .standard, false, none, none, [], []⟩

instance : Inhabited (Session ι) := ⟨new⟩

/-- Whether the traced process has said hello. -/
def isConnected (s : Session ι) : Bool := s.phase = .running || s.phase = .breaked

/-- Tells the owner something. -/
def tell (s : Session ι) (n : Notice ι) : Session ι := { s with log := s.log ++ [n] }

/-- Tells the owner how things stand. -/
def status (s : Session ι) (text : String) : Session ι := s.tell (.status text)

/-! ## The link -/

/-- Tears down the link, if there is one. -/
def dropLink (s : Session ι) : Session ι :=
  match s.link with
  | none => s
  | some link => { s with link := none, retired := s.retired ++ [link.abort] }

/-- Forgets everything that belongs to one connection. -/
def reset (s : Session ι) : Session ι :=
  { s with
    requests := s.requests.clear
    synced := false
    lastBreak := none
    peerName := none
    phase := .disconnected }

/-- Gives up the link on request. -/
def disconnect (s : Session ι) : Session ι := s.dropLink.reset.status "Disconnected."

/-- Gives up a link that was lost. -/
def lose (s : Session ι) (reason : String) : Session ι :=
  if s.link.isNone then s else s.dropLink.reset.tell (.disconnected reason)

/-- Adopts a link; one that is there is given up first. -/
def connectWith (s : Session ι) (link : Link) : Session ι :=
  let s := if s.link.isSome then s.disconnect else s
  { s with link := some link, synced := false, phase := .connecting }

/-- Connects to an endpoint over `link`. -/
def connect (s : Session ι) (endpoint : Endpoint) (link : Link) : Session ι :=
  (s.status ("Connecting to " ++ endpoint.render ++ "...")).connectWith link

/-- Sends a message. -/
def send (s : Session ι) (m : Message) : Except SessionError Unit × Session ι :=
  match s.link with
  | none => (.error .notConnected, s)
  | some link =>
    match link.send m with
    | (.error e, link) => (.error (.link e), { s with link := some link })
    | (.ok (), link) => (.ok (), { s with link := some link })

/-! ## Commands -/

/-- Demands a phase for an action. -/
def demand (s : Session ι) (action : Action) (phase : Phase) : Except SessionError Unit :=
  if s.phase = .disconnected then .error .notConnected
  else if s.phase = phase then .ok ()
  else .error (.invalidPhase action s.phase)

/-- Demands that the traced process has said hello. -/
def demandConnected (s : Session ι) (action : Action) : Except SessionError Unit :=
  if s.isConnected then .ok ()
  else if s.phase = .disconnected then .error .notConnected
  else .error (.invalidPhase action s.phase)

/-- Lets a paused process go on. -/
def resume (s : Session ι) (action : Action) (how : Proceed) :
    Except SessionError Unit × Session ι :=
  match s.demand action .breaked with
  | .error e => (.error e, s)
  | .ok () =>
    match s.send (.proceed how) with
    | (.error e, s) => (.error e, s)
    | (.ok (), s) => (.ok (), { s with phase := .running }.status "Running...")

/-- Lets a paused process go on until something pauses it. -/
def goOn (s : Session ι) : Except SessionError Unit × Session ι := s.resume .goOn .resume

/-- Lets a paused process go on for a step. -/
def step (s : Session ι) (mode : StepMode) : Except SessionError Unit × Session ι :=
  s.resume .step (.stepping mode)

/-- Asks a running process to pause at its next call. -/
def interrupt (s : Session ι) : Except SessionError Unit × Session ι :=
  match s.demand .interrupt .running with
  | .error e => (.error e, s)
  | .ok () =>
    match s.send (.proceed .interrupting) with
    | (.error e, s) => (.error e, s)
    | (.ok (), s) => (.ok (), s.status "Interrupting...")

/-- Asks the process to shut down. -/
def terminate (s : Session ι) : Except SessionError Unit × Session ι :=
  match s.demandConnected .terminate with
  | .error e => (.error e, s)
  | .ok () => s.send .terminate

/-- Replaces the breakpoints. They go out now if the process has said hello, and otherwise when it
first pauses. -/
def setBreakpoints (s : Session ι) (es : List Entrypoint) : Except SessionError Unit × Session ι :=
  let s := { s with breakpoints := (s.breakpoints.replace es).2 }
  if s.isConnected then s.send (.breakpoints s.breakpoints) else (.ok (), s)

/-- Replaces the settings, which go out as the breakpoints do. -/
def configure (s : Session ι) (settings : BreakSettings) : Except SessionError Unit × Session ι :=
  let s := { s with settings }
  if s.isConnected then s.send (.configuration settings) else (.ok (), s)

/-- Asks for a window of the history. -/
def queryTrace (s : Session ι) (window : TraceWindow) : Except SessionError Unit × Session ι :=
  match s.demandConnected .queryTrace with
  | .error e => (.error e, s)
  | .ok () =>
    if window.stop < window.start then (.error (.invalidWindow window), s)
    else s.send (.queryTrace window)

/-- A new group of requests. -/
def register (s : Session ι) : HandlerId × Session ι :=
  let (handler, requests) := s.requests.register
  (handler, { s with requests })

/-- Forgets the pending requests of a group. -/
def unregister (s : Session ι) (handler : HandlerId) : Session ι :=
  { s with requests := (s.requests.unregister handler).2 }

/-- Sends an errand. -/
def request (s : Session ι) (handler : HandlerId) (errand : Errand) (label : ι) :
    Except SessionError Nat × Session ι :=
  match s.demandConnected .sendRequest with
  | .error e => (.error e, s)
  | .ok () =>
    match s.link with
    | none => (.error .notConnected, s)
    | some link =>
      match s.requests.issue link handler errand (.reply label) with
      | (.error e, requests, link) => (.error (.link e), { s with requests, link := some link })
      | (.ok id, requests, link) => (.ok id, { s with requests, link := some link })

/-- Watches an object from the next pause on. -/
def subscribe (s : Session ι) (name : ObjectName) (kind : ObjectKind) (label : ι) :
    WatchId × Session ι :=
  let (id, watches, requests) := s.watches.subscribe s.requests name kind label
  (id, { s with watches, requests })

/-- Ends a watch. -/
def unsubscribe (s : Session ι) (id : WatchId) : Bool × Session ι :=
  let (found, watches, requests) := s.watches.unsubscribe s.requests id
  (found, { s with watches, requests })

/-! ## Inbound messages -/

/-- The process says hello. -/
def acceptHello (s : Session ι) (name : String) : Except SessionError Unit × Session ι :=
  match s.demand .acceptHello .connecting with
  | .error e => (.error e, s)
  | .ok () =>
    let s := { s with phase := .running }.tell (.connected name)
    (.ok (), { s.status ("Connected to " ++ name ++ ".") with peerName := some name })

/-- Sends the settings and the breakpoints, once for each link. -/
def sync (s : Session ι) : Except SessionError Unit × Session ι :=
  if s.synced then (.ok (), s)
  else
    match { s with synced := true }.send (.configuration s.settings) with
    | (.error e, s) => (.error e, s)
    | (.ok (), s) => s.send (.breakpoints s.breakpoints)

/-- Queries every watch. -/
def refresh (s : Session ι) : Except SessionError Unit × Session ι :=
  match s.link with
  | none => (.error .notConnected, s)
  | some link =>
    match s.watches.refresh s.requests link with
    | (.error e, requests, link) => (.error (.link e), { s with requests, link := some link })
    | (.ok _, requests, link) => (.ok (), { s with requests, link := some link })

/-- The process has paused. -/
def acceptBreak (s : Session ι) (pause : Pause) : Except SessionError Unit × Session ι :=
  match s.demandConnected .acceptBreak with
  | .error e => (.error e, s)
  | .ok () =>
    match s.sync with
    | (.error e, s) => (.error e, s)
    | (.ok (), s) =>
      let s := { { s with phase := .breaked }.tell (.breaked pause) with lastBreak := some pause }
      match s.refresh with
      | (.error e, s) => (.error e, s)
      | (.ok (), s) => (.ok (), s.status "Breaked execution.")

/-- A part of the history arrives. -/
def acceptTrace (s : Session ι) (page : TracePage) : Except SessionError Unit × Session ι :=
  match s.demandConnected .acceptTrace with
  | .error e => (.error e, s)
  | .ok () => (.ok (), s.tell (.trace page))

/-- A reply arrives. One that nobody waits for is dropped. -/
def acceptReply (s : Session ι) (reply : Reply) : Session ι :=
  let (callback, requests) := s.requests.answer reply
  let s := { s with requests }
  match callback with
  | none => s
  | some callback => s.tell (callback.notice reply)

/-- A message arrives. -/
def accept (s : Session ι) : Message → Except SessionError Unit × Session ι
  | .hello name => s.acceptHello name
  | .paused pause => s.acceptBreak pause
  | .trace page => s.acceptTrace page
  | .reply reply => (.ok (), s.acceptReply reply)
  | m => (.error (.protocol (.unhandled m.kind)), s)

/-- An event of the link. A message that cannot be accepted ends the link. -/
def handle (s : Session ι) : LinkEvent → Session ι
  | .connected => s.status "Connected, waiting for peer..."
  | .message m =>
    match s.accept m with
    | (.ok (), s) => s
    | (.error e, s) => s.lose e.message
  | .sendingStarted => s.tell .sendingStarted
  | .sendingStopped => s.tell .sendingStopped
  | .disconnected reason => s.lose reason

/-- Takes the next event of the link. -/
def poll (s : Session ι) : Option (LinkEvent × Session ι) :=
  match s.link with
  | none => none
  | some link => link.poll.map fun (e, link) => (e, { s with link := some link })

/-- Handles at most so many events; tells how many. -/
def pumpUpTo : Nat → Session ι → Nat × Session ι
  | 0, s => (0, s)
  | limit + 1, s =>
    match s.poll with
    | none => (0, s)
    | some (e, s) =>
      let (count, s) := pumpUpTo limit (s.handle e)
      (count + 1, s)

/-- How many events wait on the link. -/
def waiting (s : Session ι) : Nat :=
  match s.link with
  | none => 0
  | some link => link.inbox.length

/-- Handles every event that waits; tells how many. A link may queue more meanwhile, as a transport
does when it starts to send. Those count as arriving afterwards: a loop that polls until nothing is
left comes to this pump, that arrival and another pump. -/
def pump (s : Session ι) : Nat × Session ι := pumpUpTo s.waiting s

end Session

end CallDebugger
