import CallDebugger.Object.Report
import CallDebugger.Object.Resource
import CallDebugger.Trace.Call

/-!
# Messages

The closed set of messages between a controller and the traced process, the errands that a
controller may ask for, and the tag of each on the wire.
-/

namespace CallDebugger

/-- When the traced process pauses by itself, and what contexts it creates. -/
structure BreakSettings where
  onError : Bool
  onDebugOutput : Bool
  onCompilerError : Bool
  forceDebugContext : Bool
  forceDebugContextEs : Bool
deriving Repr, DecidableEq, Inhabited

/-- Pausing on every kind of report, without forcing debug contexts. -/
def BreakSettings.standard : BreakSettings := ⟨true, true, true, false, false⟩

/-- The traced process has paused before a call. -/
structure Pause where
  call : Call
  /-- How many calls the history holds. -/
  traceSize : UInt64
  context : ContextId
  reports : List ContextReport
deriving BEq, Inhabited

/-- Lets the traced process go on, or asks it to pause. -/
structure Proceed where
  /-- Asks a running process to pause at its next call. -/
  interrupt : Bool
  step : Option StepMode
deriving Repr, DecidableEq, Inhabited

namespace Proceed

/-- Goes on until something else pauses the process. -/
def resume : Proceed := ⟨false, none⟩

/-- Goes on as far as `mode` says. -/
def stepping (mode : StepMode) : Proceed := ⟨false, some mode⟩

/-- Pauses at the next call. -/
def interrupting : Proceed := ⟨true, none⟩

end Proceed

/-- The offsets from `start` up to, not including, `stop`, counted back from the newest call. -/
structure TraceWindow where
  start : UInt64
  stop : UInt64
deriving Repr, DecidableEq, Inhabited

/-- The recorded calls of a window, oldest first. -/
structure TracePage where
  start : UInt64
  records : List Call
deriving Repr, BEq, Inhabited

/-- Gives a shader a new source, or the one that the application supplied. -/
structure ShaderEdit where
  context : ContextId
  shader : ObjectNumber
  reset : Bool
  source : Option String
deriving Repr, DecidableEq, Inhabited

/-- What a controller may ask the traced process to do for it. -/
inductive Errand where
  | query (kind : ObjectKind) (name : ObjectName)
  | editShader (edit : ShaderEdit)
  | relink (context : ContextId) (program : ObjectNumber)
deriving Repr, BEq, Inhabited

namespace Errand

/-- The errands without what they carry. -/
inductive Kind where
  | query
  | editShader
  | relink
deriving Repr, DecidableEq

/-- Every kind, in order. -/
def Kind.all : List Kind := [query, editShader, relink]

/-- The tag of a kind on the wire. -/
def Kind.tag : Kind → String
  | query => "req.query"
  | editShader => "req.edit_shader"
  | relink => "req.link_program"

/-- The kind of an errand. -/
def kind : Errand → Kind
  | query .. => .query
  | editShader _ => .editShader
  | relink .. => .relink

end Errand

/-- The tag of the snapshot of an object on the wire. -/
def ObjectKind.tag (kind : ObjectKind) : String := "res." ++ kind.name

/-- An errand and the number by which its reply is told. -/
structure Request where
  id : UInt64
  errand : Errand
deriving Repr, BEq, Inhabited

/-- What became of a request. -/
structure Reply where
  id : UInt64
  ok : Bool
  error : Option String
  resource : Option Resource
deriving Repr, BEq, Inhabited

namespace Reply

/-- The request was done. -/
def success (id : UInt64) (resource : Option Resource) : Reply := ⟨id, true, none, resource⟩

/-- The request was refused. -/
def failure (id : UInt64) (reason : String) : Reply := ⟨id, false, some reason, none⟩

/-- What was asked for, or why it was refused. -/
def result (r : Reply) : Except String (Option Resource) :=
  if r.ok then .ok r.resource else .error (r.error.getD "")

end Reply

/-- One message. -/
inductive Message where
  /-- The first word of the traced process to a new controller. -/
  | hello (processName : String)
  | configuration (settings : BreakSettings)
  | paused (pause : Pause)
  | proceed (how : Proceed)
  | terminate
  | queryTrace (window : TraceWindow)
  | trace (page : TracePage)
  | request (request : Request)
  | reply (reply : Reply)
  | breakpoints (entrypoints : KeySet Entrypoint)
deriving BEq, Inhabited

namespace Message

/-- The messages without what they carry. -/
inductive Kind where
  | hello
  | configuration
  | paused
  | proceed
  | terminate
  | queryTrace
  | trace
  | request
  | reply
  | breakpoints
deriving Repr, DecidableEq

/-- Every kind, in order. -/
def Kind.all : List Kind :=
  [hello, configuration, paused, proceed, terminate, queryTrace, trace, request, reply, breakpoints]

/-- The tag of a kind on the wire. -/
def Kind.tag : Kind → String
  | hello => "msg.hello"
  | configuration => "msg.cfg"
  | paused => "msg.break"
  | proceed => "msg.cont"
  | terminate => "msg.term"
  | queryTrace => "msg.qtrace"
  | trace => "msg.trace"
  | request => "msg.req"
  | reply => "msg.reply"
  | breakpoints => "msg.bkpt"

/-- The kind of a message. -/
def kind : Message → Kind
  | hello _ => .hello
  | configuration _ => .configuration
  | paused _ => .paused
  | proceed _ => .proceed
  | terminate => .terminate
  | queryTrace _ => .queryTrace
  | trace _ => .trace
  | request _ => .request
  | reply _ => .reply
  | breakpoints _ => .breakpoints

end Message

end CallDebugger
