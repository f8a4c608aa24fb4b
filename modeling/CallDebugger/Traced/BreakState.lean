import CallDebugger.Protocol.Message

/-!
# Where the traced process pauses

A `BreakState` decides before each call whether the process pauses. It starts paused, so the
controller sees the very first call.
-/

namespace CallDebugger

/-- What a call was, as far as stepping cares. -/
structure CallKind where
  draws : Bool
  endsFrame : Bool
deriving Repr, DecidableEq, Inhabited

/-- What makes the traced process pause. -/
structure BreakState where
  paused : Bool
  /-- The next call pauses. -/
  breakNext : Bool
  /-- A step that is not done. -/
  pendingStep : Option StepMode
  breakpoints : KeySet Entrypoint
  settings : BreakSettings
deriving Inhabited

namespace BreakState

/-- Paused, without breakpoints. -/
def start : BreakState := ⟨true, false, none, .empty, .standard⟩

/-- A controller lets the process go on, or asks it to pause. -/
def proceed (s : BreakState) (how : Proceed) : BreakState :=
  if how.interrupt then { s with breakNext := true }
  else
    let s := { s with paused := false, breakNext := false, pendingStep := none }
    match how.step with
    | none => s
    | some .call => { s with breakNext := true }
    | some mode => { s with pendingStep := some mode }

/-- Whether the process pauses before a call. -/
def hits (s : BreakState) (e : Entrypoint) : Bool :=
  s.paused || s.breakNext || s.breakpoints.contains e

/-- The process is about to make a call: whether it pauses. -/
def before (s : BreakState) (e : Entrypoint) : Bool × BreakState :=
  if s.hits e then (true, { s with paused := true, breakNext := false, pendingStep := none })
  else (false, s)

/-- Whether a call of the given kind ends a step. -/
def endsStep (kind : CallKind) : Option StepMode → Bool
  | some .drawCall => kind.draws
  | some .frame => kind.endsFrame
  | some .call | none => false

/-- A call has returned. -/
def after (s : BreakState) (kind : CallKind) : BreakState :=
  if endsStep kind s.pendingStep then { s with pendingStep := none, breakNext := true } else s

/-- A call has reported an error. -/
def reportError (s : BreakState) : BreakState :=
  if s.settings.onError then { s with breakNext := true } else s

/-- A call has produced debug output. -/
def reportDebugOutput (s : BreakState) : BreakState :=
  if s.settings.onDebugOutput then { s with breakNext := true } else s

/-- A shader did not compile or a program did not link. -/
def reportCompilerError (s : BreakState) : BreakState :=
  if s.settings.onCompilerError then { s with breakNext := true } else s

end BreakState

end CallDebugger
