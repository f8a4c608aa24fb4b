import CallDebugger.Protocol.Message

/-!
# Breakpoints

The entrypoints before which the traced process is to pause, as the controller keeps them.
-/

namespace CallDebugger

/-- The entrypoints to pause before. -/
abbrev Breakpoints := KeySet Entrypoint

namespace Breakpoints

/-- Adds an entrypoint; tells whether it is new. -/
def add (s : Breakpoints) (e : Entrypoint) : Bool × Breakpoints := (!s.contains e, s.insert e)

/-- Removes an entrypoint; tells whether it was there. -/
def remove (s : Breakpoints) (e : Entrypoint) : Bool × Breakpoints := (s.contains e, s.erase e)

/-- Removes an entrypoint that is there and adds one that is not; tells whether it is there
afterwards. -/
def toggle (s : Breakpoints) (e : Entrypoint) : Bool × Breakpoints :=
  if s.contains e then (false, s.erase e) else (true, s.insert e)

/-- Replaces the set; tells whether that changes it. -/
def replace (s : Breakpoints) (es : List Entrypoint) : Bool × Breakpoints :=
  let next : Breakpoints := .ofList es
  (next.items != s.items, next)

end Breakpoints

end CallDebugger
