import CallDebugger.Trace.Value

/-!
# Recorded calls

A `Call` is one intercepted call: what was called with which arguments, and what came back.
-/

namespace CallDebugger

/-- The number of a function whose calls are intercepted. -/
abbrev Entrypoint := UInt32

/-- One intercepted call. -/
structure Call where
  entrypoint : Entrypoint
  args : List Value
  result : Option Value
  /-- The error code observed after the call, zero if none. -/
  error : UInt32
  debugOutput : Option String
deriving Repr, BEq, Inhabited

namespace Call

/-- A call of which nothing has come back yet. -/
def start (entrypoint : Entrypoint) (args : List Value) : Call :=
  ⟨entrypoint, args, none, 0, none⟩

/-- The text of a call: arguments, then the return value and the error code if there are any. -/
def render (c : Call) : String :=
  "#" ++ toString c.entrypoint.toNat ++ "(" ++ ", ".intercalate (c.args.map Value.render) ++ ")" ++
    (match c.result with
      | some value => " = " ++ value.render
      | none => "") ++
    (if c.error = 0 then "" else " -> error " ++ Numeral.hexCode c.error.toNat)

end Call

end CallDebugger
