import CallDebugger.Protocol.Message

/-!
# The history of calls

A `History` keeps the newest calls, as many as its capacity allows. Calls are addressed by their
offset back from the newest one, which has offset zero.
-/

namespace CallDebugger

/-- The newest calls, the newest first. -/
structure History where
  capacity : Nat
  newestFirst : List Call
deriving Repr, Inhabited

namespace History

/-- An empty history, which keeps at least one call. -/
def new (capacity : Nat) : History := ⟨max capacity 1, []⟩

/-- How many calls are kept. -/
def length (h : History) : Nat := h.newestFirst.length

/-- Adds a call; the oldest one goes if there is no room. -/
def add (h : History) (c : Call) : History :=
  { h with newestFirst := (c :: h.newestFirst).take h.capacity }

/-- The newest call. -/
def newest? (h : History) : Option Call := h.newestFirst.head?

/-- Changes the newest call, if there is one. -/
def amend (h : History) (f : Call → Call) : History :=
  match h.newestFirst with
  | [] => h
  | c :: older => { h with newestFirst := f c :: older }

/-- Attaches a return value to the newest call. -/
def setResult (h : History) (value : Value) : History :=
  h.amend fun c => { c with result := some value }

/-- Attaches an error code to the newest call. -/
def setError (h : History) (error : UInt32) : History := h.amend fun c => { c with error }

/-- Attaches debug output to the newest call. -/
def setDebugOutput (h : History) (output : String) : History :=
  h.amend fun c => { c with debugOutput := some output }

/-- The calls whose offsets lie in a window, oldest first. -/
def query (h : History) (w : TraceWindow) : TracePage :=
  ⟨w.start, ((h.newestFirst.take w.stop.toNat).drop w.start.toNat).reverse⟩

end History

end CallDebugger
