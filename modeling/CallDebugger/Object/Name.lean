import CallDebugger.KeySet
import CallDebugger.Text.Numeral

/-!
# Names of objects

An object is identified by its context and its number there. A name carries a target besides, which
takes no part in identity: `==`, order, hashes and sets go by `ObjectName.object`, `=` compares every
field.
-/

namespace CallDebugger

/-- The number of an execution context. -/
abbrev ContextId := UInt64

/-- The number of an object inside its context. -/
abbrev ObjectNumber := UInt32

/-- A way to hash: words are taken in one after the other, and a hash comes out in the end. -/
structure Hasher where
  State : Type
  start : State
  word32 : State → UInt32 → State
  word64 : State → UInt64 → State
  finish : State → UInt64

/-- The name of a traced object. -/
structure ObjectName where
  context : ContextId
  name : ObjectNumber
  target : UInt32
deriving Repr, Inhabited

namespace ObjectName

/-- What identifies the object of a name. -/
def object (n : ObjectName) : ContextId × ObjectNumber := (n.context, n.name)

/-- The place of a name in the order by context, then number. -/
def place (n : ObjectName) : Nat := n.context.toNat * UInt32.size + n.name.toNat

instance : Keyed ObjectName where
  key := place

instance : BEq ObjectName where
  beq a b := a.context == b.context && a.name == b.name

/-- Orders names by context, then number. -/
def order (a b : ObjectName) : Ordering :=
  (compare a.context b.context).then (compare a.name b.name)

/-- Feeds what identifies a name to a hash. -/
def feed (h : Hasher) (s : h.State) (n : ObjectName) : h.State :=
  h.word32 (h.word64 s n.context) n.name

/-- The hash of a name. -/
def hashWith (h : Hasher) (n : ObjectName) : UInt64 := h.finish (feed h h.start n)

/-- A name with no target. -/
def plain (context : ContextId) (name : ObjectNumber) : ObjectName := ⟨context, name, 0⟩

/-- The text of a name. -/
def render (n : ObjectName) : String :=
  Numeral.hexWithBase n.context.toNat ++ ":" ++ toString n.name.toNat

end ObjectName

/-- A set of names, each object once. -/
abbrev NameSet := KeySet ObjectName

end CallDebugger
