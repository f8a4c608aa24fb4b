import CallDebugger.Decimal.Shortest
import CallDebugger.Text.Numeral

/-!
# Values of a recorded call

An argument or return value is a number of a fixed width, an address, or the code of a symbol.
Floating-point numbers are kept as their words, so every value stays what it was; `==` compares
them as numbers.
-/

namespace CallDebugger

/-- An argument or a return value. -/
inductive Value where
  | int8 (n : Int8)
  | uint8 (n : UInt8)
  | int16 (n : Int16)
  | uint16 (n : UInt16)
  | int32 (n : Int32)
  | uint32 (n : UInt32)
  | int64 (n : Int64)
  | uint64 (n : UInt64)
  /-- A 32-bit floating-point number, by its word. -/
  | float32 (word : UInt32)
  /-- A 64-bit floating-point number, by its word. -/
  | float64 (word : UInt64)
  | pointer (address : UInt64)
  /-- The address of a function. -/
  | function (address : UInt64)
  /-- The code of a symbolic constant. -/
  | symbol (code : UInt32)
deriving Repr, Inhabited

namespace Value

/-- The text of a value: numbers in decimal, addresses and codes in base sixteen. -/
def render : Value → String
  | int8 n => toString n.toInt
  | uint8 n => toString n.toNat
  | int16 n => toString n.toInt
  | uint16 n => toString n.toNat
  | int32 n => toString n.toInt
  | uint32 n => toString n.toNat
  | int64 n => toString n.toInt
  | uint64 n => toString n.toNat
  | float32 word => Decimal.single.render word.toNat
  | float64 word => Decimal.double.render word.toNat
  | pointer address => Numeral.hexWithBase address.toNat
  | function address => Numeral.hexWithBase address.toNat
  | symbol code => Numeral.hexCode code.toNat

/-- Whether two values are of one kind and equal as numbers. -/
def same : Value → Value → Bool
  | int8 a, int8 b => a == b
  | uint8 a, uint8 b => a == b
  | int16 a, int16 b => a == b
  | uint16 a, uint16 b => a == b
  | int32 a, int32 b => a == b
  | uint32 a, uint32 b => a == b
  | int64 a, int64 b => a == b
  | uint64 a, uint64 b => a == b
  | float32 a, float32 b => Decimal.single.numEq a.toNat b.toNat
  | float64 a, float64 b => Decimal.double.numEq a.toNat b.toNat
  | pointer a, pointer b => a == b
  | function a, function b => a == b
  | symbol a, symbol b => a == b
  | _, _ => false

instance : BEq Value where
  beq := same

end Value

end CallDebugger
