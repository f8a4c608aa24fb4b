/-!
# Numerals

Writing numbers in base sixteen, and reading unsigned numerals of a base: an optional `+`, then at
least one digit, with a value below a bound.
-/

namespace CallDebugger.Numeral

/-- The digits of `n` in base sixteen, in lower case. -/
def hex (n : Nat) : String := String.ofList (Nat.toDigits 16 n)

/-- `n` in base sixteen after `0x`. -/
def hexWithBase (n : Nat) : String := "0x" ++ hex n

/-- `n` in base sixteen after `0x`, filled with zeros to at least four digits. -/
def hexCode (n : Nat) : String :=
  let digits := Nat.toDigits 16 n
  "0x" ++ String.ofList (List.replicate (4 - digits.length) '0' ++ digits)

/-- The value of a digit in a base up to sixteen. -/
def digit? (base : Nat) (c : Char) : Option Nat :=
  let value :=
    if '0' ≤ c ∧ c ≤ '9' then some (c.toNat - '0'.toNat)
    else if 'a' ≤ c ∧ c ≤ 'f' then some (c.toNat - 'a'.toNat + 10)
    else if 'A' ≤ c ∧ c ≤ 'F' then some (c.toNat - 'A'.toNat + 10)
    else none
  value.filter (· < base)

/-- The value of a row of digits that follow digits worth `acc`. -/
def digits? (base : Nat) (acc : Nat) : List Char → Option Nat
  | [] => some acc
  | c :: cs => do digits? base (acc * base + (← digit? base c)) cs

/-- The digits of a numeral: what follows an optional `+`. -/
def unsigned : List Char → List Char
  | '+' :: cs => cs
  | cs => cs

/-- The value of an unsigned numeral below `bound`. -/
def read? (base bound : Nat) (cs : List Char) : Option Nat :=
  match unsigned cs with
  | [] => none
  | cs => (digits? base 0 cs).filter (· < bound)

end CallDebugger.Numeral
