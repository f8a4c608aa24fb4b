import CallDebugger.Text.Numeral
import CallDebugger.Toml.Scan
import CallDebugger.Toml.Value

/-!
# TOML numbers

Integers are decimal with an optional sign, or hexadecimal, octal or binary without one; an
underscore may stand between two digits. A floating-point number has a fraction, an exponent or
both. Integers have to fit 64 bits, and a positive floating-point number must not be too large for a
double.
-/

namespace CallDebugger.Toml

/-- A decimal digit. -/
def isDigit (c : Char) : Bool := c.isDigit

/-- A digit of a base. -/
def isDigitOf (base : Nat) (c : Char) : Bool := (Numeral.digit? base c).isSome

/-- The least number that is nearer to the double past the largest one than to the largest one. -/
def doubleBound : Nat := Nat.pow 2 1024 - Nat.pow 2 970

/-- Whether `digits · 10 ^ exponent` is too large for a double. A number with at most 308 places is
not, and one with 310 is. -/
def overflowsDouble (digits : List Char) (exponent : Int) : Bool :=
  let digits := digits.dropWhile (· == '0')
  let places := digits.length + exponent
  if digits.isEmpty || places ≤ 308 then false
  else if 310 ≤ places then true
  else
    let n := (Numeral.digits? 10 0 digits).getD 0
    doubleBound * Nat.pow 10 (-exponent).toNat ≤ n * Nat.pow 10 exponent.toNat

namespace Scan

/-- Digits of a class, at least one, of which underscores may stand between two. -/
def digits (p : Char → Bool) : Scan (List Char) := do
  let all ← run1 fun c => p c || c = '_'
  if all.head? = some '_' || all.getLast? = some '_' || hasPair all then failure
  else return all.filter (· != '_')
where
  /-- Whether two underscores stand side by side. -/
  hasPair : List Char → Bool
    | '_' :: '_' :: _ => true
    | _ :: cs => hasPair cs
    | [] => false

/-- A sign, if there is one: whether it is a minus. -/
def sign : Scan Bool := do
  match ← optional (char fun c => c = '+' || c = '-') with
  | some '-' => return true
  | _ => return false

/-- Decimal digits without a zero in front of others. -/
def decimalDigits : Scan (List Char) := do
  let ds ← digits isDigit
  if ds.head? = some '0' && ds.length ≠ 1 then failure else return ds

/-- An integer of another base. -/
def basedInteger (mark : String) (base : Nat) : Scan Toml := do
  exactly mark
  let ds ← digits (isDigitOf base)
  match Numeral.digits? base 0 ds with
  | none => failure
  | some n => if (n : Int) < integerBound then return .integer n else failure

/-- A decimal integer. -/
def decimalInteger : Scan Toml := do
  let negative ← sign
  let ds ← decimalDigits
  match Numeral.digits? 10 0 ds with
  | none => failure
  | some n =>
    let value : Int := if negative then -n else n
    if -integerBound ≤ value && value < integerBound then return .integer value else failure

/-- An integer. -/
def integer : Scan Toml :=
  basedInteger "0x" 16 <|> basedInteger "0o" 8 <|> basedInteger "0b" 2 <|> decimalInteger

/-- A fraction: a point and digits. -/
def fraction : Scan (List Char) := do
  exactly "."
  digits isDigit

/-- An exponent. -/
def exponent : Scan Int := do
  discard <| char fun c => c = 'e' || c = 'E'
  let negative ← sign
  let ds ← digits isDigit
  match Numeral.digits? 10 0 ds with
  | none => failure
  | some n => return if negative then -n else n

/-- The sign of a literal. -/
def signText (negative : Bool) : String := if negative then "-" else ""

/-- A floating-point number in digits. It fails if there is neither a fraction nor an exponent, and
if it is positive and too large. -/
def floatDigits : Scan Toml := do
  let negative ← sign
  let whole ← decimalDigits
  let part ← optional fraction
  let power ← optional exponent
  if part.isNone && power.isNone then failure
  else
    let digits := whole ++ part.getD []
    let shift := power.getD 0 - (part.getD []).length
    if !negative && overflowsDouble digits shift then failure
    else return .float (signText negative ++ String.ofList digits ++ "e" ++ toString shift)

/-- A floating-point number, also one that is infinite or none. -/
def float : Scan Toml :=
  floatDigits <|> do
    let negative ← sign
    (exactly "inf" *> pure (.float (signText negative ++ "inf"))) <|>
      (exactly "nan" *> pure (.float (signText negative ++ "nan")))

end Scan

end CallDebugger.Toml
