/-!
# The shortest decimal text of a binary fraction

A finite binary floating-point value is `m · 2 ^ q`. The reals that round to it form an interval,
whose ends belong to it exactly when `m` is even. `Binary.shortest` finds the coarsest grid of
decimals that has a point in the interval, and takes the nearer of the value's two neighbours on
that grid, the upper one if both are equally near. `Binary.render` writes it positionally, never
with an exponent.
-/

namespace CallDebugger.Decimal

/-- A finite positive value `m · 2 ^ q`. `narrowBelow` says that the next smaller value is only half
as far away as the next larger one. -/
structure Binary where
  m : Nat
  q : Int
  narrowBelow : Bool
deriving Repr, DecidableEq

/-- The decimal `digits · 10 ^ exponent`. -/
structure Scaled where
  digits : Nat
  exponent : Int
deriving Repr, DecidableEq, Inhabited

namespace Binary

/-- Quarters of `2 ^ q` below which a number no longer rounds to the value. -/
def low (x : Binary) : Nat := if x.narrowBelow then 4 * x.m - 1 else 4 * x.m - 2

/-- Quarters of `2 ^ q` above which a number no longer rounds to the value. -/
def high (x : Binary) : Nat := 4 * x.m + 2

/-- `(n, d)` such that `n / d` is a quarter of `2 ^ q` counted in units of `10 ^ e`. -/
def quarterIn (x : Binary) (e : Int) : Nat × Nat :=
  (Nat.pow 2 (x.q - 2).toNat * Nat.pow 10 (-e).toNat,
    Nat.pow 2 (2 - x.q).toNat * Nat.pow 10 e.toNat)

/-- Whether `c · 10 ^ e` rounds to the value. -/
def readsBack (x : Binary) (c : Nat) (e : Int) : Bool :=
  let (n, d) := x.quarterIn e
  if x.m % 2 = 0 then x.low * n ≤ c * d && c * d ≤ x.high * n
  else x.low * n < c * d && c * d < x.high * n

/-- The better of the two neighbours of the value among the multiples of `10 ^ e`, if one of them
rounds to the value. -/
def neighbour? (x : Binary) (e : Int) : Option Nat :=
  let (n, d) := x.quarterIn e
  let v := 4 * x.m * n
  let c := v / d
  match x.readsBack c e, x.readsBack (c + 1) e with
  | true, true => some (if 2 * (v % d) < d then c else c + 1)
  | true, false => some c
  | false, true => some (c + 1)
  | false, false => none

/-- Looks for a hit on the grids of `10 ^ e`, `10 ^ (e - 1)`, and so on. -/
def searchFrom (x : Binary) : Nat → Int → Scaled
  | 0, e => ⟨(x.neighbour? e).getD 0, e⟩
  | fuel + 1, e =>
    match x.neighbour? e with
    | some c => ⟨c, e⟩
    | none => x.searchFrom fuel (e - 1)

/-- An exponent of ten whose power is above the value. -/
def ceiling (x : Binary) : Int := ((Nat.log2 x.m + 1 : Int) + x.q) * 30103 / 100000 + 1

/-- The shortest decimal that rounds to the value. A double needs at most seventeen digits. -/
def shortest (x : Binary) : Scaled := x.searchFrom 40 x.ceiling

end Binary

/-- Writes `digits · 10 ^ exponent` positionally. -/
def Scaled.render (d : Scaled) : String :=
  let ds := Nat.toDigits 10 d.digits
  if 0 ≤ d.exponent then String.ofList (ds ++ List.replicate d.exponent.toNat '0')
  else
    let places := (-d.exponent).toNat
    let padded := List.replicate (places + 1 - ds.length) '0' ++ ds
    let whole := padded.length - places
    String.ofList (padded.take whole ++ '.' :: padded.drop whole)

/-- The layout of a binary floating-point word: how many bits the fraction and the exponent have. -/
structure Layout where
  fractionBits : Nat
  exponentBits : Nat
deriving Repr

/-- The 32-bit layout. -/
def single : Layout := ⟨23, 8⟩

/-- The 64-bit layout. -/
def double : Layout := ⟨52, 11⟩

namespace Layout

/-- The fraction field of a word. -/
def fraction (l : Layout) (bits : Nat) : Nat := bits % Nat.pow 2 l.fractionBits

/-- The exponent field of a word. -/
def exponent (l : Layout) (bits : Nat) : Nat :=
  bits / Nat.pow 2 l.fractionBits % Nat.pow 2 l.exponentBits

/-- Whether the sign bit is set. -/
def isNegative (l : Layout) (bits : Nat) : Bool :=
  bits / Nat.pow 2 (l.fractionBits + l.exponentBits) % 2 = 1

/-- Whether the word is infinite or no number. -/
def isSpecial (l : Layout) (bits : Nat) : Bool :=
  l.exponent bits = Nat.pow 2 l.exponentBits - 1

/-- Whether the word is no number. -/
def isNaN (l : Layout) (bits : Nat) : Bool := l.isSpecial bits && l.fraction bits != 0

/-- Whether the word is one of the two zeros. -/
def isZero (l : Layout) (bits : Nat) : Bool := l.exponent bits = 0 && l.fraction bits = 0

/-- The magnitude of a finite word. -/
def magnitude (l : Layout) (bits : Nat) : Binary :=
  let e := l.exponent bits
  let f := l.fraction bits
  let lowest : Int := 2 - Nat.pow 2 (l.exponentBits - 1) - l.fractionBits
  if e = 0 then ⟨f, lowest, false⟩
  else ⟨Nat.pow 2 l.fractionBits + f, lowest + e - 1, f == 0 && 1 < e⟩

/-- The shortest text that reads back as the word, with a sign of its own for zero. -/
def render (l : Layout) (bits : Nat) : String :=
  if l.isNaN bits then "NaN"
  else
    let sign := if l.isNegative bits then "-" else ""
    if l.isSpecial bits then sign ++ "inf"
    else if l.isZero bits then sign ++ "0"
    else sign ++ (l.magnitude bits).shortest.render

/-- Whether two words are equal as numbers: the two zeros are, and nothing equals what is no
number. -/
def numEq (l : Layout) (a b : Nat) : Bool :=
  !l.isNaN a && !l.isNaN b && (a == b || (l.isZero a && l.isZero b))

end Layout

end CallDebugger.Decimal
