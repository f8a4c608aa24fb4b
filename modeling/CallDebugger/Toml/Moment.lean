import CallDebugger.Text.Numeral
import CallDebugger.Toml.Scan
import CallDebugger.Toml.Value

/-!
# TOML dates and times

A moment is a date, a time of day, or a date with a time of day and perhaps an offset. Its standard
form has a `T` between date and time, `Z` or a signed offset, and at most nine digits of a second
without zeros at the end.
-/

namespace CallDebugger.Toml

/-- How many days a month has. -/
def daysOf (year month : Nat) : Nat :=
  if month = 2 then
    if year % 4 = 0 && (year % 100 ≠ 0 || year % 400 = 0) then 29 else 28
  else if month = 4 || month = 6 || month = 9 || month = 11 then 30
  else 31

/-- A number filled with zeros to a width. -/
def padded (width n : Nat) : String :=
  let digits := Nat.toDigits 10 n
  String.ofList (List.replicate (width - digits.length) '0' ++ digits)

/-- The standard form of the digits behind the point of a second. -/
def secondFraction (digits : List Char) : String :=
  match ((digits.take 9).reverse.dropWhile (· == '0')).reverse with
  | [] => ""
  | kept => "." ++ String.ofList kept

namespace Scan

/-- A number of exactly `width` digits between two bounds. -/
def ranged (width low high : Nat) : Scan Nat := fun cs =>
  let ds := cs.take width
  if ds.length = width then
    match Numeral.digits? 10 0 ds with
    | none => none
    | some n => if low ≤ n && n ≤ high then some (n, cs.drop width) else none
  else none

/-- A date. -/
def date : Scan String := do
  let year ← ranged 4 0 9999
  exactly "-"
  let month ← ranged 2 1 12
  exactly "-"
  let day ← ranged 2 1 31
  if daysOf year month < day then failure
  else return padded 4 year ++ "-" ++ padded 2 month ++ "-" ++ padded 2 day

/-- A time of day. The last second of a minute may be followed by a leap second. -/
def time : Scan String := do
  let hour ← ranged 2 0 23
  exactly ":"
  let minute ← ranged 2 0 59
  exactly ":"
  let second ← ranged 2 0 60
  let part ← optional do
    exactly "."
    run1 Char.isDigit
  return padded 2 hour ++ ":" ++ padded 2 minute ++ ":" ++ padded 2 second ++
    secondFraction (part.getD [])

/-- An offset. The zero offset is positive. -/
def offset : Scan String := do
  match ← char fun c => c = 'Z' || c = 'z' || c = '+' || c = '-' with
  | 'Z' | 'z' => return "Z"
  | sign =>
    let hour ← ranged 2 0 23
    exactly ":"
    let minute ← ranged 2 0 59
    let mark := if sign = '-' && (hour, minute) ≠ (0, 0) then "-" else "+"
    return mark ++ padded 2 hour ++ ":" ++ padded 2 minute

/-- The time of day behind a date. -/
def timeOfDate : Scan String := do
  discard <| char fun c => c = 'T' || c = 't' || c = ' '
  let t ← time
  return "T" ++ t ++ (← optional offset).getD ""

/-- A date, a time or both. -/
def moment : Scan Toml := do
  let dated : Scan String := do
    let d ← date
    return d ++ (← optional timeOfDate).getD ""
  return .moment (← dated <|> time)

end Scan

/-- The moment that a whole text gives. -/
def momentOfText? (text : String) : Option Toml :=
  match Scan.moment text.toList with
  | some (m, []) => some m
  | _ => none

end CallDebugger.Toml
