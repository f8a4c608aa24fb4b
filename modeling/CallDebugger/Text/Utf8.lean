/-!
# UTF-8 bytes of a text

`Utf8.encode` and `Utf8.decode` go between a text and its bytes. Bytes that are no UTF-8 are
refused with the first place where they stop being so: `Utf8.fault` finds it, and tells a
sequence that is wrong from one that the end of the bytes cuts off.
-/

namespace CallDebugger

/-- What the wire carries. -/
abbrev Bytes := List UInt8

namespace Utf8

/-- Where and how a byte string stops being UTF-8. -/
inductive Fault where
  /-- The `length` bytes from `index` begin no character. -/
  | invalid (index length : Nat)
  /-- The character that begins at `index` is cut off by the end of the bytes. -/
  | incomplete (index : Nat)
deriving Repr, DecidableEq, Inhabited

/-- The wording of a fault. -/
def Fault.message : Fault → String
  | .invalid index length =>
    "invalid utf-8 sequence of " ++ toString length ++ " bytes from index " ++ toString index
  | .incomplete index => "incomplete utf-8 byte sequence from index " ++ toString index

/-- A byte that continues a character. -/
def isContinuation (b : UInt8) : Bool := 0x80 ≤ b && b ≤ 0xBF

/-- The bytes that may stand second in a character of three bytes that begins with `lead`. -/
def secondOfThree (lead b : UInt8) : Bool :=
  if lead = 0xE0 then 0xA0 ≤ b && b ≤ 0xBF
  else if lead = 0xED then 0x80 ≤ b && b ≤ 0x9F
  else isContinuation b

/-- The bytes that may stand second in a character of four bytes that begins with `lead`. -/
def secondOfFour (lead b : UInt8) : Bool :=
  if lead = 0xF0 then 0x90 ≤ b && b ≤ 0xBF
  else if lead = 0xF4 then 0x80 ≤ b && b ≤ 0x8F
  else isContinuation b

/-- The tests that the bytes after `lead` have to pass, in order; `none` if no character begins
with `lead`. -/
def tailTests (lead : UInt8) : Option (List (UInt8 → Bool)) :=
  if lead < 0x80 then some []
  else if 0xC2 ≤ lead && lead ≤ 0xDF then some [isContinuation]
  else if 0xE0 ≤ lead && lead ≤ 0xEF then some [secondOfThree lead, isContinuation]
  else if 0xF0 ≤ lead && lead ≤ 0xF4 then
    some [secondOfFour lead, isContinuation, isContinuation]
  else none

/-- Reads the rest of a character that begins at `start`: either what follows it, or the fault. The
first byte that fails its test is not part of the faulty sequence. -/
def tailRest (start : Nat) (length : Nat) : List (UInt8 → Bool) → Bytes → Except Fault Bytes
  | [], bytes => .ok bytes
  | _ :: _, [] => .error (.incomplete start)
  | test :: tests, b :: bytes =>
    if test b then tailRest start (length + 1) tests bytes else .error (.invalid start length)

theorem length_tailRest_le {start length : Nat} {tests : List (UInt8 → Bool)} {bytes rest : Bytes}
    (h : tailRest start length tests bytes = .ok rest) : rest.length ≤ bytes.length := by
  induction tests generalizing length bytes with
  | nil => simp only [tailRest, Except.ok.injEq] at h; exact h ▸ Nat.le_refl _
  | cons test tests ih =>
    cases bytes with
    | nil => simp [tailRest] at h
    | cons b bytes =>
      simp only [tailRest] at h
      split at h
      · exact Nat.le_succ_of_le (ih h)
      · exact absurd h (by simp)

/-- The first fault of `bytes`, where `index` bytes came before them; `none` if they are UTF-8. -/
def faultFrom (index : Nat) : Bytes → Option Fault
  | [] => none
  | lead :: bytes =>
    match tailTests lead with
    | none => some (.invalid index 1)
    | some tests =>
      match h : tailRest index 1 tests bytes with
      | .error fault => some fault
      | .ok rest =>
        have : rest.length < bytes.length + 1 := Nat.lt_succ_of_le (length_tailRest_le h)
        faultFrom (index + 1 + tests.length) rest
termination_by bytes => bytes.length

/-- The first fault of `bytes`; `none` if they are UTF-8. -/
def fault? (bytes : Bytes) : Option Fault := faultFrom 0 bytes

/-- The bytes of a text. -/
def encode (text : String) : Bytes := text.toByteArray.data.toList

/-- The text that the bytes spell, or where they stop being a text. -/
def decode (bytes : Bytes) : Except Fault String :=
  match String.fromUTF8? ⟨bytes.toArray⟩ with
  | some text => .ok text
  | none => .error ((fault? bytes).getD (.incomplete bytes.length))

/-- Every text is read back from its bytes. -/
theorem decode_encode (text : String) : decode (encode text) = .ok text := by
  have h : (⟨text.toByteArray.data.toList.toArray⟩ : ByteArray) = text.toByteArray := by simp
  simp [decode, encode, String.fromUTF8?, text.isValidUTF8, String.fromUTF8]

/-- The bytes of a text are as many as its size in UTF-8. -/
theorem length_encode (text : String) : (encode text).length = text.utf8ByteSize := rfl

end Utf8

end CallDebugger
