import CallDebugger.Text.Invisible
import CallDebugger.Text.Numeral

/-!
# Quoted text

A text in double quotes, in which a backslash starts what cannot stand for itself: quotes,
backslashes, line ends, tabs, and the characters without a visible form of their own.
-/

namespace CallDebugger.Quoted

/-- What stands for a character between the quotes. -/
def encodeChar (c : Char) : List Char :=
  match c with
  | '\x00' => ['\\', '0']
  | '\t' => ['\\', 't']
  | '\r' => ['\\', 'r']
  | '\n' => ['\\', 'n']
  | '\\' => ['\\', '\\']
  | '"' => ['\\', '"']
  | c =>
    if Invisible.holds c then ['\\', 'u', '\x7b'] ++ Nat.toDigits 16 c.toNat ++ ['\x7d']
    else [c]

/-- A text with the quotes around it. -/
def encode (text : String) : String :=
  "\"" ++ String.ofList (text.toList.flatMap encodeChar) ++ "\""

end CallDebugger.Quoted
