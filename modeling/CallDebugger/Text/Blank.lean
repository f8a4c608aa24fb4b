/-!
# Blank characters

`Char.isBlank` is the Unicode property White_Space, and `Blank.trim` and `Blank.words` cut a text
at such characters.
-/

namespace CallDebugger

/-- The characters with the Unicode property White_Space. -/
def isBlank (c : Char) : Bool :=
  let n := c.toNat
  (0x09 ≤ n && n ≤ 0x0D) || n == 0x20 || n == 0x85 || n == 0xA0 || n == 0x1680 ||
    (0x2000 ≤ n && n ≤ 0x200A) || n == 0x2028 || n == 0x2029 || n == 0x202F || n == 0x205F ||
    n == 0x3000

namespace Blank

/-- The characters without the blank ones at the front. -/
def trimStart (cs : List Char) : List Char := cs.dropWhile isBlank

/-- The characters without the blank ones at the end. -/
def trimEnd (cs : List Char) : List Char := (cs.reverse.dropWhile isBlank).reverse

/-- The characters without the blank ones at either end. -/
def trim (cs : List Char) : List Char := trimEnd (trimStart cs)

/-- Splits at the characters that satisfy `cut`; the empty pieces stay. -/
def splitOn (cut : Char → Bool) : List Char → List (List Char)
  | [] => [[]]
  | c :: cs =>
    if cut c then [] :: splitOn cut cs
    else
      match splitOn cut cs with
      | [] => [[c]]
      | piece :: pieces => (c :: piece) :: pieces

/-- The non-empty pieces between the characters that satisfy `cut`. -/
def piecesOn (cut : Char → Bool) (cs : List Char) : List (List Char) :=
  (splitOn cut cs).filter fun piece => !piece.isEmpty

/-- The words of a text: its longest runs without a blank character. -/
def words (cs : List Char) : List (List Char) := piecesOn isBlank cs

/-- The lines of a text: what stands before each line feed, less one carriage return at its end, and
what follows the last one if that is not empty. -/
def lines (cs : List Char) : List (List Char) :=
  let pieces := splitOn (· == '\n') cs
  let ended := pieces.dropLast.map fun line =>
    if line.getLast? = some '\r' then line.dropLast else line
  match pieces.getLast? with
  | none | some [] => ended
  | some rest => ended ++ [rest]

end Blank

end CallDebugger
