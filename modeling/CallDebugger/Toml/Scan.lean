/-!
# Scanning TOML

A `Scan` takes a part off the front of the characters, or fails. Blanks are spaces and tabs; a line
ends with a line feed, which one carriage return may precede. `skipGap` goes past everything that
may stand between the items of an array.
-/

namespace CallDebugger.Toml

/-- Takes a part off the front of the characters. -/
abbrev Scan := StateT (List Char) Option

/-- A space or a tab. -/
def isGap (c : Char) : Bool := c = ' ' || c = '\t'

/-- A character that comments and strings may hold: a tab, a visible ASCII character, a space, or
anything beyond ASCII. -/
def isText (c : Char) : Bool := c = '\t' || (' ' ≤ c && c ≤ '~') || '\x80' ≤ c

/-- A character of a key that is not quoted. -/
def isBare (c : Char) : Bool := c.isAlphanum || c = '_' || c = '-'

namespace Scan

/-- The next character, which stays. -/
def peek? : Scan (Option Char) := do return (← get).head?

/-- The next character. -/
def next : Scan Char
  | [] => none
  | c :: cs => some (c, cs)

/-- The next character, if it is one of a class. -/
def char (p : Char → Bool) : Scan Char
  | [] => none
  | c :: cs => if p c then some (c, cs) else none

/-- The given text. -/
def exactly (text : String) : Scan Unit := fun cs =>
  if text.toList.isPrefixOf cs then some ((), cs.drop text.toList.length) else none

/-- The longest run of characters of a class. -/
def run (p : Char → Bool) : Scan (List Char) := fun cs => some (cs.takeWhile p, cs.dropWhile p)

/-- The longest run of characters of a class, which must not be empty. -/
def run1 (p : Char → Bool) : Scan (List Char) := fun cs =>
  match cs.takeWhile p with
  | [] => none
  | run => some (run, cs.dropWhile p)

/-- What `s` takes, or nothing if it fails. -/
def optional (s : Scan α) : Scan (Option α) := fun cs =>
  match s cs with
  | some (a, cs) => some (some a, cs)
  | none => some (none, cs)

/-- Blanks, if there are any. -/
def blanks : Scan Unit := fun cs => some ((), cs.dropWhile isGap)

/-- The end of a line. -/
def newline : Scan Unit
  | '\n' :: cs => some ((), cs)
  | '\r' :: '\n' :: cs => some ((), cs)
  | _ => none

/-- The end of a line or of the text. -/
def lineEnd : Scan Unit
  | [] => some ((), [])
  | cs => newline cs

/-- A comment, without the end of its line. -/
def comment : Scan Unit := do
  exactly "#"
  discard <| run isText

/-- What may follow a statement on its line. -/
def lineRest : Scan Unit := do
  blanks
  if (← peek?) = some '#' then comment
  lineEnd

end Scan

/-- The characters behind the blanks, line ends and comments at the front; `inside` tells that a
comment has begun. A comment needs the end of its line. -/
def skipGap (inside : Bool) : List Char → Option (List Char)
  | [] => if inside then none else some []
  | '\n' :: cs => skipGap false cs
  | '\r' :: '\n' :: cs => skipGap false cs
  | c :: cs =>
    if inside then if isText c then skipGap true cs else none
    else if isGap c then skipGap false cs
    else if c = '#' then skipGap true cs
    else some (c :: cs)

/-- What may stand between the items of an array. -/
def Scan.gap : Scan Unit := fun cs => (skipGap false cs).map ((), ·)

end CallDebugger.Toml
