import CallDebugger.Text.Numeral
import CallDebugger.Toml.Scan

/-!
# TOML strings and keys

A string stands between quotes, one or three at each end. Between double quotes a backslash starts
an escape; between single quotes every character stands for itself. Only a string between three
quotes may run over several lines.
-/

namespace CallDebugger.Toml

/-- The character that a backslash before `c` stands for, where one character is enough. -/
def escaped? : Char → Option Char
  | 'b' => some '\x08'
  | 't' => some '\t'
  | 'n' => some '\n'
  | 'f' => some '\x0c'
  | 'r' => some '\r'
  | '"' => some '"'
  | '\\' => some '\\'
  | _ => none

/-- The character that hexadecimal digits give the number of. -/
def scalar? (digits : List Char) : Option Char :=
  match Numeral.digits? 16 0 digits with
  | none => none
  | some n => if n.isValidChar then some (Char.ofNat n) else none

/-- Puts a character before what was read. -/
def before (c : Char) : List Char × List Char → List Char × List Char := fun (s, rest) =>
  (c :: s, rest)

/-- The text up to the double quote that ends it. -/
def basicText : List Char → Option (List Char × List Char)
  | [] => none
  | '"' :: cs => some ([], cs)
  | '\\' :: 'u' :: a :: b :: c :: d :: cs => do
    return before (← scalar? [a, b, c, d]) (← basicText cs)
  | '\\' :: 'U' :: a :: b :: c :: d :: e :: f :: g :: h :: cs => do
    return before (← scalar? [a, b, c, d, e, f, g, h]) (← basicText cs)
  | '\\' :: c :: cs => do return before (← escaped? c) (← basicText cs)
  | c :: cs => if c ≠ '\\' && isText c then (basicText cs).map (before c) else none

/-- The text up to the single quote that ends it. -/
def literalText : List Char → Option (List Char × List Char)
  | [] => none
  | '\'' :: cs => some ([], cs)
  | c :: cs => if isText c then (literalText cs).map (before c) else none

/-- The quotes, at most two, that still belong to a text after the three that could have ended
it. -/
def extraQuotes (quote : Char) : List Char → List Char × List Char
  | a :: b :: cs =>
    if a = quote then if b = quote then ([quote, quote], cs) else ([quote], b :: cs)
    else ([], a :: b :: cs)
  | [a] => if a = quote then ([quote], []) else ([], [a])
  | [] => ([], [])

/-- Whether only blanks come before the end of the line. -/
def endsLine (cs : List Char) : Bool := (Scan.newline (cs.dropWhile isGap)).isSome

/-- The text up to the three double quotes that end it. A backslash at the end of a line skips the
blanks and line ends after it, which `skipping` tells. -/
def longBasicText (skipping : Bool) : List Char → Option (List Char × List Char)
  | [] => none
  | '"' :: '"' :: '"' :: cs => some (extraQuotes '"' cs)
  | '"' :: cs => (longBasicText false cs).map (before '"')
  | '\r' :: '\n' :: cs =>
    if skipping then longBasicText true cs else (longBasicText false cs).map (before '\n')
  | '\n' :: cs =>
    if skipping then longBasicText true cs else (longBasicText false cs).map (before '\n')
  | '\\' :: 'u' :: a :: b :: c :: d :: cs => do
    return before (← scalar? [a, b, c, d]) (← longBasicText false cs)
  | '\\' :: 'U' :: a :: b :: c :: d :: e :: f :: g :: h :: cs => do
    return before (← scalar? [a, b, c, d, e, f, g, h]) (← longBasicText false cs)
  | '\\' :: c :: cs =>
    if endsLine (c :: cs) then longBasicText true (c :: cs)
    else do return before (← escaped? c) (← longBasicText false cs)
  | c :: cs =>
    if skipping && isGap c then longBasicText true cs
    else if c ≠ '\\' && isText c then (longBasicText false cs).map (before c)
    else none

/-- The text up to the three single quotes that end it. -/
def longLiteralText : List Char → Option (List Char × List Char)
  | [] => none
  | '\'' :: '\'' :: '\'' :: cs => some (extraQuotes '\'' cs)
  | '\r' :: '\n' :: cs => (longLiteralText cs).map (before '\n')
  | '\n' :: cs => (longLiteralText cs).map (before '\n')
  | c :: cs => if isText c then (longLiteralText cs).map (before c) else none

/-- The characters behind the end of a line that they start with. -/
def skipNewline : List Char → List Char
  | '\n' :: cs => cs
  | '\r' :: '\n' :: cs => cs
  | cs => cs

namespace Scan

/-- A string on one line. -/
def shortString : Scan String
  | '"' :: cs => (basicText cs).map fun (s, cs) => (String.ofList s, cs)
  | '\'' :: cs => (literalText cs).map fun (s, cs) => (String.ofList s, cs)
  | _ => none

/-- A string. A line end right after three opening quotes does not belong to it. -/
def string : Scan String
  | '"' :: '"' :: '"' :: cs =>
    (longBasicText false (skipNewline cs)).map fun (s, cs) => (String.ofList s, cs)
  | '\'' :: '\'' :: '\'' :: cs =>
    (longLiteralText (skipNewline cs)).map fun (s, cs) => (String.ofList s, cs)
  | cs => shortString cs

/-- One key, quoted or bare, with the blanks around it. -/
def simpleKey : Scan String := do
  blanks
  let c ← peek?
  let key ← if c = some '"' || c = some '\'' then shortString
    else String.ofList <$> run1 isBare
  blanks
  return key

/-- Keys that dots part, at most `limit` of them. -/
def keys : Nat → Scan (List String)
  | 0 => failure
  | limit + 1 => do
    let key ← simpleKey
    if (← peek?) = some '.' then
      discard next
      return key :: (← keys limit)
    else return [key]

/-- How deep arrays and inline tables may nest, and how many keys may make a path. -/
def depthLimit : Nat := 79

/-- A path of keys. -/
def keyPath : Scan (List String) := keys depthLimit

end Scan

end CallDebugger.Toml
