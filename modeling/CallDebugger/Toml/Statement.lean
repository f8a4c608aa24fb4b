import CallDebugger.Toml.Moment
import CallDebugger.Toml.Number
import CallDebugger.Toml.Text

/-!
# TOML statements

A document is a row of statements: headers of tables and of elements of arrays of tables, and keys
with their values. `Statement.all?` reads the statements of a text; what they amount to is said in
`CallDebugger.Toml.Document`.
-/

namespace CallDebugger.Toml

/-- One statement of a document. -/
inductive Statement where
  /-- A header in brackets. -/
  | header (path : List String)
  /-- A header in double brackets. -/
  | element (path : List String)
  | setting (path : List String) (value : Toml)
deriving Repr, Inhabited

namespace Scan

/-- A value that holds no other values. -/
def scalar : Scan Toml := do
  match ← peek? with
  | some '"' | some '\'' => return .string (← string)
  | some 't' => exactly "true"; return .boolean true
  | some 'f' => exactly "false"; return .boolean false
  | _ => moment <|> float <|> integer

/-- The items of an array up to its closing bracket, at most `limit` of them. A comma may stand
behind the last one. -/
def items (item : Scan Toml) : Nat → Scan (List Toml)
  | 0 => failure
  | limit + 1 => do
    gap
    if (← peek?) = some ']' then
      discard next
      return []
    else
      let a ← item
      gap
      match ← next with
      | ',' => return a :: (← items item limit)
      | ']' => return [a]
      | _ => failure

/-- An array of at most `limit` items. -/
def array (limit : Nat) (item : Scan Toml) : Scan Toml := do
  exactly "["
  return .array false (← items item limit)

/-- A path of keys and its value. -/
def pair (item : Scan Toml) : Scan (List String × Toml) := do
  let path ← keyPath
  exactly "="
  blanks
  return (path, ← item)

/-- The keys and values of an inline table up to its closing brace, at most `limit` of them. No
comma stands behind the last one. -/
def pairs (item : Scan Toml) : Nat → Scan (List (List String × Toml))
  | 0 => failure
  | limit + 1 => do
    let p ← pair item
    blanks
    match ← next with
    | ',' => return p :: (← pairs item limit)
    | '}' => return [p]
    | _ => failure

/-- An inline table of at most `limit` keys and values. -/
def inlineTable (limit : Nat) (item : Scan Toml) : Scan Toml := do
  exactly "\x7b"
  blanks
  let ps ← if (← peek?) = some '}' then do discard next; pure [] else pairs item limit
  match ps.foldlM (fun (s, t) (path, value) => Table.define? path value s t)
      (Standing.inline, []) with
  | none => failure
  | some (_, t) => return .table .inline t

/-- A value with at most `depth` arrays and inline tables around the innermost one, none of which
has more than `limit` parts. -/
def value (limit : Nat) : Nat → Scan Toml
  | 0 => scalar
  | depth + 1 => do
    match ← peek? with
    | some '[' => array limit (value limit depth)
    | some '{' => inlineTable limit (value limit depth)
    | _ => scalar

/-- A statement and the rest of its line. -/
def statement (limit : Nat) : Scan Statement := do
  let s ← do
    if (← get).take 2 = ['[', '['] then
      exactly "[["
      let path ← keyPath
      exactly "]]"
      pure (.element path)
    else if (← peek?) = some '[' then
      exactly "["
      let path ← keyPath
      exactly "]"
      pure (.header path)
    else
      let (path, value) ← pair (value limit depthLimit)
      pure (.setting path value)
  lineRest
  return s

/-- The statements of the rest of a text, at most `lines` lines of them. -/
def statements (limit : Nat) : Nat → Scan (List Statement)
  | 0 => failure
  | lines + 1 => do
    blanks
    match ← peek? with
    | none => return []
    | some '#' => comment; lineEnd; statements limit lines
    | some '\n' | some '\r' => newline; statements limit lines
    | some _ => return (← statement limit) :: (← statements limit lines)

end Scan

/-- The mark that may stand in front of a text to tell how it is encoded. -/
def byteOrderMark : Char := '\uFEFF'

/-- The statements of a text; `none` if it is no TOML. Every line has a character, but for the
last one, and so has every item of an array and every key; so the length of the text bounds them. -/
def Statement.all? (text : String) : Option (List Statement) :=
  let cs := match text.toList with
    | c :: cs => if c = byteOrderMark then cs else c :: cs
    | [] => []
  let limit := cs.length + 1
  (Scan.statements limit limit cs).map (·.1)

end CallDebugger.Toml
