import CallDebugger.Text.Blank

/-!
# Paths

A path is a text whose slashes part it into pieces. `Path.join`, `Path.parent?` and `Path.fileName?`
work on the text alone: a piece that is empty or `.` names nothing, and `..` is a piece like a name.
What a path leads to is said in `CallDebugger.Files.Tree`.
-/

namespace CallDebugger

/-- A path as it is written. -/
structure Path where
  text : String
deriving Repr, DecidableEq, Inhabited

namespace Path

/-- The path that some characters spell. -/
def ofChars (cs : List Char) : Path := ⟨String.ofList cs⟩

/-- Cuts a text at its slashes. -/
def pieces (cs : List Char) : List (List Char) := Blank.splitOn (· == '/') cs

/-- Whether a path starts at the root. -/
def isAbsolute (p : Path) : Bool := p.text.toList.head? = some '/'

/-- What stays of a path however much is cut off its end: the slash of the root, or a `.` at the
start. -/
def lead : List Char → List Char
  | '/' :: _ => ['/']
  | ['.'] => ['.']
  | '.' :: '/' :: _ => ['.']
  | _ => []

/-- A piece that names nothing. -/
def isVoid (piece : List Char) : Bool := piece = [] || piece = ['.']

/-- The pieces without the ones at the end that name nothing. -/
def trimPieces (ps : List (List Char)) : List (List Char) := (ps.reverse.dropWhile isVoid).reverse

/-- The pieces behind the lead, up to the last one that names something. -/
def body (p : Path) : List (List Char) :=
  let cs := p.text.toList
  trimPieces (pieces (cs.drop (lead cs).length))

/-- The path without its last name; `none` for the root and for the empty path. -/
def parent? (p : Path) : Option Path :=
  let lead := lead p.text.toList
  match p.body with
  | [] => if lead = ['.'] then some ⟨""⟩ else none
  | body => some (ofChars (lead ++ List.intercalate ['/'] (trimPieces body.dropLast)))

/-- The last name of a path; `none` if there is none or it is `..`. -/
def fileName? (p : Path) : Option String :=
  match p.body.getLast? with
  | none => none
  | some name => if name = ['.', '.'] then none else some (String.ofList name)

/-- What the second path leads to when one stands where the first path leads. -/
def join (dir : Path) (p : Path) : Path :=
  if p.isAbsolute then p
  else if dir.text.isEmpty || dir.text.toList.getLast? = some '/' then ⟨dir.text ++ p.text⟩
  else ⟨dir.text ++ "/" ++ p.text⟩

/-- The path with another last name. -/
def withFileName (p : Path) (name : String) : Path :=
  if p.fileName?.isSome then (p.parent?.getD ⟨""⟩).join ⟨name⟩ else p.join ⟨name⟩

/-- The path and the paths above it, at most `limit` of them. -/
def ancestorsUpTo : Nat → Path → List Path
  | 0, p => [p]
  | limit + 1, p =>
    match p.parent? with
    | none => [p]
    | some parent => p :: ancestorsUpTo limit parent

/-- The path and every path above it, the nearest first. A parent is shorter than its path, so the
length of the text bounds how many there are. -/
def ancestors (p : Path) : List Path := ancestorsUpTo p.text.length p

end Path

end CallDebugger
