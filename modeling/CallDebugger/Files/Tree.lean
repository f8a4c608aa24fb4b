import CallDebugger.Files.Path
import CallDebugger.Text.Utf8

/-!
# Trees of files

`Files` is a tree of files and directories as one process sees it, with a current directory. An
operation takes a path, finds the place that it leads to, and gives the tree that is left. What only
looks follows the whole path; what makes or moves something follows the path up to its last name, to
the `Slot` there. The facts below say what `put` and `drop` do to `node?`.
-/

namespace CallDebugger

/-- Why an operation on files fails. -/
inductive FileError where
  | notFound
  /-- A socket cannot be opened. -/
  | notOpenable
  /-- A path that ends in `.` or `..` names nothing that can be moved. -/
  | busy
  | alreadyThere
  | notDirectory
  | isDirectory
  /-- A directory cannot be moved into itself. -/
  | invalid
  | nameTooLong
  | notEmpty
  /-- A character that cannot stand in a name. -/
  | badName
  /-- The file is no UTF-8. -/
  | notText
deriving Repr, DecidableEq, Inhabited

/-- The wording of a failure. -/
def FileError.message : FileError → String
  | notFound => "No such file or directory (os error 2)"
  | notOpenable => "No such device or address (os error 6)"
  | busy => "Device or resource busy (os error 16)"
  | alreadyThere => "File exists (os error 17)"
  | notDirectory => "Not a directory (os error 20)"
  | isDirectory => "Is a directory (os error 21)"
  | invalid => "Invalid argument (os error 22)"
  | nameTooLong => "File name too long (os error 36)"
  | notEmpty => "Directory not empty (os error 39)"
  | badName => "file name contained an unexpected NUL byte"
  | notText => "stream did not contain valid UTF-8"

/-- Where something stands in a tree: the names that lead there from the root. -/
abbrev Place := List String

/-- What stands at a place. -/
inductive Node where
  | file (content : Bytes)
  | directory
  /-- A local socket. -/
  | socket
deriving Repr, DecidableEq, Inhabited

/-- A tree of files. The root is a directory without an entry. -/
structure Files where
  /-- Where paths that do not start at the root start. -/
  current : Place
  entries : List (Place × Node)
deriving Inhabited

namespace Files

/-- A tree without files. -/
def empty : Files := ⟨[], []⟩

/-! ## Places -/

/-- What stands at a place. -/
def node? (f : Files) (spot : Place) : Option Node :=
  if spot = [] then some .directory else f.entries.lookup spot

/-- The tree without the entry of a place. -/
def drop (f : Files) (spot : Place) : Files :=
  { f with entries := f.entries.filter fun e => e.1 != spot }

/-- Puts a node at a place. -/
def put (f : Files) (spot : Place) (n : Node) : Files :=
  { f with entries := (f.drop spot).entries ++ [(spot, n)] }

/-- Whether something stands below a place. -/
def hasBelow (f : Files) (spot : Place) : Bool :=
  f.entries.any fun e => spot.isPrefixOf e.1 && e.1 != spot

theorem lookup_filter_ne {es : List (Place × Node)} {p q : Place} (h : q ≠ p) :
    (es.filter fun e => e.1 != p).lookup q = es.lookup q := by
  induction es with
  | nil => rfl
  | cons e es ih =>
    obtain ⟨k, n⟩ := e
    by_cases hk : k = p
    · subst hk
      have : (q == k) = false := by simpa using h
      simp [List.lookup_cons, this, ih]
    · by_cases hq : q = k <;> simp_all [List.lookup_cons]

theorem lookup_filter_self {es : List (Place × Node)} {p : Place} :
    (es.filter fun e => e.1 != p).lookup p = none := by
  induction es with
  | nil => rfl
  | cons e es ih =>
    obtain ⟨k, n⟩ := e
    by_cases hk : k = p
    · simp [hk, ih]
    · have : (p == k) = false := by simpa using fun h => hk h.symm
      simp [hk, List.lookup_cons, this, ih]

/-- What was put at a place stands there. -/
theorem node?_put_self (f : Files) {p : Place} (hp : p ≠ []) (n : Node) :
    (f.put p n).node? p = some n := by
  simp only [node?, if_neg hp, put, drop, List.lookup_append, lookup_filter_self]
  simp

/-- Putting a node changes no other place. -/
theorem node?_put_of_ne (f : Files) {p q : Place} (h : q ≠ p) (n : Node) :
    (f.put p n).node? q = f.node? q := by
  have hb : (q == p) = false := by simpa using h
  simp only [node?, put, drop, List.lookup_append, lookup_filter_ne h]
  cases f.entries.lookup q <;> simp [List.lookup_cons, hb]

/-- What was dropped is gone. -/
theorem node?_drop_self (f : Files) {p : Place} (hp : p ≠ []) : (f.drop p).node? p = none := by
  simp only [node?, if_neg hp, drop, lookup_filter_self]

/-- Dropping an entry changes no other place. -/
theorem node?_drop_of_ne (f : Files) {p q : Place} (h : q ≠ p) :
    (f.drop p).node? q = f.node? q := by
  simp only [node?, drop, lookup_filter_ne h]

/-! ## Paths -/

/-- The longest name in bytes. -/
def nameLimit : Nat := 255

/-- The bytes of the longest path, and one more. -/
def pathLimit : Nat := 4096

/-- Whether a name is too long for an entry. -/
def isLong (name : String) : Bool := nameLimit < name.utf8ByteSize

/-- Goes along the pieces of a path. All but the last name that it meets has to be there. -/
def walk (f : Files) (spot : Place) : List (List Char) → Except FileError Place
  | [] => .ok spot
  | piece :: rest =>
    match f.node? spot with
    | none => .error .notFound
    | some .directory =>
      if Path.isVoid piece then f.walk spot rest
      else if piece = ['.', '.'] then f.walk spot.dropLast rest
      else if isLong (String.ofList piece) then .error .nameTooLong
      else f.walk (spot ++ [String.ofList piece]) rest
    | some _ => .error .notDirectory

/-- Where a path starts. -/
def start (f : Files) (p : Path) : Except FileError Place :=
  if p.text.isEmpty then .error .notFound
  else if p.text.toList.contains '\x00' then .error .badName
  else if pathLimit ≤ p.text.utf8ByteSize then .error .nameTooLong
  else .ok (if p.isAbsolute then [] else f.current)

/-- The place that a path leads to; its last name need not be there. -/
def place (f : Files) (p : Path) : Except FileError Place :=
  match f.start p with
  | .error e => .error e
  | .ok spot => f.walk spot (Path.pieces p.text.toList)

/-- What a path leads to, and where. -/
def find (f : Files) (p : Path) : Except FileError (Place × Node) :=
  match f.place p with
  | .error e => .error e
  | .ok spot =>
    match f.node? spot with
    | none => .error .notFound
    | some n => .ok (spot, n)

/-- Whether a path leads to something. -/
def has (f : Files) (p : Path) : Bool := (f.find p).toOption.isSome

/-- Whether a path leads to a file. -/
def hasFile (f : Files) (p : Path) : Bool :=
  match f.find p with
  | .ok (_, .file _) => true
  | _ => false

/-- Whether a path leads to a directory. -/
def hasDirectory (f : Files) (p : Path) : Bool :=
  match f.find p with
  | .ok (_, .directory) => true
  | _ => false

/-! ## Slots -/

/-- Where a path lets something be made or moved: a directory that is there, and a name in it. -/
structure Slot where
  directory : Place
  /-- The last name; `none` for the root and for a path that ends in `.` or `..`. -/
  name? : Option String
  /-- Whether a slash follows the name. -/
  isClosed : Bool
deriving Repr, DecidableEq

/-- The slot that a path leads to. What the last name leads to does not matter. -/
def slot (f : Files) (p : Path) : Except FileError Slot :=
  match f.start p with
  | .error e => .error e
  | .ok spot =>
    let pieces := Path.pieces p.text.toList
    match pieces.reverse.dropWhile (· = []) with
    | [] => .ok ⟨spot, none, true⟩
    | last :: above =>
      match f.walk spot (above.reverse ++ [[]]) with
      | .error e => .error e
      | .ok directory =>
        let isName := !Path.isVoid last && last ≠ ['.', '.']
        .ok ⟨directory, if isName then some (String.ofList last) else none,
          pieces.getLast? = some []⟩

/-- The place of a name in a directory. -/
def entry (directory : Place) (name : String) : Except FileError Place :=
  if isLong name then .error .nameTooLong else .ok (directory ++ [name])

/-! ## Reading -/

/-- The bytes of a file. -/
def bytes (f : Files) (p : Path) : Except FileError Bytes :=
  match f.find p with
  | .error e => .error e
  | .ok (_, .directory) => .error .isDirectory
  | .ok (_, .socket) => .error .notOpenable
  | .ok (_, .file content) => .ok content

/-- The text of a file. -/
def read (f : Files) (p : Path) : Except FileError String :=
  match f.bytes p with
  | .error e => .error e
  | .ok content =>
    match Utf8.decode content with
    | .ok text => .ok text
    | .error _ => .error .notText

/-- The size that a directory is given out to have. -/
def directorySize : Nat := 4096

/-- The size of what a path leads to. -/
def size (f : Files) (p : Path) : Except FileError Nat :=
  match f.find p with
  | .error e => .error e
  | .ok (_, .directory) => .ok directorySize
  | .ok (_, .socket) => .ok 0
  | .ok (_, .file content) => .ok content.length

/-! ## Writing -/

/-- The place where a file may be written: a slash must not follow its name. -/
def placeForFile (f : Files) (p : Path) : Except FileError Place :=
  match f.slot p with
  | .error e => .error e
  | .ok ⟨directory, some name, false⟩ => entry directory name
  | .ok _ => .error .isDirectory

/-- Makes a file of the given content, or replaces what it held. -/
def writeBytes (f : Files) (p : Path) (content : Bytes) : Except FileError Files :=
  match f.placeForFile p with
  | .error e => .error e
  | .ok spot =>
    match f.node? spot with
    | some .directory => .error .isDirectory
    | some .socket => .error .notOpenable
    | _ => .ok (f.put spot (.file content))

/-- Makes a file of the given text, or replaces what it held. -/
def write (f : Files) (p : Path) (text : String) : Except FileError Files :=
  f.writeBytes p (Utf8.encode text)

/-- Makes an empty file unless the path leads to a file. -/
def touch (f : Files) (p : Path) : Except FileError Files :=
  if f.hasFile p then .ok f else f.writeBytes p []

/-- Makes something where nothing is. What is no directory must not have a slash behind its name. -/
def make (f : Files) (p : Path) (n : Node) : Except FileError Files :=
  match f.slot p with
  | .error e => .error e
  | .ok ⟨_, none, _⟩ => .error .alreadyThere
  | .ok ⟨directory, some name, isClosed⟩ =>
    match entry directory name with
    | .error e => .error e
    | .ok spot =>
      if (f.node? spot).isSome then .error .alreadyThere
      else if isClosed && n ≠ .directory then .error .notFound
      else .ok (f.put spot n)

/-- Makes a directory. -/
def makeDirectory (f : Files) (p : Path) : Except FileError Files := f.make p .directory

/-- Makes the first of the directories, and those after it as far as they are missing. -/
def makeChain (f : Files) : List Path → Except FileError Unit × Files
  | [] => (.error .notFound, f)
  | p :: above =>
    if p.text.isEmpty then (.ok (), f)
    else
      let settle (f : Files) (e : FileError) : Except FileError Unit × Files :=
        (if f.hasDirectory p then .ok () else .error e, f)
      match f.makeDirectory p with
      | .ok f => (.ok (), f)
      | .error .notFound =>
        match f.makeChain above with
        | (.error e, f) => (.error e, f)
        | (.ok (), f) =>
          match f.makeDirectory p with
          | .ok f => (.ok (), f)
          | .error e => settle f e
      | .error e => settle f e

/-- Makes a directory and the missing ones above it. -/
def makeDirectories (f : Files) (p : Path) : Except FileError Unit × Files :=
  f.makeChain p.ancestors

/-- Makes a file and the missing directories above it; nothing changes where that cannot be done. -/
def plant (f : Files) (p : Path) (content : Bytes) : Files :=
  let grown := match p.parent? with
    | some dir => (f.makeDirectories dir).2
    | none => f
  (grown.writeBytes p content).toOption.getD f

/-- Removes a file. -/
def remove (f : Files) (p : Path) : Except FileError Files :=
  match f.find p with
  | .error e => .error e
  | .ok (_, .directory) => .error .isDirectory
  | .ok (spot, _) => .ok (f.drop spot)

/-- The place that `spot` becomes when what stands at `source` moves to `target`. -/
def moved (source target spot : Place) : Place :=
  if source.isPrefixOf spot then target ++ spot.drop source.length else spot

/-- Moves what stands at a place to another place. It takes the place of a file, or of an empty
directory if it is a directory. -/
def move (f : Files) (old new : Place) (n : Node) : Except FileError Files :=
  if old = new then .ok f
  else if old.isPrefixOf new then .error .invalid
  else if new.isPrefixOf old then .error .notEmpty
  else
    match n, f.node? new with
    | .directory, some .directory =>
      if f.hasBelow new then .error .notEmpty else .ok (carried (f.drop new))
    | .directory, some _ => .error .notDirectory
    | .directory, none => .ok (carried f)
    | _, some .directory => .error .isDirectory
    | n, _ => .ok ((f.drop old).put new n)
where
  /-- The tree in which everything at or below the place has moved. -/
  carried (f : Files) : Files :=
    { f with entries := f.entries.map fun e => (moved old new e.1, e.2) }

/-- Moves a file or a directory. Only the name of a directory may have a slash behind it. -/
def rename (f : Files) (source target : Path) : Except FileError Files :=
  match f.slot source, f.slot target with
  | .error e, _ => .error e
  | .ok _, .error e => .error e
  | .ok ⟨home, some a, closed⟩, .ok ⟨away, some b, closed'⟩ =>
    match entry home a with
    | .error e => .error e
    | .ok old =>
      match f.node? old, entry away b with
      | none, _ => .error .notFound
      | some _, .error e => .error e
      | some n, .ok new =>
        if n ≠ .directory && (closed || closed') then .error .notDirectory else f.move old new n
  | .ok _, .ok _ => .error .busy

/-! ## Listing -/

/-- Everything below a place: its path from there, with a slash behind a directory, and what it
is. -/
def below (f : Files) (spot : Place) : List (String × Node) :=
  (f.entries.filter fun e => spot.isPrefixOf e.1 && e.1 != spot).map fun (p, n) =>
    ("/".intercalate (p.drop spot.length) ++ (if n = .directory then "/" else ""), n)

end Files

end CallDebugger
