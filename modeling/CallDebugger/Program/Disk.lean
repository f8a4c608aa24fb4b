import CallDebugger.Files.Tree

/-!
# The disk

The program decides on a `Files` value. What it may look at is read from the disk beforehand, and
what it has changed is written to the disk afterwards.
-/

namespace CallDebugger.Disk

/-- The number by which the system tells that something is a directory. -/
def isDirectoryCode : UInt32 := 21

/-- What a path leads to on the disk, if to anything. -/
def look (path : String) : IO (Option Node) := do
  try
    return some (.file (← IO.FS.readBinFile path).toList)
  catch
    | .noFileOrDirectory .. => return none
    | .inappropriateType _ code _ => return if code = isDirectoryCode then some .directory else none
    | e => throw e

/-- Adds what a path leads to on the disk. -/
def see (files : Files) (path : Path) : IO Files := do
  match ← look path.text with
  | none => return files
  | some (.file content) => return files.plant path content
  | some .directory => return (files.makeDirectories path).2
  | some .socket => return files

/-- The working directory and what some paths lead to. -/
def seeAll (here : Path) (paths : List Path) : IO Files := do
  let files := (Files.empty.makeDirectories here).2
  let current := match files.place here with
    | .ok spot => spot
    | .error _ => []
  paths.foldlM see { files with current }

/-- The path of a place. -/
def pathOf (place : Place) : String := "/" ++ "/".intercalate place

/-- Writes to the disk what has changed. -/
def store (before after : Files) : IO Unit := do
  for (place, node) in after.entries do
    if before.node? place ≠ some node then
      match node with
      | .directory => IO.FS.createDirAll (pathOf place)
      | .file content => IO.FS.writeBinFile (pathOf place) ⟨content.toArray⟩
      | .socket => pure ()
  for (place, _) in before.entries do
    if after.node? place = none then IO.FS.removeFile (pathOf place)

end CallDebugger.Disk
