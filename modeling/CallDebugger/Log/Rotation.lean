import CallDebugger.Files.Tree

/-!
# Rotating a log

A log that has grown to its largest size becomes generation 1, the generations before it move up by
one, and what was the last one is dropped.
-/

namespace CallDebugger

/-- When a log is rotated, and how many generations are kept. -/
structure Rotation where
  maxSize : Nat
  keep : Nat
deriving Repr, DecidableEq

namespace Rotation

/-- Five generations of ten mebibytes. -/
def standard : Rotation := ⟨10 * 1024 * 1024, 5⟩

/-- The path of a generation: the number is appended to the name of the log. -/
def generation (log : Path) (n : Nat) : Path :=
  log.withFileName (log.fileName?.getD "" ++ "." ++ toString n)

/-- The log and every generation of it that is kept. -/
def files (r : Rotation) (log : Path) : List Path :=
  log :: (List.range r.keep).map fun n => generation log (n + 1)

/-- Moves a file if it is there. -/
def moveIfThere (f : Files) (source target : Path) : Except FileError Files :=
  if f.has source then f.rename source target else .ok f

/-- Moves the generations from `n` down to 1 up by one, up to the first that cannot be moved. -/
def shift (f : Files) (log : Path) : Nat → Except FileError Unit × Files
  | 0 => (.ok (), f)
  | n + 1 =>
    match moveIfThere f (generation log (n + 1)) (generation log (n + 2)) with
    | .error e => (.error e, f)
    | .ok f => shift f log n

/-- Moves the log and its generations, of which there may be `last + 1`, up by one. -/
def advance (f : Files) (log : Path) (last : Nat) : Except FileError Unit × Files :=
  let oldest := generation log (last + 1)
  match if f.has oldest then f.remove oldest else .ok f with
  | .error e => (.error e, f)
  | .ok f =>
    match shift f log last with
    | (.error e, f) => (.error e, f)
    | (.ok (), f) =>
      match f.rename log (generation log 1) with
      | .error e => (.error e, f)
      | .ok f => (.ok (), f)

/-- Rotates a log if it has grown to its largest size; tells whether it had. -/
def rotate (r : Rotation) (f : Files) (log : Path) : Except FileError Bool × Files :=
  match f.size log with
  | .error .notFound => (.ok false, f)
  | .error e => (.error e, f)
  | .ok size =>
    if size < r.maxSize then (.ok false, f)
    else
      match r.keep with
      | 0 =>
        match f.remove log with
        | .error e => (.error e, f)
        | .ok f => (.ok true, f)
      | last + 1 =>
        match advance f log last with
        | (.error e, f) => (.error e, f)
        | (.ok (), f) => (.ok true, f)

end Rotation

end CallDebugger
