import CallDebugger.Files.Path

/-!
# The user's directories

Where configurations and logs are looked for if nothing else is said. A directory of its own counts
only if it is an absolute path; otherwise it is found below the home directory.
-/

namespace CallDebugger

/-- What the environment of the program says about directories. -/
structure Environment where
  configHome : Option String
  dataHome : Option String
  home : Option String
  /-- The home directory that the user's account names. -/
  accountHome : Option String
  /-- Where temporary files go. -/
  temporary : Option String
deriving Repr, DecidableEq, Inhabited

namespace Environment

/-- The home directory. -/
def home? (e : Environment) : Option Path :=
  (e.home.filter fun h => !h.isEmpty).or e.accountHome |>.map Path.mk

/-- A directory that a variable names, or else one below the home directory. -/
def directory? (e : Environment) (named : Option String) (below : String) : Option Path :=
  match named.filter fun d => (Path.mk d).isAbsolute with
  | some d => some ⟨d⟩
  | none => e.home?.map fun h => h.join ⟨below⟩

/-- The directory of the configuration. -/
def configDir? (e : Environment) : Option Path :=
  (e.directory? e.configHome ".config").map fun d => d.join ⟨"tracedbg"⟩

/-- The file that is logged to when the log goes to a file that is not configured. -/
def logFile (e : Environment) : Path :=
  let dir := (e.directory? e.dataHome ".local/share").getD ⟨e.temporary.getD "/tmp"⟩
  (dir.join ⟨"tracedbg"⟩).join ⟨"tracedbg.log"⟩

end Environment

end CallDebugger
