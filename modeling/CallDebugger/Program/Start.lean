import CallDebugger.Config.Load
import CallDebugger.Link.Basic
import CallDebugger.Log.Level
import CallDebugger.Log.Rotation
import CallDebugger.Program.Arguments
import CallDebugger.Program.Environment

/-!
# Starting the program

What happens before the program turns to its task: the configuration is loaded, the log is opened,
and the endpoint is found. `Start.run` gives the task that is ready to run, or the failure.
-/

namespace CallDebugger

/-- Why the program fails. -/
inductive Failure where
  /-- There is no directory that the configuration could be in. -/
  | noConfigDir
  | config (dir : Path) (e : ConfigError)
  | level (e : UnknownLevel)
  | logDirectory (dir : Path) (e : FileError)
  | rotation (log : Path) (e : FileError)
  | logFile (log : Path) (e : FileError)
  | endpoint (text : String) (e : EndpointError)
  /-- The process cannot listen on its endpoint; `texts` are the causes. -/
  | listen (endpoint : Endpoint) (texts : List String)
  /-- A hook of the traced process failed while it waited for the first time. -/
  | neverAttached (texts : List String)
  | lostController (texts : List String)
deriving Repr, DecidableEq

/-- The wordings of a failure, from the outermost cause to the innermost. -/
def Failure.messages : Failure → List String
  | noConfigDir => ["no platform config directory; pass --config-dir"]
  | config dir e => ("failed to load config from " ++ dir.text) :: e.messages "TOML parse error"
  | level e => [e.message]
  | logDirectory dir e => ["cannot create log dir " ++ dir.text, e.message]
  | rotation log e => ["cannot rotate " ++ log.text, e.message]
  | logFile log e => ["cannot open log file " ++ log.text, e.message]
  | endpoint text e => ["bad endpoint " ++ Quoted.encode text ++ ": " ++ e.message]
  | listen target texts => ("failed to listen on " ++ target.render) :: texts
  | neverAttached texts => "controller never attached" :: texts
  | lostController texts => "lost the controller" :: texts

/-- The failure to listen on an endpoint, with the system's own text. -/
def Failure.notListening (target : Endpoint) (text : String) : Failure :=
  .listen target [(LinkError.io text).message, text]

/-- What the program says about a failure. -/
def Failure.message (e : Failure) : String := ": ".intercalate e.messages

/-- The endpoint that was asked for, or else the configured one. -/
def Config.endpointFor (c : Config) (asked : Option String) : Except Failure Endpoint :=
  let text := asked.getD c.endpoint
  match Endpoint.read text with
  | .ok e => .ok e
  | .error e => .error (.endpoint text e)

/-- A task that is ready to run. -/
inductive Job where
  | console (endpoint : Endpoint)
  | demo (endpoint : Endpoint) (frames : Option UInt64)
deriving Repr, DecidableEq, Inhabited

namespace Start

/-- Opens the log that a path names. -/
def openFile (f : Files) (log : Path) : Except Failure Unit × Files :=
  match f.touch log with
  | .error e => (.error (.logFile log e), f)
  | .ok f => (.ok (), f)

/-- Rotates the log that a path names, and opens it. -/
def renew (f : Files) (log : Path) : Except Failure Unit × Files :=
  match Rotation.standard.rotate f log with
  | (.error e, f) => (.error (.rotation log e), f)
  | (.ok _, f) => openFile f log

/-- Makes the directory of a log, rotates the log and opens it. -/
def openLog (f : Files) (log : Path) : Except Failure Unit × Files :=
  match log.parent?.filter fun dir => !dir.text.isEmpty with
  | none => renew f log
  | some dir =>
    match f.makeDirectories dir with
    | (.error e, f) => (.error (.logDirectory dir e), f)
    | (.ok (), f) => renew f log

/-- The filter of the log: the one that was asked for, or else the configured one. -/
def filterFor (c : Config) (asked : Option String) : Except Failure LogFilter :=
  match asked with
  | none => .ok (.ofLevel c.logLevel)
  | some text =>
    match LogFilter.read text with
    | .ok filter => .ok filter
    | .error e => .error (.level e)

/-- The file to log to, if the log goes to a file. -/
def logPath? (e : Environment) (c : Config) (toFile : Bool) : Option Path :=
  match c.logFile with
  | some file => some ⟨file⟩
  | none => if toFile then some e.logFile else none

/-- The job of a task. -/
def jobOf (c : Config) : Task → Except Failure Job
  | .attach endpoint => do return .console (← c.endpointFor endpoint)
  | .demo endpoint frames => do return .demo (← c.endpointFor endpoint) frames

/-- Opens the log and finds the job of a configuration. -/
def withConfig (e : Environment) (f : Files) (a : Arguments) (c : Config) :
    Except Failure (Config × Job) × Files :=
  match filterFor c a.logLevel with
  | .error e => (.error e, f)
  | .ok _ =>
    let opened : Except Failure Unit × Files := match logPath? e c a.logToFile with
      | none => (.ok (), f)
      | some log => openLog f log
    match opened with
    | (.error e, f) => (.error e, f)
    | (.ok (), f) => ((jobOf c a.task).map fun job => (c, job), f)

/-- The directory of the configuration. -/
def configDir? (e : Environment) (a : Arguments) : Option Path :=
  (a.configDir.map Path.mk).or e.configDir?

/-- The files that the configuration may come from. -/
def configFiles (e : Environment) (here : Path) (a : Arguments) : List Path :=
  match configDir? e a with
  | none => []
  | some dir => dir.join Config.fileName :: Config.projectFiles here

/-- The files that opening the log may change. -/
def logFiles (e : Environment) (f : Files) (here : Path) (a : Arguments) : List Path :=
  match (configDir? e a).map fun dir => (Config.load f dir (some here)).1 with
  | some (.ok c) =>
    match logPath? e c a.logToFile with
    | some log => Rotation.standard.files log
    | none => []
  | _ => []

/-- Starts the program in the current directory `here`. -/
def run (e : Environment) (f : Files) (here : Path) (a : Arguments) :
    Except Failure (Config × Job) × Files :=
  match configDir? e a with
  | none => (.error .noConfigDir, f)
  | some dir =>
    match Config.load f dir (some here) with
    | (.error e, f) => (.error (.config dir e), f)
    | (.ok c, f) => withConfig e f a c

end Start

end CallDebugger
