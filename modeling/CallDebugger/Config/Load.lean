import CallDebugger.Config.Check
import CallDebugger.Config.Layer
import CallDebugger.Files.Tree

/-!
# Loading configurations

The effective configuration is the standard one, under the file of the configuration directory,
under the nearest file of a project. The first is written, all in comments, when it is missing. Only
what comes out in the end is checked.
-/

namespace CallDebugger

/-- Why there is no configuration. -/
inductive ConfigError where
  | notFound (path : Path)
  | read (path : Path) (e : FileError)
  | write (path : Path) (e : FileError)
  /-- A text is no TOML or does not fit; `origin` tells which one. -/
  | parse (origin : String)
  | invalid (violation : Violation)
deriving Repr, DecidableEq

/-- The wordings of a configuration error, from the outermost cause to the innermost. The wording of
a text that does not parse is left to `detail`. -/
def ConfigError.messages (detail : String) : ConfigError → List String
  | notFound path => ["no config file at " ++ path.text]
  | read path e => ["cannot read " ++ path.text ++ ": " ++ e.message, e.message]
  | write path e => ["cannot write " ++ path.text ++ ": " ++ e.message, e.message]
  | parse origin => [origin ++ ": " ++ detail]
  | invalid v => [v.message]

namespace Config

/-- The name of every file that holds a configuration. -/
def fileName : Path := ⟨"config.toml"⟩

/-- The directory that holds the file of a project. -/
def projectDirectory : Path := ⟨".tracedbg"⟩

/-- The lines that a missing file is written with. -/
def commentedLines : List String := [
  "# tracedbg configuration",
  "# Every setting below shows its default; uncomment to change it.",
  "",
  "# Entrypoint ids to break on from the first pause.",
  "# breakpoints = []",
  "",
  "# [connection]",
  "# endpoint = \"127.0.0.1:5555\"",
  "# tick_interval_ms = 10",
  "",
  "# [breaks]",
  "# break_on_error = true",
  "# break_on_debug_output = true",
  "# break_on_compiler_error = true",
  "# force_debug_context = false",
  "# force_debug_context_es = false",
  "",
  "# [trace]",
  "# page_size = 100",
  "",
  "# [peer]",
  "# history_len = 1000",
  "",
  "# [log]",
  "# level = \"info\"",
  "# file = \"/tmp/tracedbg.log\""]

/-- What a missing file is written with. -/
def commented : String := String.join (commentedLines.map (· ++ "\n"))

/-- A configuration in which nothing is wrong. -/
def checked (c : Config) : Except ConfigError Config :=
  match c.violations with
  | [] => .ok c
  | v :: _ => .error (.invalid v)

/-- The configuration of one document, which says everything that is not standard. -/
def ofText (origin text : String) : Except ConfigError Config :=
  match (Toml.read? text).bind (ofTable? .document) with
  | none => .error (.parse origin)
  | some c => c.checked

/-- What the origin of a text without a file is called. -/
def textOrigin : String := "<string>"

/-- What the origin of a layer without a file is called. -/
def layerOrigin : String := "overlay"

/-- What the origin is called when the configuration under a layer is at fault. -/
def baseOrigin : String := "defaults"

/-- Lays a text over a configuration. -/
def mergeFrom (origin : String) (base : Config) (text : String) : Except ConfigError Config :=
  match base.merge text with
  | .ok c => .ok c
  | .error .layer => .error (.parse origin)
  | .error .base => .error (.parse baseOrigin)

/-- Reads a file. -/
def readFile (f : Files) (p : Path) : Except ConfigError String :=
  match f.read p with
  | .ok text => .ok text
  | .error e => .error (.read p e)

/-- The configuration of one file. -/
def ofFile (f : Files) (p : Path) : Except ConfigError Config :=
  if f.hasFile p then
    match readFile f p with
    | .error e => .error e
    | .ok text => ofText p.text text
  else .error (.notFound p)

/-- Whether every line is empty or a comment, blanks apart. -/
def isBlankText (text : String) : Bool :=
  (Blank.lines text.toList).all fun line =>
    match Blank.trim line with
    | [] => true
    | c :: _ => c = '#'

/-- The file of the configuration directory, which is written if nothing is there. -/
def ensureFile (f : Files) (dir : Path) : Except ConfigError Path × Files :=
  let path := dir.join fileName
  if f.has path then (.ok path, f)
  else
    match f.makeDirectories dir with
    | (.error e, f) => (.error (.write path e), f)
    | (.ok (), f) =>
      match f.write path commented with
      | .error e => (.error (.write path e), f)
      | .ok f => (.ok path, f)

/-- The files of the projects that a directory may belong to, the nearest first. -/
def projectFiles (start : Path) : List Path :=
  start.ancestors.map fun dir => (dir.join projectDirectory).join fileName

/-- The file of the nearest project at or above a directory. -/
def projectFile? (f : Files) (start : Path) : Option Path := (projectFiles start).find? f.hasFile

/-- Lays the files of a list over a configuration, one after the other. -/
def layer (f : Files) (c : Config) : List Path → Except ConfigError Config
  | [] => .ok c
  | p :: rest =>
    match readFile f p with
    | .error e => .error e
    | .ok text =>
      if isBlankText text then layer f c rest
      else
        match mergeFrom p.text c text with
        | .error e => .error e
        | .ok c => layer f c rest

/-- The effective configuration, and the files as they are afterwards. -/
def load (f : Files) (dir : Path) (project : Option Path) : Except ConfigError Config × Files :=
  match ensureFile f dir with
  | (.error e, f) => (.error e, f)
  | (.ok path, f) =>
    let paths := path :: (project.bind (projectFile? f)).toList
    match layer f standard paths with
    | .error e => (.error e, f)
    | .ok c => (c.checked, f)

end Config

end CallDebugger
