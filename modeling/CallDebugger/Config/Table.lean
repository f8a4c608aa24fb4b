import CallDebugger.Config.Basic
import CallDebugger.Toml.Value

/-!
# Configurations as tables

`Config.ofTable?` reads a configuration from a table and `Config.toTable?` writes one. What a table
leaves out has its standard value, and keys that are no setting say nothing. A section may also be
an array that gives its settings in order. A table that was read from one document and one that was
put together from layers are read with slightly different strictness, which `Reading` tells.
-/

namespace CallDebugger

/-- How strictly a table is read. -/
structure Reading where
  /-- A date or a time stands for its text; otherwise for a table without settings. -/
  momentIsText : Bool
  /-- A section that is an array has no items beyond its settings. -/
  exactArrays : Bool
deriving Repr, DecidableEq

namespace Reading

/-- The table of one document. -/
def document : Reading := ⟨false, false⟩

/-- A table that was put together from layers. -/
def layered : Reading := ⟨true, true⟩

/-- A text. -/
def text? (r : Reading) : Toml → Option String
  | .string s => some s
  | .moment s => if r.momentIsText then some s else none
  | _ => none

/-- What a section says about the settings of the given names: by name in a table, in order in an
array, nothing if it is missing. -/
def parts? (r : Reading) (names : List String) : Option Toml → Option (List (Option Toml))
  | none => some (names.map fun _ => none)
  | some (.table _ t) => some (names.map fun name => t.lookup name)
  | some (.moment _) => if r.momentIsText then none else some (names.map fun _ => none)
  | some v =>
    v.items?.bind fun items =>
      if r.exactArrays && names.length < items.length then none
      else some (names.zipIdx.map fun (_, i) => items[i]?)

end Reading

/-- A truth value. -/
def Toml.bool? : Toml → Option Bool
  | .boolean b => some b
  | _ => none

/-- An integer from zero up to, not including, a bound. -/
def Toml.below? (bound : Nat) : Toml → Option Nat
  | .integer n => if 0 ≤ n && n < bound then some n.toNat else none
  | _ => none

/-- An unsigned integer of 64 bits. -/
def Toml.uint64? (v : Toml) : Option UInt64 := (v.below? UInt64.size).map UInt64.ofNat

/-- A list of entrypoints. -/
def Toml.entrypoints? (v : Toml) : Option (List Entrypoint) :=
  v.items?.bind fun items => items.mapM fun v => (v.below? UInt32.size).map UInt32.ofNat

/-- A log level: its name, or a table whose only key is its name and has nothing in it. -/
def Toml.level? : Toml → Option LogLevel
  | .string s => LogLevel.ofName? s
  | .table _ [(name, .array _ [])] => LogLevel.ofName? name
  | .table _ [(name, .table _ [])] => LogLevel.ofName? name
  | _ => none

/-- The value of a setting, which is the standard one if the setting is missing. -/
def orStandard (standard : α) (read? : Toml → Option α) : Option Toml → Option α
  | none => some standard
  | some v => read? v

namespace Config

/-- The keys of the sections and of their settings. -/
def connectionKeys : List String := ["endpoint", "tick_interval_ms"]

@[inherit_doc connectionKeys] def breaksKeys : List String :=
  ["break_on_error", "break_on_debug_output", "break_on_compiler_error", "force_debug_context",
    "force_debug_context_es"]

@[inherit_doc connectionKeys] def logKeys : List String := ["level", "file"]

/-- The place of the traced process and the tick. -/
def connectionOf? (r : Reading) (v : Option Toml) : Option (String × UInt64) := do
  let [endpoint, tick] ← r.parts? connectionKeys v | none
  return (← orStandard standard.endpoint r.text? endpoint,
    ← orStandard standard.tick Toml.uint64? tick)

/-- When the traced process pauses by itself. -/
def breaksOf? (r : Reading) (v : Option Toml) : Option BreakSettings := do
  let [onError, onDebugOutput, onCompilerError, forced, forcedEs] ← r.parts? breaksKeys v | none
  return {
    onError := ← orStandard standard.breaks.onError Toml.bool? onError
    onDebugOutput := ← orStandard standard.breaks.onDebugOutput Toml.bool? onDebugOutput
    onCompilerError := ← orStandard standard.breaks.onCompilerError Toml.bool? onCompilerError
    forceDebugContext := ← orStandard standard.breaks.forceDebugContext Toml.bool? forced
    forceDebugContextEs := ← orStandard standard.breaks.forceDebugContextEs Toml.bool? forcedEs }

/-- A section with one number. -/
def numberOf? (r : Reading) (name : String) (standard : UInt64) (v : Option Toml) :
    Option UInt64 := do
  let [n] ← r.parts? [name] v | none
  orStandard standard Toml.uint64? n

/-- What is logged, and where. -/
def logOf? (r : Reading) (v : Option Toml) : Option (LogLevel × Option String) := do
  let [level, file] ← r.parts? logKeys v | none
  return (← orStandard standard.logLevel Toml.level? level,
    ← orStandard none (fun v => (r.text? v).map some) file)

/-- The configuration that a table gives; `none` if a value does not fit its setting. -/
def ofTable? (r : Reading) (t : Toml.Table) : Option Config := do
  let breakpoints ← orStandard [] Toml.entrypoints? (t.lookup "breakpoints")
  let (endpoint, tick) ← connectionOf? r (t.lookup "connection")
  let breaks ← breaksOf? r (t.lookup "breaks")
  let pageSize ← numberOf? r "page_size" standard.pageSize (t.lookup "trace")
  let historyLength ← numberOf? r "history_len" standard.historyLength (t.lookup "peer")
  let (logLevel, logFile) ← logOf? r (t.lookup "log")
  return { breakpoints, endpoint, tick, breaks, pageSize, historyLength, logLevel, logFile }

/-- A number as a value; `none` if it is too large for one. -/
def numberValue? (n : UInt64) : Option Toml :=
  if (n.toNat : Int) < Toml.integerBound then some (.integer n.toNat) else none

/-- The table of a section. -/
def sectionOf (entries : Toml.Table) : Toml := .table .header entries

/-- The table of a configuration; `none` if a number is too large for one. -/
def toTable? (c : Config) : Option Toml.Table := do
  let tick ← numberValue? c.tick
  let pageSize ← numberValue? c.pageSize
  let historyLength ← numberValue? c.historyLength
  return [
    ("breakpoints", .array false (c.breakpoints.map fun e => .integer e.toNat)),
    ("connection", sectionOf [("endpoint", .string c.endpoint), ("tick_interval_ms", tick)]),
    ("breaks", sectionOf [("break_on_error", .boolean c.breaks.onError),
      ("break_on_debug_output", .boolean c.breaks.onDebugOutput),
      ("break_on_compiler_error", .boolean c.breaks.onCompilerError),
      ("force_debug_context", .boolean c.breaks.forceDebugContext),
      ("force_debug_context_es", .boolean c.breaks.forceDebugContextEs)]),
    ("trace", sectionOf [("page_size", pageSize)]),
    ("peer", sectionOf [("history_len", historyLength)]),
    ("log", sectionOf ([("level", .string c.logLevel.name)] ++
      (c.logFile.map fun file => ("file", Toml.string file)).toList))]

end Config

end CallDebugger
