import CallDebugger.Protocol.Message

/-!
# Configuration

What a user can set: where the traced process is, when it pauses by itself, how its history is
shown and kept, and what is logged.
-/

namespace CallDebugger

/-- How much is logged. -/
inductive LogLevel where
  | trace
  | debug
  | info
  | warn
  | error
deriving Repr, DecidableEq, Inhabited

namespace LogLevel

/-- Every level, the most talkative one first. -/
def all : List LogLevel := [trace, debug, info, warn, error]

/-- The name of a level. -/
def name : LogLevel → String
  | trace => "trace"
  | debug => "debug"
  | info => "info"
  | warn => "warn"
  | error => "error"

/-- The level of a name. -/
def ofName? (name : String) : Option LogLevel := all.find? fun level => level.name == name

end LogLevel

/-- A configuration. -/
structure Config where
  /-- The entrypoints to pause before from the first pause on. -/
  breakpoints : List Entrypoint
  /-- Where the traced process is. -/
  endpoint : String
  /-- How often the console looks for events, in milliseconds. -/
  tick : UInt64
  breaks : BreakSettings
  /-- How many calls a page of the history shows. -/
  pageSize : UInt64
  /-- How many calls a traced process keeps. -/
  historyLength : UInt64
  logLevel : LogLevel
  /-- The file that is logged to. -/
  logFile : Option String
deriving Repr, DecidableEq

/-- What holds where nothing else is said. -/
def Config.standard : Config where
  breakpoints := []
  endpoint := "127.0.0.1:5555"
  tick := 10
  breaks := .standard
  pageSize := 100
  historyLength := 1000
  logLevel := .info
  logFile := none

instance : Inhabited Config := ⟨.standard⟩

end CallDebugger
