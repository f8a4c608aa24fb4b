import CallDebugger.Config.Basic
import CallDebugger.Text.Blank
import CallDebugger.Text.Quoted

/-!
# Log filters

What is logged at most. A filter is named by a word, without regard to ASCII case, or by a number
from 0 for nothing to 5 for everything; the empty text stands for errors.
-/

namespace CallDebugger

/-- What is logged at most. -/
inductive LogFilter where
  | off
  | error
  | warn
  | info
  | debug
  | trace
deriving Repr, DecidableEq, Inhabited

/-- A text that names no filter. -/
structure UnknownLevel where
  text : String
deriving Repr, DecidableEq

/-- The wording of the error. -/
def UnknownLevel.message (e : UnknownLevel) : String :=
  "unknown log level " ++ Quoted.encode e.text ++
    " (expected trace, debug, info, warn, error or off)"

namespace LogFilter

/-- Every filter, in the order of the numbers. -/
def all : List LogFilter := [off, error, warn, info, debug, trace]

/-- The name of a filter. -/
def name : LogFilter → String
  | off => "off"
  | error => "error"
  | warn => "warn"
  | info => "info"
  | debug => "debug"
  | trace => "trace"

/-- The filter of a level. -/
def ofLevel : LogLevel → LogFilter
  | .trace => trace
  | .debug => debug
  | .info => info
  | .warn => warn
  | .error => error

/-- The filter that a text without blanks at its ends names. -/
def ofChars? (cs : List Char) : Option LogFilter :=
  match (Numeral.read? 10 UInt64.size cs).bind fun n => all[n]? with
  | some filter => some filter
  | none =>
    if cs.isEmpty then some error
    else all.find? fun filter => filter.name == (String.ofList cs).toLower

/-- The filter that a text names, blanks at its ends apart. -/
def read (text : String) : Except UnknownLevel LogFilter :=
  match ofChars? (Blank.trim text.toList) with
  | some filter => .ok filter
  | none => .error ⟨text⟩

end LogFilter

end CallDebugger
