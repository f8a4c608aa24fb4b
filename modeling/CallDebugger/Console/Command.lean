import CallDebugger.Object.Kind
import CallDebugger.Protocol.Message
import CallDebugger.Text.Blank

/-!
# Console commands

A line of the console is a command word and its arguments, parted by blanks. `Command.read` gives
the command, or the reason why there is none. Arguments that a command does not ask for are not
looked at, except where the number of arguments decides what is meant.
-/

namespace CallDebugger

/-- The settings that the console can switch. -/
inductive BreakFlag where
  | error
  | debugOutput
  | compiler
  | debugContext
  | debugContextEs
deriving Repr, DecidableEq, Inhabited

namespace BreakFlag

/-- Every flag, in order. -/
def all : List BreakFlag := [error, debugOutput, compiler, debugContext, debugContextEs]

/-- The name of a flag. -/
def name : BreakFlag → String
  | error => "error"
  | debugOutput => "debug-output"
  | compiler => "compiler"
  | debugContext => "debug-context"
  | debugContextEs => "debug-context-es"

/-- Switches a setting on or off. -/
def apply (flag : BreakFlag) (on : Bool) (s : BreakSettings) : BreakSettings :=
  match flag with
  | error => { s with onError := on }
  | debugOutput => { s with onDebugOutput := on }
  | compiler => { s with onCompilerError := on }
  | debugContext => { s with forceDebugContext := on }
  | debugContextEs => { s with forceDebugContextEs := on }

end BreakFlag

/-- Where the source of an edited shader comes from. -/
inductive ShaderSource where
  /-- The application supplied it. -/
  | supplied
  | file (path : String)
deriving Repr, DecidableEq, Inhabited

/-- A command of the console. -/
inductive Command where
  | goOn
  | step (mode : StepMode)
  | interrupt
  | showBreakpoints
  | setBreakpoints (entrypoints : List Entrypoint)
  | showSettings
  | setFlags (flags : List (BreakFlag × Bool))
  /-- A window of the history; without one, the next page. -/
  | trace (window : Option TraceWindow)
  | watch (kind : ObjectKind) (name : ObjectName)
  | unwatch (id : UInt32)
  | editShader (context : ContextId) (shader : ObjectNumber) (source : ShaderSource)
  | link (context : ContextId) (program : ObjectNumber)
  /-- Connects again, to another endpoint if there is a text. -/
  | connect (endpoint : Option String)
  | terminate
  | disconnect
  | help
  | quit
deriving Repr, Inhabited

/-- Why a line is no command. -/
inductive CommandError where
  | empty
  | unknownCommand (word : String)
  /-- An argument that names nothing of its vocabulary. -/
  | unknownWord (e : UnknownWord)
  | unknownFlag (word : String)
  | notNumber (word : String)
  | notSwitch (word : String)
  /-- An argument without the sign between a flag and its value. -/
  | notAssignment (word : String)
  /-- An argument is missing, or there are too many. -/
  | usage (synopsis : String)
deriving Repr, DecidableEq

/-- The wording of the error. -/
def CommandError.message : CommandError → String
  | empty => "empty command"
  | unknownCommand word => "unknown command: " ++ word ++ " (try help)"
  | unknownWord e => e.message
  | unknownFlag word => "unknown break flag: " ++ word
  | notNumber word => "not a number: " ++ word
  | notSwitch word => "expected on or off, got " ++ word
  | notAssignment word => "expected flag=on|off, got " ++ word
  | usage synopsis => "usage: " ++ synopsis

namespace Command

/-! ## Arguments -/

/-- The value of a numeral below `bound`, decimal or hexadecimal after `0x`. -/
def numeral? (bound : Nat) : List Char → Option Nat
  | '0' :: 'x' :: cs => Numeral.read? 16 bound cs
  | '0' :: 'X' :: cs => Numeral.read? 16 bound cs
  | cs => Numeral.read? 10 bound cs

/-- A number below `bound`. -/
def number (bound : Nat) (word : String) : Except CommandError Nat :=
  match numeral? bound word.toList with
  | some n => .ok n
  | none => .error (.notNumber word)

/-- A number of 32 bits. -/
def number32 (word : String) : Except CommandError UInt32 := do
  return .ofNat (← number UInt32.size word)

/-- A number of 64 bits. -/
def number64 (word : String) : Except CommandError UInt64 := do
  return .ofNat (← number UInt64.size word)

/-- A switch. -/
def switch : String → Except CommandError Bool
  | "on" | "true" | "1" => .ok true
  | "off" | "false" | "0" => .ok false
  | word => .error (.notSwitch word)

/-- A flag. -/
def flag (word : String) : Except CommandError BreakFlag :=
  match BreakFlag.all.find? fun f => f.name == word with
  | some f => .ok f
  | none => .error (.unknownFlag word)

/-- A flag and its value, with an equals sign between them. -/
def assignment (word : String) : Except CommandError (BreakFlag × Bool) := do
  let cs := word.toList
  match cs.dropWhile (· != '=') with
  | [] => throw (.notAssignment word)
  | _ :: value =>
    let f ← flag (String.ofList (cs.takeWhile (· != '=')))
    return (f, ← switch (String.ofList value))

/-- The first argument, and those behind it. -/
def argument (synopsis : String) : List String → Except CommandError (String × List String)
  | [] => .error (.usage synopsis)
  | word :: rest => .ok (word, rest)

/-- A word of a vocabulary. -/
def vocabulary (r : Except UnknownWord α) : Except CommandError α :=
  match r with
  | .ok a => .ok a
  | .error e => .error (.unknownWord e)

/-! ## Commands with arguments -/

/-- The entrypoints of a list; commas part them as blanks do. -/
def entrypoints (args : List String) : Except CommandError (List Entrypoint) :=
  (args.flatMap fun a => Blank.piecesOn (· == ',') a.toList).mapM fun cs =>
    number32 (String.ofList cs)

/-- Shows or replaces the breakpoints. -/
def readBreak : List String → Except CommandError Command
  | [] => .ok .showBreakpoints
  | ["clear"] => .ok (.setBreakpoints [])
  | args => do return .setBreakpoints (← entrypoints args)

/-- Shows or changes the settings. -/
def readSettings : List String → Except CommandError Command
  | [] => .ok .showSettings
  | args => do return .setFlags (← args.mapM assignment)

/-- Goes on for a step, which is a call if nothing else is said. -/
def readStep : List String → Except CommandError Command
  | [] => .ok (.step .call)
  | mode :: _ => do return .step (← vocabulary (StepMode.read mode))

/-- Asks for calls of the history. -/
def readTrace : List String → Except CommandError Command
  | [] => .ok (.trace none)
  | [start, stop] => do return .trace (some ⟨← number64 start, ← number64 stop⟩)
  | _ => .error (.usage "trace [start end]")

/-- Watches an object. -/
def readWatch (args : List String) : Except CommandError Command := do
  let synopsis := "watch <type> <ctx> <name>"
  let (kind, args) ← argument synopsis args
  let kind ← vocabulary (ObjectKind.read kind)
  let (context, args) ← argument synopsis args
  let context ← number64 context
  let (name, _) ← argument synopsis args
  return .watch kind (.plain context (← number32 name))

/-- Ends a watch. -/
def readUnwatch (args : List String) : Except CommandError Command := do
  let (id, _) ← argument "unwatch <id>" args
  return .unwatch (← number32 id)

/-- Edits a shader. -/
def readEditShader (args : List String) : Except CommandError Command := do
  let synopsis := "edit-shader <ctx> <id> <file|--reset>"
  let (context, args) ← argument synopsis args
  let context ← number64 context
  let (shader, args) ← argument synopsis args
  let shader ← number32 shader
  let (source, _) ← argument synopsis args
  return .editShader context shader (if source = "--reset" then .supplied else .file source)

/-- Links a program again. -/
def readLink (args : List String) : Except CommandError Command := do
  let synopsis := "link <ctx> <id>"
  let (context, args) ← argument synopsis args
  let context ← number64 context
  let (program, _) ← argument synopsis args
  return .link context (← number32 program)

/-- The command of a word and its arguments. -/
def ofWords : List String → Except CommandError Command
  | [] => .error .empty
  | head :: args =>
    match head with
    | "continue" | "c" => .ok .goOn
    | "step" | "s" => readStep args
    | "interrupt" | "i" => .ok .interrupt
    | "break" | "b" => readBreak args
    | "config" => readSettings args
    | "trace" | "t" => readTrace args
    | "watch" => readWatch args
    | "unwatch" => readUnwatch args
    | "edit-shader" => readEditShader args
    | "link" => readLink args
    | "connect" => .ok (.connect args.head?)
    | "terminate" => .ok .terminate
    | "disconnect" => .ok .disconnect
    | "help" | "?" => .ok .help
    | "quit" | "q" | "exit" => .ok .quit
    | word => .error (.unknownCommand word)

/-- The command of a line. -/
def read (line : String) : Except CommandError Command :=
  ofWords ((Blank.words line.toList).map String.ofList)

/-- What the console tells about its commands. -/
def helpLines : List String := [
  "commands:",
  "  continue | c                 resume execution",
  "  step [call|draw|frame]       resume until the next call, draw call or frame",
  "  interrupt                    pause a running process",
  "  break [ids...|clear]         show or replace breakpoints (ids comma or space separated)",
  "  config [flag=on|off ...]     show or change break flags:",
  "                               error, debug-output, compiler, debug-context, debug-context-es",
  "  trace [start end]            next page of call history, or an explicit window",
  "  watch <type> <ctx> <name>    refresh an object at every pause",
  "  unwatch <id>                 stop watching",
  "  edit-shader <ctx> <id> <file|--reset>",
  "  link <ctx> <id>              force a program relink",
  "  connect [endpoint]           reconnect",
  "  terminate                    ask the process to exit",
  "  disconnect                   drop the connection",
  "  quit                         leave"]

end Command

end CallDebugger
