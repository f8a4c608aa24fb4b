import CallDebugger.Text.Numeral

/-!
# Arguments of the program

The words of a command line name a task and its options. Options may stand before the task and
behind it; where both give one, the one behind the task holds. A value is looked at only when the
word after it shows that it is complete, and the options before the task after all those behind it:
this decides which of two mistakes is told.
-/

namespace CallDebugger

/-- What the program is asked to do. -/
inductive Task where
  /-- Runs the console, attached to a traced process. -/
  | attach (endpoint : Option String)
  /-- Runs the traced process of the demonstration, for a number of frames if there is one. -/
  | demo (endpoint : Option String) (frames : Option UInt64)
deriving Repr, DecidableEq, Inhabited

/-- A command line. -/
structure Arguments where
  /-- The directory of the configuration. -/
  configDir : Option String
  /-- The log level to use in place of the configured one. -/
  logLevel : Option String
  /-- Logs to a file also if none is configured. -/
  logToFile : Bool
  task : Task
deriving Repr, DecidableEq, Inhabited

/-- Why a command line asks for nothing that can be done. -/
inductive ArgumentError where
  | displayHelp
  | displayVersion
  /-- There is nothing at all. -/
  | displayHelpOnMissing
  | missingTask
  | unknownTask
  | unknownArgument
  /-- A value is missing, or empty where it must not be. -/
  | invalidValue
  /-- A value is no number. -/
  | badNumber
  /-- A switch has a value. -/
  | tooManyValues
  /-- An option is given twice. -/
  | givenTwice
deriving Repr, DecidableEq, Inhabited

/-- The exit code after the error. -/
def ArgumentError.exitCode : ArgumentError → Nat
  | displayHelp => 0
  | displayVersion => 0
  | _ => 2

namespace Arguments

/-- The parts of a command line that take options. -/
inductive Scope where
  /-- The words before the task. -/
  | start
  | attach
  | demo
deriving Repr, DecidableEq

/-- What a word may be or set. -/
inductive Parameter where
  | configDir
  | logLevel
  | logToFile
  | frames
  | endpoint
  | help
  | version
deriving Repr, DecidableEq

/-- The options of a scope by name. -/
def Scope.option? (s : Scope) (name : String) : Option Parameter :=
  match name with
  | "config-dir" => some .configDir
  | "log-level" => some .logLevel
  | "log-to-file" => some .logToFile
  | "help" => some .help
  | "version" => if s = .start then some .version else none
  | "frames" => if s = .demo then some .frames else none
  | _ => none

/-- The options of a scope by letter. -/
def Scope.letter? (s : Scope) (c : Char) : Option Parameter :=
  if c = 'h' then some .help
  else if c = 'V' && s = .start then some .version
  else none

/-- Whether an option has a value. -/
def Parameter.hasValue : Parameter → Bool
  | configDir | logLevel | frames | endpoint => true
  | logToFile | help | version => false

/-- The scope of a task by name. -/
def task? : String → Option Scope
  | "attach" => some .attach
  | "demo-peer" => some .demo
  | _ => none

/-- The word that asks for help about a task. -/
def helpWord : String := "help"

/-- The words of a scope as far as they were read. -/
structure State where
  /-- What was given, with its value. -/
  given : List (Parameter × String)
  /-- An option whose value may still come or was not looked at. -/
  pending : Option (Parameter × Option String)
  /-- Only values follow. -/
  onlyValues : Bool

/-- No word was read. -/
def State.empty : State := ⟨[], none, false⟩

/-- Whether the next word is the value of an option. -/
def State.awaits (s : State) : Bool :=
  match s.pending with
  | some (_, none) => true
  | _ => false

/-- What is wrong with a value. -/
def fault? (o : Parameter) (value : String) : Option ArgumentError :=
  match o with
  | .configDir => if value.isEmpty then some .invalidValue else none
  | .frames => if (Numeral.read? 10 UInt64.size value.toList).isNone then some .badNumber else none
  | _ => none

/-- Takes an option with its value. -/
def State.take (s : State) (o : Parameter) (value : String) : Except ArgumentError State :=
  if (s.given.lookup o).isSome then .error .givenTwice
  else
    match fault? o value with
    | some e => .error e
    | none => .ok { s with given := s.given ++ [(o, value)] }

/-- Takes the option that is pending. -/
def State.settle (s : State) : Except ArgumentError State :=
  match s.pending with
  | none => .ok s
  | some (_, none) => .error .invalidValue
  | some (o, some value) => { s with pending := none }.take o value

/-- Takes an option without a value. -/
def State.switchOn (s : State) (o : Parameter) : Except ArgumentError State := do
  let s ← s.settle
  match o with
  | .help => throw .displayHelp
  | .version => throw .displayVersion
  | o => s.take o ""

/-- Takes an option by name, with the value that is attached to it. -/
def State.long (scope : Scope) (s : State) (name : String) (value : Option String) :
    Except ArgumentError State :=
  match scope.option? name with
  | none => .error .unknownArgument
  | some o =>
    if o.hasValue then
      match value with
      | some value => do (← s.settle).take o value
      | none => do return { (← s.settle) with pending := some (o, none) }
    else if value.isSome then .error .tooManyValues
    else s.switchOn o

/-- Takes options by their letters. -/
def State.letters (scope : Scope) (s : State) : List Char → Except ArgumentError State
  | [] => .ok s
  | c :: cs =>
    match scope.letter? c with
    | none => .error .unknownArgument
    | some o => do (← s.switchOn o).letters scope cs

/-- Takes a word that is no option. The first one behind a task is its endpoint. -/
def State.value (scope : Scope) (s : State) (word : String) : Except ArgumentError State :=
  match s.pending with
  | some (o, none) =>
    if s.onlyValues then
      if scope = .start || hasEndpoint then unplaced else .error .invalidValue
    else .ok { s with pending := some (o, some word) }
  | _ =>
    if scope = .start || hasEndpoint then unplaced
    else do return { (← s.settle) with pending := some (.endpoint, some word) }
where
  /-- Whether the endpoint was given already. -/
  hasEndpoint : Bool :=
    (s.given.lookup .endpoint).isSome || s.pending.any fun p => p.1 = .endpoint
  /-- The error for a word that has no place. -/
  unplaced : Except ArgumentError State :=
    if scope = .start && !(s.onlyValues && ((task? word).isSome || word = helpWord)) then
      .error .unknownTask
    else .error .unknownArgument

/-- Cuts an option at its first equals sign. -/
def cutValue (cs : List Char) : String × Option String :=
  let name := String.ofList (cs.takeWhile (· != '='))
  match cs.dropWhile (· != '=') with
  | [] => (name, none)
  | _ :: value => (name, some (String.ofList value))

/-- Takes one word. -/
def State.word (scope : Scope) (s : State) (word : String) : Except ArgumentError State :=
  if s.onlyValues then s.value scope word
  else
    match word.toList with
    | ['-', '-'] => .ok { s with onlyValues := true }
    | '-' :: '-' :: cs => let (name, value) := cutValue cs; s.long scope name value
    | '-' :: c :: cs => s.letters scope (c :: cs)
    | _ => s.value scope word

/-- What the words behind the one that asks for help come to. -/
def helpError : List String → ArgumentError
  | [] => .displayHelp
  | [word] => if (task? word).isSome || word = helpWord then .displayHelp else .unknownTask
  | _ => .unknownTask

/-- Reads the words of a scope that has no scopes in it. -/
def readAll (scope : Scope) (s : State) (words : List String) : Except ArgumentError State := do
  (← words.foldlM (State.word scope) s).settle

/-- Reads the words up to the task; gives the task with the words behind it. -/
def readStart (s : State) : List String →
    Except ArgumentError (State × Option (Scope × List String))
  | [] => .ok (s, none)
  | word :: rest =>
    if s.onlyValues || s.awaits then do readStart (← s.word .start word) rest
    else
      match task? word with
      | some scope => .ok (s, some (scope, rest))
      | none =>
        if word = helpWord then .error (helpError rest)
        else do readStart (← s.word .start word) rest

/-- The value of an option: the one behind the task, or else the one before it. -/
def value? (before behind : State) (o : Parameter) : Option String :=
  behind.given.lookup o <|> before.given.lookup o

/-- The task of a scope. -/
def taskOf (scope : Scope) (s : State) : Task :=
  let endpoint := s.given.lookup .endpoint
  match scope with
  | .demo =>
    .demo endpoint (((s.given.lookup .frames).bind fun v =>
      Numeral.read? 10 UInt64.size v.toList).map UInt64.ofNat)
  | _ => .attach endpoint

/-- What a command line asks for. -/
def read (words : List String) : Except ArgumentError Arguments := do
  let (before, task) ← readStart .empty words
  match task with
  | none =>
    let before ← before.settle
    throw (if before.given.isEmpty then .displayHelpOnMissing else .missingTask)
  | some (scope, rest) =>
    let behind ← readAll scope .empty rest
    let before ← before.settle
    return {
      configDir := value? before behind .configDir
      logLevel := value? before behind .logLevel
      logToFile := (value? before behind .logToFile).isSome
      task := taskOf scope behind }

end Arguments

end CallDebugger
