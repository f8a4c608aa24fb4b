import CallDebugger.Config.Basic
import CallDebugger.Console.Command
import CallDebugger.Console.Printer
import CallDebugger.Files.Tree

/-!
# The console

A `Console` carries out commands on a session and prints what comes of them. Pages of the history
follow one another until the process pauses with a history of another length; watches are numbered
from 1, with words that go round. Everything printed is kept in `printed`, the notices of the
session among it.
-/

namespace CallDebugger

/-- Something printed. -/
inductive Printed where
  | notice (n : Notice Asker)
  | line (text : String)

/-- The lines of something printed. -/
def Printed.lines : Printed → List String
  | notice n => n.lines
  | line text => [text]

/-- Whether the console goes on. -/
inductive Flow where
  | goOn
  | quit
deriving Repr, DecidableEq, Inhabited

/-- A console. -/
structure Console where
  session : Session Asker
  /-- Where to connect if nothing else is said. -/
  endpoint : Endpoint
  pageSize : UInt64
  /-- Where the next page of the history starts. -/
  cursor : UInt64
  /-- How long the history was when the first of these pages was asked for. -/
  cursorBreak : Option UInt64
  /-- The group of the console's own errands. -/
  handler : HandlerId
  /-- The numbers of the watches, and what the session calls them. -/
  watches : List (UInt32 × WatchId)
  nextWatch : UInt32
  printed : List Printed

namespace Console

/-- Prints a line. -/
def print (c : Console) (text : String) : Console :=
  { c with printed := c.printed ++ [.line text] }

/-- Goes on with a session; what it has told is printed. -/
def withSession (c : Console) (s : Session Asker) : Console :=
  { c with session := { s with log := [] }, printed := c.printed ++ s.log.map .notice }

/-- A console that has not connected. -/
def new (config : Config) (endpoint : Endpoint) : Console :=
  let (_, session) := Session.new.setBreakpoints config.breakpoints
  let (_, session) := session.configure config.breaks
  let (handler, session) := session.register
  { session, endpoint, pageSize := config.pageSize, cursor := 0, cursorBreak := none, handler,
    watches := [], nextWatch := 1, printed := [] }

/-- How many links the console has dialed. -/
def dialed (c : Console) : Nat :=
  c.session.retired.length + if c.session.link.isSome then 1 else 0

/-- The messages that the console has sent on its link. -/
def sent (c : Console) : List Message :=
  match c.session.link with
  | none => []
  | some link => link.sent

/-- Lets events arrive on the link. -/
def arrive (c : Console) (events : List LinkEvent) : Console :=
  { c with session := { c.session with link := c.session.link.map fun l => l.push events } }

/-- Handles what has arrived on the link; tells how many events. -/
def pump (c : Console) : Nat × Console :=
  let (count, session) := c.session.pump
  (count, c.withSession session)

/-- Moves on to the next page of the history. -/
def nextPage (c : Console) : TraceWindow × Console :=
  let size := c.session.lastBreak.map (·.traceSize)
  let start := if size = c.cursorBreak then c.cursor else 0
  (⟨start, start + c.pageSize⟩, { c with cursorBreak := size, cursor := start + c.pageSize })

/-- What comes of a command. -/
abbrev Outcome := Except SessionError Flow × Console

/-- Goes on after a command on the session. -/
def after (c : Console) (r : Except SessionError α × Session Asker) : Outcome :=
  (r.1.map fun _ => .goOn, c.withSession r.2)

/-- Goes on. -/
def done (c : Console) : Outcome := (.ok .goOn, c)

/-- Asks for calls of the history. -/
def trace (c : Console) (window : Option TraceWindow) : Outcome :=
  match window with
  | some window => c.after (c.session.queryTrace window)
  | none =>
    let (window, c) := c.nextPage
    c.after (c.session.queryTrace window)

/-- Puts the row of a watch where its number belongs, in place of a row that has the number. -/
def enroll (rows : List (UInt32 × WatchId)) (id : UInt32) (watch : WatchId) :
    List (UInt32 × WatchId) :=
  rows.filter (fun w => w.1 < id) ++ (id, watch) :: rows.filter fun w => id < w.1

/-- Watches an object. -/
def watch (c : Console) (kind : ObjectKind) (name : ObjectName) : Outcome :=
  let id := c.nextWatch
  let asker := Asker.watch id.toNat (kind.name ++ " " ++ name.render)
  let (watch, session) := c.session.subscribe name kind asker
  let c := c.withSession session
  ({ c with nextWatch := id + 1, watches := enroll c.watches id watch }.print
    ("watch #" ++ toString id.toNat ++ " refreshes at the next pause")).done

/-- Ends a watch. -/
def unwatch (c : Console) (id : UInt32) : Outcome :=
  match c.watches.lookup id with
  | none => (c.print ("no watch #" ++ toString id.toNat)).done
  | some watch =>
    let c := { c with watches := c.watches.filter fun w => w.1 != id }
    (c.withSession (c.session.unsubscribe watch).2).done

/-- Sends an errand of the console itself. -/
def send (c : Console) (title : String) (errand : Errand) : Outcome :=
  c.after (c.session.request c.handler errand (.errand title))

/-- Edits a shader. -/
def editShader (c : Console) (files : Files) (context : ContextId) (shader : ObjectNumber)
    (source : ShaderSource) : Outcome :=
  let title := "edit shader " ++ toString shader.toNat
  match source with
  | .supplied => c.send title (.editShader ⟨context, shader, true, none⟩)
  | .file path =>
    match files.read ⟨path⟩ with
    | .error e => (c.print ("cannot read " ++ path ++ ": " ++ e.message)).done
    | .ok text => c.send title (.editShader ⟨context, shader, false, some text⟩)

/-- Connects to the endpoint over the link that `dial` gives. -/
def attach (c : Console) (dial : Endpoint → Link) : Console :=
  c.withSession (c.session.connect c.endpoint (dial c.endpoint))

/-- Connects again. -/
def connect (c : Console) (dial : Endpoint → Link) (endpoint : Option String) : Outcome :=
  match endpoint with
  | none => (c.attach dial).done
  | some text =>
    match Endpoint.read text with
    | .error e => (c.print e.message).done
    | .ok endpoint => ({ c with endpoint }.attach dial).done

/-- The line for the breakpoints. -/
def breakpointsLine (s : Breakpoints) : String :=
  if s.isEmpty then "no breakpoints"
  else "breakpoints: " ++ ", ".intercalate (s.items.map fun e => toString e.toNat)

/-- The line for the settings. -/
def settingsLine (s : BreakSettings) : String :=
  "BreakConfiguration \x7b break_on_error: " ++ toString s.onError ++
    ", break_on_debug_output: " ++ toString s.onDebugOutput ++
    ", break_on_compiler_error: " ++ toString s.onCompilerError ++
    ", force_debug_context: " ++ toString s.forceDebugContext ++
    ", force_debug_context_es: " ++ toString s.forceDebugContextEs ++ " \x7d"

/-- Carries out a command. `files` are those that the console sees, and `dial` gives the link to an
endpoint. -/
def execute (c : Console) (files : Files) (dial : Endpoint → Link) : Command → Outcome
  | .goOn => c.after c.session.goOn
  | .step mode => c.after (c.session.step mode)
  | .interrupt => c.after c.session.interrupt
  | .showBreakpoints => (c.print (breakpointsLine c.session.breakpoints)).done
  | .setBreakpoints entrypoints => c.after (c.session.setBreakpoints entrypoints)
  | .showSettings => (c.print (settingsLine c.session.settings)).done
  | .setFlags flags =>
    c.after (c.session.configure (flags.foldl (fun s (f, on) => f.apply on s) c.session.settings))
  | .trace window => c.trace window
  | .watch kind name => c.watch kind name
  | .unwatch id => c.unwatch id
  | .editShader context shader source => c.editShader files context shader source
  | .link context program =>
    c.send ("link program " ++ toString program.toNat) (.relink context program)
  | .connect endpoint => c.connect dial endpoint
  | .terminate => c.after c.session.terminate
  | .disconnect => (c.withSession c.session.disconnect).done
  | .help => (Command.helpLines.foldl print c).done
  | .quit => (.ok .quit, c)

/-- The file that a line asks for. -/
def fileOf? (line : String) : Option Path :=
  match Command.read line with
  | .ok (.editShader _ _ (.file path)) => some ⟨path⟩
  | _ => none

/-- Carries out a line; what is wrong with it is printed. A blank line does nothing. -/
def runLine (c : Console) (files : Files) (dial : Endpoint → Link) (line : String) :
    Flow × Console :=
  if (Blank.trim line.toList).isEmpty then (.goOn, c)
  else
    match Command.read line with
    | .error e => (.goOn, c.print e.message)
    | .ok command =>
      match c.execute files dial command with
      | (.ok flow, c) => (flow, c)
      | (.error e, c) => (.goOn, c.print ("error: " ++ e.message))

end Console

end CallDebugger
