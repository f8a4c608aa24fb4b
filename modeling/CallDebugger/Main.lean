import CallDebugger.Program.Disk
import CallDebugger.Program.Performance
import CallDebugger.Program.Wire

/-!
# The program

Runs what the command line asks for with the disk, the terminal and the network. Everything is
decided elsewhere: here bytes are carried in and out and lines are read and printed.
-/

namespace CallDebugger

/-- Prints lines. -/
def printLines (lines : List String) : IO Unit := do
  let out ← IO.getStdout
  for line in lines do
    out.putStrLn line
  out.flush

/-- The environment of the program. -/
def readEnvironment : IO Environment := do
  return {
    configHome := ← IO.getEnv "XDG_CONFIG_HOME"
    dataHome := ← IO.getEnv "XDG_DATA_HOME"
    home := ← IO.getEnv "HOME"
    accountHome := none
    temporary := ← IO.getEnv "TMPDIR" }

/-- Starts the program on the disk. -/
def startOnDisk (here : Path) (words : List String) : IO (Except Ending (Config × Job)) := do
  let e ← readEnvironment
  match Arguments.read words with
  | .error fault => return .error fault.ending
  | .ok a =>
    let files ← Disk.seeAll here (Start.configFiles e here a)
    let files ← (Start.logFiles e files here a).foldlM Disk.see files
    let (r, after) := prepare e files here words
    Disk.store files after
    return r

/-! ## The console -/

/-- A console, the wire of its newest link, and the line that is awaited. -/
structure Terminal where
  console : Console
  wire : Wire
  /-- How many links had been dialed when the wire was made. -/
  dialed : Nat
  line : Std.Async.AsyncTask String

namespace Terminal

/-- Awaits a line. -/
def awaitLine : IO (Std.Async.AsyncTask String) := do
  let input ← IO.getStdin
  IO.asTask input.getLine .dedicated

/-- A link whose messages a wire carries. -/
def wiredLink (_ : Endpoint) : Link := .fresh Link.upVerdict

/-- Prints what the console has to print. -/
def showPrinted (t : Terminal) : IO Terminal := do
  printLines (t.console.printed.flatMap Printed.lines)
  return { t with console := { t.console with printed := [] } }

/-- Gives a new link a wire of its own, and takes it from a link that is gone. -/
def rewire (t : Terminal) : IO Terminal := do
  if t.console.session.link.isNone then return { t with wire := ← t.wire.close }
  if t.console.dialed = t.dialed then return t
  discard t.wire.close
  let (wire, events) ← Wire.dial t.console.endpoint
  return { t with wire, dialed := t.console.dialed, console := t.console.arrive events }

/-- What has come up on the wire reaches the console, and what the console has sent is written. -/
def exchange (t : Terminal) : IO Terminal := do
  let t ← t.rewire
  let (wire, events) ← t.wire.poll
  let (wire, failed) ← wire.flush t.console.sent
  let (_, console) := (t.console.arrive (events ++ failed)).pump
  let (wire, failed) ← wire.flush console.sent
  showPrinted { t with wire, console := console.arrive failed }

/-- Carries out a line. -/
def carryOut (t : Terminal) (here : Path) (line : String) : IO (Flow × Terminal) := do
  let files ← Disk.seeAll here (Console.fileOf? line).toList
  let (flow, console) := t.console.runLine files wiredLink line
  return (flow, ← showPrinted { t with console })

/-- Ends the console. -/
def leave (t : Terminal) : IO Unit := do
  let console := t.console.withSession t.console.session.disconnect
  let t ← showPrinted { t with console }
  discard t.wire.close

/-- Runs the console until it is told to quit or there are no more lines. -/
partial def run (t : Terminal) (here : Path) (tick : UInt32) : IO Unit := do
  let t ← t.exchange
  if ← IO.hasFinished t.line then
    match t.line.get with
    | .error _ => t.leave
    | .ok "" => t.leave
    | .ok line =>
      match ← t.carryOut here line with
      | (.quit, t) => t.leave
      | (.goOn, t) => run { (← t.exchange) with line := ← awaitLine } here tick
  else
    IO.sleep tick
    run t here tick

/-- Attaches a console to an endpoint and runs it. -/
def start (here : Path) (c : Config) (endpoint : Endpoint) : IO Unit := do
  let console := (Console.new c endpoint).attach wiredLink
  run ⟨console, .broken, 0, ← awaitLine⟩ here c.tick.toUInt32

end Terminal

/-! ## The demonstration -/

/-- How many milliseconds pass after an act of the demonstration. -/
def actPause : UInt32 := 16

/-- Runs the demonstration until it comes to its end. -/
partial def Performer.run (d : Performer) (wire : Wire) : IO Ending := do
  let (wire, events) ← wire.poll
  let d := d.arrive events
  let act := d.play.act
  let d := { d with play := d.play.step }
  let (wire, failed) ← wire.flush d.sent
  let d := d.arrive failed
  if d.play.ended.isSome then
    discard wire.close
    return d.ending
  IO.sleep (if d.play.act = act then 1 else actPause)
  d.run wire

/-- Listens on an endpoint and runs the demonstration there. -/
def runDemo (c : Config) (endpoint : Endpoint) (frames : Option UInt64) : IO Ending := do
  let listened ← try
      Except.ok <$> Wire.listen endpoint
    catch e => pure (.error (Failure.notListening endpoint (Wire.reasonOf e)))
  match listened with
  | .error e => return e.ending []
  | .ok (wire, bound) =>
    let d := Performer.listening c bound frames
    printLines (d.ending.out)
    let ending ← d.run wire
    return { ending with out := ending.out.drop d.ending.out.length }

/-! ## Endings -/

/-- Tells how the program ended. -/
def tellEnding (e : Ending) : IO UInt32 := do
  printLines e.out
  let err ← IO.getStderr
  for text in e.complaints do
    err.putStrLn ("tracedbg: " ++ text)
  return UInt32.ofNat e.code

/-- Tells why a command line asks for nothing that can be done. -/
def tellFault (e : ArgumentError) : IO UInt32 := do
  if e = .displayHelp then printLines Arguments.usageLines
  else if e ≠ .displayVersion then
    let err ← IO.getStderr
    err.putStrLn ("error: " ++ e.message)
    for line in Arguments.usageLines do
      err.putStrLn line
  tellEnding e.ending

/-- Does what the command line asks for, and gives the exit code. -/
def runProgram (words : List String) : IO UInt32 := do
  if let .error fault := Arguments.read words then return ← tellFault fault
  let here : Path := ⟨(← IO.currentDir).toString⟩
  match ← startOnDisk here words with
  | .error e => tellEnding e
  | .ok (c, .console endpoint) => do
    Terminal.start here c endpoint
    return 0
  | .ok (c, .demo endpoint frames) => do
    tellEnding (← runDemo c endpoint frames)

end CallDebugger

/-- The program. -/
def main (words : List String) : IO UInt32 := CallDebugger.runProgram words
