import CallDebugger.Console.Summary
import CallDebugger.Session.Controller

/-!
# What the console prints

The lines for the notices of a session. Those about watches and errands name who asked.
-/

namespace CallDebugger

/-- Who asked for a reply. -/
inductive Asker where
  /-- A watch of the console. -/
  | watch (id : Nat) (title : String)
  /-- A single errand. -/
  | errand (title : String)
deriving Repr, DecidableEq, Inhabited

/-- A number at the end of a column of the given width. -/
def column (width n : Nat) : String :=
  let digits := toString n
  "".pushn ' ' (width - digits.length) ++ digits

namespace TracePage

/-- The offsets of the records of a page, the oldest record first: the last record is the one at the
start of the page. -/
def offsets (p : TracePage) : List Nat :=
  (List.range p.records.length).reverse.map fun i => p.start.toNat + i

/-- The lines for a page of the history. -/
def lines (p : TracePage) : List String :=
  if p.records.isEmpty then ["(no calls at offset " ++ toString p.start.toNat ++ ")"]
  else (p.offsets.zip p.records).map fun (n, c) => column 8 n ++ "  " ++ c.render

end TracePage

/-- The line for a pause. -/
def Pause.line (p : Pause) : String :=
  "break before " ++ p.call.render ++ " (history " ++ toString p.traceSize.toNat ++ ", context " ++
    Numeral.hexWithBase p.context.toNat ++ ")"

namespace Asker

/-- What stands in front of a line about the asker. -/
def label : Asker → String
  | watch id title => "watch #" ++ toString id ++ " " ++ title
  | errand title => title

/-- The line for a reply. -/
def replyLine (a : Asker) (r : Reply) : String :=
  match r.result with
  | .ok _ => a.label ++ ": ok"
  | .error reason => a.label ++ ": " ++ reason

end Asker

/-- The lines for a notice. -/
def Notice.lines : Notice Asker → List String
  | .status text => ["-- " ++ text]
  | .connected processName => ["attached to " ++ processName]
  | .breaked pause => [pause.line]
  | .trace page => page.lines
  | .disconnected reason => ["disconnected: " ++ reason]
  | .sendingStarted => []
  | .sendingStopped => []
  | .reply asker r => [asker.replyLine r]
  | .update asker resource => [asker.label ++ ": " ++ resource.summary]
  | .refused asker reason => [asker.label ++ ": error: " ++ reason]

end CallDebugger
