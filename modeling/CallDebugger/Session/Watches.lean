import CallDebugger.Session.Requests

/-!
# Watches

A watch is a standing interest in one object. All watches are queried whenever the traced process
pauses; each has a group of requests of its own, so two watches on one object do not disturb each
other.
-/

namespace CallDebugger

/-- What is to be done with a reply. `ι` names those who asked. -/
inductive Callback (ι : Type) where
  /-- Hand the reply to the one who asked. -/
  | reply (label : ι)
  /-- Hand the snapshot to a watch on an object of the given kind. -/
  | snapshot (kind : ObjectKind) (label : ι)

/-- The number of a watch. -/
abbrev WatchId := Nat

/-- A standing interest in one object. -/
structure Watch (ι : Type) where
  id : WatchId
  name : ObjectName
  kind : ObjectKind
  handler : HandlerId
  label : ι

/-- The watches in the order in which they were made. -/
structure Watches (ι : Type) where
  lastId : WatchId
  live : List (Watch ι)

namespace Watches

variable {ι : Type}

/-- Nothing is watched. -/
def empty : Watches ι := ⟨0, []⟩

instance : Inhabited (Watches ι) := ⟨empty⟩

/-- A new watch. Nothing is sent for it yet. -/
def subscribe (w : Watches ι) (requests : Requests (Callback ι)) (name : ObjectName)
    (kind : ObjectKind) (label : ι) : WatchId × Watches ι × Requests (Callback ι) :=
  let id := w.lastId + 1
  let (handler, requests) := requests.register
  (id, ⟨id, w.live ++ [⟨id, name, kind, handler, label⟩]⟩, requests)

/-- The watch of a number. -/
def find? (w : Watches ι) (id : WatchId) : Option (Watch ι) := w.live.find? fun s => s.id == id

/-- Ends a watch and forgets its requests; tells whether there was one. -/
def unsubscribe (w : Watches ι) (requests : Requests (Callback ι)) (id : WatchId) :
    Bool × Watches ι × Requests (Callback ι) :=
  match w.find? id with
  | none => (false, w, requests)
  | some s =>
    (true, { w with live := w.live.filter fun t => t.id != id }, (requests.unregister s.handler).2)

/-- Queries the given watches one by one, up to the first query that the link refuses. -/
def query : List (Watch ι) → Requests (Callback ι) → Link →
    Except LinkError Unit × Requests (Callback ι) × Link
  | [], requests, link => (.ok (), requests, link)
  | s :: rest, requests, link =>
    match requests.issue link s.handler (.query s.kind s.name) (.snapshot s.kind s.label) with
    | (.error e, requests, link) => (.error e, requests, link)
    | (.ok _, requests, link) => query rest requests link

/-- Queries every watch; tells how many. -/
def refresh (w : Watches ι) (requests : Requests (Callback ι)) (link : Link) :
    Except LinkError Nat × Requests (Callback ι) × Link :=
  match query w.live requests link with
  | (.error e, requests, link) => (.error e, requests, link)
  | (.ok (), requests, link) => (.ok w.live.length, requests, link)

end Watches

/-- What a watch is told when a reply brings no snapshot. -/
def emptyReply : String := "reply carried no resource"

/-- The snapshot of an object of the given kind that a reply brings, or what is wrong with it. -/
def Reply.snapshot (r : Reply) (kind : ObjectKind) : Except String Resource :=
  match r.result with
  | .error reason => .error reason
  | .ok none => .error emptyReply
  | .ok (some resource) =>
    if resource.kind = kind then .ok resource
    else .error ("expected a " ++ kind.name ++ " snapshot, got " ++ resource.kind.name)

end CallDebugger
