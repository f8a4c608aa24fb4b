import CallDebugger.Protocol.Message

/-!
# Inspectors

An `Inspector` is what a debug server asks about the process that it serves: its objects, their
snapshots, and what its calls are. It works on a state of its own, of type `σ`. Refusals are texts
that go to the controller as they are.
-/

namespace CallDebugger

/-- Answers about a traced process whose objects are in a state of type `σ`. -/
structure Inspector (σ : Type) where
  processName : σ → String
  /-- The context of the calling thread, zero if there is none. -/
  currentContext : σ → ContextId
  contextReports : σ → List ContextReport
  query : ObjectKind → ObjectName → σ → Except String Resource × σ
  editShader : ShaderEdit → σ → Except String Unit × σ
  relink : ContextId → ObjectNumber → σ → Except String Unit × σ
  draws : σ → Entrypoint → Bool
  endsFrame : σ → Entrypoint → Bool

namespace Inspector

variable {σ : Type}

/-- Runs an errand. -/
def run (i : Inspector σ) (errand : Errand) (s : σ) : Except String (Option Resource) × σ :=
  match errand with
  | .query kind name => let (r, s) := i.query kind name s; (r.map some, s)
  | .editShader edit => let (r, s) := i.editShader edit s; (r.map fun _ => none, s)
  | .relink context program => let (r, s) := i.relink context program s; (r.map fun _ => none, s)

/-- The reply to a request. -/
def answer (i : Inspector σ) (request : Request) (s : σ) : Reply × σ :=
  match i.run request.errand s with
  | (.ok resource, s) => (.success request.id resource, s)
  | (.error reason, s) => (.failure request.id reason, s)

end Inspector

/-- An object with its snapshot. -/
structure Exhibit where
  kind : ObjectKind
  name : ObjectName
  resource : Resource
deriving Inhabited

/-- A process whose answers are fixed beforehand. -/
structure Exhibition where
  processName : String
  currentContext : ContextId
  reports : List ContextReport
  exhibits : List Exhibit
  /-- The text by which every edit is refused. -/
  editRefusal : Option String
  /-- The text by which every relink is refused. -/
  relinkRefusal : Option String
  drawCalls : List Entrypoint
  frameEnds : List Entrypoint
deriving Inhabited

namespace Exhibition

/-- The snapshot of the first exhibit of a kind and number, in whatever context. -/
def query (e : Exhibition) (kind : ObjectKind) (name : ObjectName) : Except String Resource :=
  match e.exhibits.find? fun x => x.kind == kind && x.name.name == name.name with
  | some x => .ok x.resource
  | none => .error ("no " ++ kind.name ++ " " ++ name.render ++ " here")

/-- Refuses if there is a text to refuse by. -/
def refusal : Option String → Except String Unit
  | some reason => .error reason
  | none => .ok ()

/-- The inspector of an exhibition, which never changes. -/
def inspector : Inspector Exhibition where
  processName e := e.processName
  currentContext e := e.currentContext
  contextReports e := e.reports
  query kind name e := (e.query kind name, e)
  editShader _ e := (refusal e.editRefusal, e)
  relink _ _ e := (refusal e.relinkRefusal, e)
  draws e entrypoint := e.drawCalls.contains entrypoint
  endsFrame e entrypoint := e.frameEnds.contains entrypoint

end Exhibition

end CallDebugger
