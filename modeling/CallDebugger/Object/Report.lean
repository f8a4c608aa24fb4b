import CallDebugger.Object.Kind
import CallDebugger.Object.Name

/-!
# Context reports

A `ContextReport` lists the objects that exist in one context: a set of names for each kind that
has such a space, and the textures bound to each texture unit.
-/

namespace CallDebugger

/-- The objects of one context. -/
structure ContextReport where
  id : ContextId
  textures : NameSet
  buffers : NameSet
  shaders : NameSet
  programs : NameSet
  fbos : NameSet
  framebuffers : NameSet
  renderbuffers : NameSet
  /-- The bound textures of each texture unit. -/
  textureUnits : List NameSet
deriving BEq, Inhabited

namespace ContextReport

/-- The report of a context without objects. -/
def empty (id : ContextId) : ContextReport :=
  ⟨id, .empty, .empty, .empty, .empty, .empty, .empty, .empty, []⟩

/-- The names of one kind; `none` for a kind without a space. -/
def space? (r : ContextReport) : ObjectKind → Option NameSet
  | .texture => some r.textures
  | .buffer => some r.buffers
  | .shader => some r.shaders
  | .program => some r.programs
  | .fbo => some r.fbos
  | .framebuffer => some r.framebuffers
  | .renderbuffer => some r.renderbuffers
  | .gpu | .state | .backtrace | .benchmark => none

/-- Replaces the names of one kind; a kind without a space changes nothing. -/
def setSpace (r : ContextReport) (names : NameSet) : ObjectKind → ContextReport
  | .texture => { r with textures := names }
  | .buffer => { r with buffers := names }
  | .shader => { r with shaders := names }
  | .program => { r with programs := names }
  | .fbo => { r with fbos := names }
  | .framebuffer => { r with framebuffers := names }
  | .renderbuffer => { r with renderbuffers := names }
  | .gpu | .state | .backtrace | .benchmark => r

/-- Adds a name to the space of a kind: whether it was new, and the report; `none` if there is no
such space. -/
def insert? (r : ContextReport) (kind : ObjectKind) (name : ObjectName) :
    Option (Bool × ContextReport) :=
  (r.space? kind).map fun names => (!names.contains name, r.setSpace (names.insert name) kind)

/-- Removes a name from the space of a kind: whether it was there, and the report; `none` if there
is no such space. -/
def erase? (r : ContextReport) (kind : ObjectKind) (name : ObjectName) :
    Option (Bool × ContextReport) :=
  (r.space? kind).map fun names => (names.contains name, r.setSpace (names.erase name) kind)

end ContextReport

end CallDebugger
