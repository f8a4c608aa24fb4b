import CallDebugger.Object.Kind
import CallDebugger.Object.Name
import CallDebugger.Text.Utf8
import CallDebugger.Trace.Value

/-!
# Resources

A `Resource` is the snapshot of one object. Pixels stay raw: their format and type are codes that
are passed on and never read.
-/

namespace CallDebugger

/-- A rectangle of raw pixels. -/
structure PixelRect where
  width : UInt32
  height : UInt32
  rowBytes : UInt32
  samples : UInt32
  format : UInt32
  dataType : UInt32
  internalFormat : UInt32
  storage : Bytes
deriving Repr, BEq, Inhabited

/-- Pixel storage whose size is not what the geometry asks for. -/
structure StorageMismatch where
  expected : Nat
  actual : Nat
deriving Repr, DecidableEq, Inhabited

namespace PixelRect

/-- The rectangle, if its storage holds `rowBytes` for each row. -/
def check (r : PixelRect) : Except StorageMismatch PixelRect :=
  let expected := r.height.toNat * r.rowBytes.toNat
  if r.storage.length = expected then .ok r else .error ⟨expected, r.storage.length⟩

end PixelRect

/-- What an attachment point of a framebuffer object shows. -/
inductive Readback where
  | pixels (rect : PixelRect)
  /-- The pixels could not be read back. -/
  | failed (reason : String)
deriving Repr, BEq, Inhabited

/-- One attachment point of a framebuffer object. -/
structure FboAttachment where
  point : UInt32
  readback : Readback
deriving Repr, BEq, Inhabited

/-- A shader with its source and what its compiler said. -/
structure Shader where
  source : String
  deleted : Bool
  compileOk : Bool
  compileStatus : String
deriving Repr, BEq, Inhabited

/-- One active uniform of a linked program. -/
structure Uniform where
  name : String
  location : Int32
  type : UInt32
  values : List Value
  /-- How many values make a row. -/
  rowSize : UInt32
deriving Repr, BEq, Inhabited

/-- A program with what its linker said. -/
structure Program where
  linkOk : Bool
  linkStatus : String
  /-- The number and the type of each attached shader. -/
  attachedShaders : List (ObjectNumber × UInt32)
  uniforms : List Uniform
deriving Repr, BEq, Inhabited

/-- Counters of video memory. -/
structure GpuMemory where
  dedicatedKb : Int64
  totalAvailableKb : Int64
  currentAvailableKb : Int64
  evictionCount : Int64
  evictedKb : Int64
deriving Repr, BEq, Inhabited

/-- The graphics processor and its driver. -/
structure Gpu where
  renderer : String
  version : String
  vendor : String
  shadingLanguageVersion : String
  memory : Option GpuMemory
deriving Repr, BEq, Inhabited

/-- One item of the state of a context. -/
structure StateItem where
  name : String
  values : List Value
deriving Repr, BEq, Inhabited

/-- The snapshot of one object. -/
inductive Resource where
  /-- The mip levels of each face. -/
  | texture (faces : List (List PixelRect))
  | buffer (data : Bytes)
  | framebuffer (rect : PixelRect)
  | fbo (attachments : List FboAttachment)
  | renderbuffer (rect : PixelRect)
  | shader (shader : Shader)
  | program (program : Program)
  | gpu (gpu : Gpu)
  | state (items : List StateItem)
  /-- The innermost frame comes first. -/
  | backtrace (frames : List String)
  | benchmark (data : Bytes)
deriving Repr, BEq, Inhabited

namespace Resource

/-- The kind of object that a resource is a snapshot of. -/
def kind : Resource → ObjectKind
  | texture _ => .texture
  | buffer _ => .buffer
  | framebuffer _ => .framebuffer
  | fbo _ => .fbo
  | renderbuffer _ => .renderbuffer
  | shader _ => .shader
  | program _ => .program
  | gpu _ => .gpu
  | state _ => .state
  | backtrace _ => .backtrace
  | benchmark _ => .benchmark

end Resource

end CallDebugger
