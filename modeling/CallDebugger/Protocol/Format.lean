import CallDebugger.Protocol.Codec
import CallDebugger.Protocol.Message

/-!
# The format of messages

The binary format of every record that a message may carry, and of the messages themselves. A record
is its fields in order (`fields`); a value, an errand, a resource or a message is its tag and then
what it carries (`alternatives`).
-/

namespace CallDebugger

namespace Value

/-- The values without what they carry. -/
inductive Kind where
  | int8
  | uint8
  | int16
  | uint16
  | int32
  | uint32
  | int64
  | uint64
  | float32
  | float64
  | pointer
  | function
  | symbol
deriving Repr, DecidableEq

/-- Every kind, in order. -/
def Kind.all : List Kind :=
  [int8, uint8, int16, uint16, int32, uint32, int64, uint64, float32, float64, pointer, function,
    symbol]

/-- What a value of a kind carries. -/
abbrev Kind.Body : Kind → Type
  | int8 => Int8
  | uint8 => UInt8
  | int16 => Int16
  | uint16 => UInt16
  | int32 => Int32
  | uint32 | float32 | symbol => UInt32
  | int64 => Int64
  | uint64 | float64 | pointer | function => UInt64

/-- The format of what a value of a kind carries. -/
def Kind.bodyCodec : (kind : Kind) → Codec kind.Body
  | int8 => .int8
  | uint8 => .uint8
  | int16 => .int16
  | uint16 => .uint16
  | int32 => .int32
  | uint32 | float32 | symbol => .uint32
  | int64 => .int64
  | uint64 | float64 | pointer | function => .uint64

/-- A value as its kind and what it carries. -/
def alternatives : Fields ((kind : Kind) × kind.Body) Value where
  build
    | ⟨.int8, n⟩ => .int8 n
    | ⟨.uint8, n⟩ => .uint8 n
    | ⟨.int16, n⟩ => .int16 n
    | ⟨.uint16, n⟩ => .uint16 n
    | ⟨.int32, n⟩ => .int32 n
    | ⟨.uint32, n⟩ => .uint32 n
    | ⟨.int64, n⟩ => .int64 n
    | ⟨.uint64, n⟩ => .uint64 n
    | ⟨.float32, n⟩ => .float32 n
    | ⟨.float64, n⟩ => .float64 n
    | ⟨.pointer, n⟩ => .pointer n
    | ⟨.function, n⟩ => .function n
    | ⟨.symbol, n⟩ => .symbol n
  parts
    | .int8 n => ⟨.int8, n⟩
    | .uint8 n => ⟨.uint8, n⟩
    | .int16 n => ⟨.int16, n⟩
    | .uint16 n => ⟨.uint16, n⟩
    | .int32 n => ⟨.int32, n⟩
    | .uint32 n => ⟨.uint32, n⟩
    | .int64 n => ⟨.int64, n⟩
    | .uint64 n => ⟨.uint64, n⟩
    | .float32 n => ⟨.float32, n⟩
    | .float64 n => ⟨.float64, n⟩
    | .pointer n => ⟨.pointer, n⟩
    | .function n => ⟨.function, n⟩
    | .symbol n => ⟨.symbol, n⟩

def codec : Codec Value := (Codec.tagged (.variant Kind.all) Kind.bodyCodec).record alternatives

end Value

def Call.fields :
    Fields (Entrypoint × List Value × Option Value × UInt32 × Option String) Call where
  build := fun (entrypoint, args, result, error, debugOutput) =>
    ⟨entrypoint, args, result, error, debugOutput⟩
  parts c := (c.entrypoint, c.args, c.result, c.error, c.debugOutput)

def Call.codec : Codec Call :=
  (Codec.uint32.pair <| Value.codec.list.pair <| Value.codec.option.pair <| Codec.uint32.pair
    Codec.text.option).record fields

def ObjectKind.codec : Codec ObjectKind := .variant ObjectKind.all

def StepMode.codec : Codec StepMode := .variant StepMode.all

def ObjectName.fields : Fields (ContextId × ObjectNumber × UInt32) ObjectName where
  build := fun (context, name, target) => ⟨context, name, target⟩
  parts n := (n.context, n.name, n.target)

def ObjectName.codec : Codec ObjectName :=
  (Codec.uint64.pair <| Codec.uint32.pair .uint32).record fields

/-- The format of a set of names. -/
def NameSet.codec : Codec NameSet := ObjectName.codec.keySet

def ContextReport.fields : Fields (ContextId × NameSet × NameSet × NameSet × NameSet × NameSet ×
    NameSet × NameSet × List NameSet) ContextReport where
  build := fun (id, textures, buffers, shaders, programs, fbos, framebuffers, renderbuffers,
      units) =>
    ⟨id, textures, buffers, shaders, programs, fbos, framebuffers, renderbuffers, units⟩
  parts r := (r.id, r.textures, r.buffers, r.shaders, r.programs, r.fbos, r.framebuffers,
    r.renderbuffers, r.textureUnits)

def ContextReport.codec : Codec ContextReport :=
  (Codec.uint64.pair <| NameSet.codec.pair <| NameSet.codec.pair <| NameSet.codec.pair <|
    NameSet.codec.pair <| NameSet.codec.pair <| NameSet.codec.pair <| NameSet.codec.pair
    NameSet.codec.list).record fields

def PixelRect.fields : Fields
    (UInt32 × UInt32 × UInt32 × UInt32 × UInt32 × UInt32 × UInt32 × Bytes) PixelRect where
  build := fun (width, height, rowBytes, samples, format, dataType, internalFormat, storage) =>
    ⟨width, height, rowBytes, samples, format, dataType, internalFormat, storage⟩
  parts r := (r.width, r.height, r.rowBytes, r.samples, r.format, r.dataType, r.internalFormat,
    r.storage)

def PixelRect.codec : Codec PixelRect :=
  (Codec.uint32.pair <| Codec.uint32.pair <| Codec.uint32.pair <| Codec.uint32.pair <|
    Codec.uint32.pair <| Codec.uint32.pair <| Codec.uint32.pair .bytes).record fields

namespace Readback

/-- What a readback that succeeded, or did not, carries. -/
abbrev Body : Bool → Type
  | true => PixelRect
  | false => String

/-- A readback as whether it succeeded and what it carries. -/
def alternatives : Fields ((ok : Bool) × Body ok) Readback where
  build
    | ⟨true, rect⟩ => .pixels rect
    | ⟨false, reason⟩ => .failed reason
  parts
    | .pixels rect => ⟨true, rect⟩
    | .failed reason => ⟨false, reason⟩

/-- Zero before pixels, one before the reason why there are none. -/
def codec : Codec Readback :=
  (Codec.tagged (.ordinal [true, false] .badResult)
    (fun | true => PixelRect.codec | false => Codec.text : (ok : Bool) → Codec (Body ok))).record
    alternatives

end Readback

def FboAttachment.fields : Fields (UInt32 × Readback) FboAttachment where
  build := fun (point, readback) => ⟨point, readback⟩
  parts a := (a.point, a.readback)

def FboAttachment.codec : Codec FboAttachment := (Codec.uint32.pair Readback.codec).record fields

def Shader.fields : Fields (String × Bool × Bool × String) Shader where
  build := fun (source, deleted, compileOk, compileStatus) =>
    ⟨source, deleted, compileOk, compileStatus⟩
  parts s := (s.source, s.deleted, s.compileOk, s.compileStatus)

def Shader.codec : Codec Shader :=
  (Codec.text.pair <| Codec.bool.pair <| Codec.bool.pair .text).record fields

def Uniform.fields : Fields (String × Int32 × UInt32 × List Value × UInt32) Uniform where
  build := fun (name, location, type, values, rowSize) => ⟨name, location, type, values, rowSize⟩
  parts u := (u.name, u.location, u.type, u.values, u.rowSize)

def Uniform.codec : Codec Uniform :=
  (Codec.text.pair <| Codec.int32.pair <| Codec.uint32.pair <| Value.codec.list.pair
    .uint32).record fields

def Program.fields :
    Fields (Bool × String × List (ObjectNumber × UInt32) × List Uniform) Program where
  build := fun (linkOk, linkStatus, attachedShaders, uniforms) =>
    ⟨linkOk, linkStatus, attachedShaders, uniforms⟩
  parts p := (p.linkOk, p.linkStatus, p.attachedShaders, p.uniforms)

def Program.codec : Codec Program :=
  (Codec.bool.pair <| Codec.text.pair <| (Codec.uint32.pair .uint32).list.pair
    Uniform.codec.list).record fields

def GpuMemory.fields : Fields (Int64 × Int64 × Int64 × Int64 × Int64) GpuMemory where
  build := fun (dedicated, total, current, count, evicted) =>
    ⟨dedicated, total, current, count, evicted⟩
  parts m := (m.dedicatedKb, m.totalAvailableKb, m.currentAvailableKb, m.evictionCount,
    m.evictedKb)

def GpuMemory.codec : Codec GpuMemory :=
  (Codec.int64.pair <| Codec.int64.pair <| Codec.int64.pair <| Codec.int64.pair .int64).record
    fields

def Gpu.fields : Fields (String × String × String × String × Option GpuMemory) Gpu where
  build := fun (renderer, version, vendor, language, memory) =>
    ⟨renderer, version, vendor, language, memory⟩
  parts g := (g.renderer, g.version, g.vendor, g.shadingLanguageVersion, g.memory)

def Gpu.codec : Codec Gpu :=
  (Codec.text.pair <| Codec.text.pair <| Codec.text.pair <| Codec.text.pair
    GpuMemory.codec.option).record fields

def StateItem.fields : Fields (String × List Value) StateItem where
  build := fun (name, values) => ⟨name, values⟩
  parts i := (i.name, i.values)

def StateItem.codec : Codec StateItem := (Codec.text.pair Value.codec.list).record fields

/-- What a resource of a kind carries. -/
abbrev ObjectKind.Body : ObjectKind → Type
  | texture => List (List PixelRect)
  | buffer | benchmark => Bytes
  | framebuffer | renderbuffer => PixelRect
  | fbo => List FboAttachment
  | shader => Shader
  | program => Program
  | gpu => Gpu
  | state => List StateItem
  | backtrace => List String

/-- The format of what a resource of a kind carries. -/
def ObjectKind.bodyCodec : (kind : ObjectKind) → Codec kind.Body
  | texture => PixelRect.codec.list.list
  | buffer | benchmark => .bytes
  | framebuffer | renderbuffer => PixelRect.codec
  | fbo => FboAttachment.codec.list
  | shader => Shader.codec
  | program => Program.codec
  | gpu => Gpu.codec
  | state => StateItem.codec.list
  | backtrace => Codec.text.list

/-- A resource as its kind and what it carries. -/
def Resource.alternatives : Fields ((kind : ObjectKind) × kind.Body) Resource where
  build
    | ⟨.texture, faces⟩ => .texture faces
    | ⟨.buffer, data⟩ => .buffer data
    | ⟨.framebuffer, rect⟩ => .framebuffer rect
    | ⟨.fbo, attachments⟩ => .fbo attachments
    | ⟨.renderbuffer, rect⟩ => .renderbuffer rect
    | ⟨.shader, s⟩ => .shader s
    | ⟨.program, p⟩ => .program p
    | ⟨.gpu, g⟩ => .gpu g
    | ⟨.state, items⟩ => .state items
    | ⟨.backtrace, frames⟩ => .backtrace frames
    | ⟨.benchmark, data⟩ => .benchmark data
  parts
    | .texture faces => ⟨.texture, faces⟩
    | .buffer data => ⟨.buffer, data⟩
    | .framebuffer rect => ⟨.framebuffer, rect⟩
    | .fbo attachments => ⟨.fbo, attachments⟩
    | .renderbuffer rect => ⟨.renderbuffer, rect⟩
    | .shader s => ⟨.shader, s⟩
    | .program p => ⟨.program, p⟩
    | .gpu g => ⟨.gpu, g⟩
    | .state items => ⟨.state, items⟩
    | .backtrace frames => ⟨.backtrace, frames⟩
    | .benchmark data => ⟨.benchmark, data⟩

def Resource.codec : Codec Resource :=
  (Codec.tagged (.keyword ObjectKind.all ObjectKind.tag) ObjectKind.bodyCodec).record alternatives

def ShaderEdit.fields : Fields (ContextId × ObjectNumber × Bool × Option String) ShaderEdit where
  build := fun (context, shader, reset, source) => ⟨context, shader, reset, source⟩
  parts e := (e.context, e.shader, e.reset, e.source)

def ShaderEdit.codec : Codec ShaderEdit :=
  (Codec.uint64.pair <| Codec.uint32.pair <| Codec.bool.pair Codec.text.option).record fields

/-- What an errand of a kind carries. -/
abbrev Errand.Kind.Body : Errand.Kind → Type
  | query => ObjectKind × ObjectName
  | editShader => ShaderEdit
  | relink => ContextId × ObjectNumber

/-- The format of what an errand of a kind carries. -/
def Errand.Kind.bodyCodec : (kind : Errand.Kind) → Codec kind.Body
  | query => ObjectKind.codec.pair ObjectName.codec
  | editShader => ShaderEdit.codec
  | relink => Codec.uint64.pair .uint32

/-- An errand as its kind and what it carries. -/
def Errand.alternatives : Fields ((kind : Errand.Kind) × kind.Body) Errand where
  build
    | ⟨.query, kind, name⟩ => .query kind name
    | ⟨.editShader, edit⟩ => .editShader edit
    | ⟨.relink, context, program⟩ => .relink context program
  parts
    | .query kind name => ⟨.query, kind, name⟩
    | .editShader edit => ⟨.editShader, edit⟩
    | .relink context program => ⟨.relink, context, program⟩

def Errand.codec : Codec Errand :=
  (Codec.tagged (.keyword Kind.all Kind.tag) Kind.bodyCodec).record alternatives

def BreakSettings.fields : Fields (Bool × Bool × Bool × Bool × Bool) BreakSettings where
  build := fun (error, debugOutput, compiler, context, contextEs) =>
    ⟨error, debugOutput, compiler, context, contextEs⟩
  parts s := (s.onError, s.onDebugOutput, s.onCompilerError, s.forceDebugContext,
    s.forceDebugContextEs)

def BreakSettings.codec : Codec BreakSettings :=
  (Codec.bool.pair <| Codec.bool.pair <| Codec.bool.pair <| Codec.bool.pair .bool).record fields

def Pause.fields : Fields (Call × UInt64 × ContextId × List ContextReport) Pause where
  build := fun (call, traceSize, context, reports) => ⟨call, traceSize, context, reports⟩
  parts p := (p.call, p.traceSize, p.context, p.reports)

def Pause.codec : Codec Pause :=
  (Call.codec.pair <| Codec.uint64.pair <| Codec.uint64.pair ContextReport.codec.list).record
    fields

def Proceed.fields : Fields (Bool × Option StepMode) Proceed where
  build := fun (interrupt, step) => ⟨interrupt, step⟩
  parts p := (p.interrupt, p.step)

def Proceed.codec : Codec Proceed := (Codec.bool.pair StepMode.codec.option).record fields

def TraceWindow.fields : Fields (UInt64 × UInt64) TraceWindow where
  build := fun (start, stop) => ⟨start, stop⟩
  parts w := (w.start, w.stop)

def TraceWindow.codec : Codec TraceWindow := (Codec.uint64.pair .uint64).record fields

def TracePage.fields : Fields (UInt64 × List Call) TracePage where
  build := fun (start, records) => ⟨start, records⟩
  parts p := (p.start, p.records)

def TracePage.codec : Codec TracePage := (Codec.uint64.pair Call.codec.list).record fields

def Request.fields : Fields (UInt64 × Errand) Request where
  build := fun (id, errand) => ⟨id, errand⟩
  parts r := (r.id, r.errand)

def Request.codec : Codec Request := (Codec.uint64.pair Errand.codec).record fields

def Reply.fields : Fields (UInt64 × Bool × Option String × Option Resource) Reply where
  build := fun (id, ok, error, resource) => ⟨id, ok, error, resource⟩
  parts r := (r.id, r.ok, r.error, r.resource)

def Reply.codec : Codec Reply :=
  (Codec.uint64.pair <| Codec.bool.pair <| Codec.text.option.pair Resource.codec.option).record
    fields

/-- What a message of a kind carries. -/
abbrev Message.Kind.Body : Message.Kind → Type
  | hello => String
  | configuration => BreakSettings
  | paused => Pause
  | proceed => Proceed
  | terminate => Unit
  | queryTrace => TraceWindow
  | trace => TracePage
  | request => Request
  | reply => Reply
  | breakpoints => KeySet Entrypoint

/-- The format of what a message of a kind carries. -/
def Message.Kind.bodyCodec : (kind : Message.Kind) → Codec kind.Body
  | hello => .text
  | configuration => BreakSettings.codec
  | paused => Pause.codec
  | proceed => Proceed.codec
  | terminate => .unit
  | queryTrace => TraceWindow.codec
  | trace => TracePage.codec
  | request => Request.codec
  | reply => Reply.codec
  | breakpoints => Codec.uint32.keySet

/-- A message as its kind and what it carries. -/
def Message.alternatives : Fields ((kind : Message.Kind) × kind.Body) Message where
  build
    | ⟨.hello, name⟩ => .hello name
    | ⟨.configuration, settings⟩ => .configuration settings
    | ⟨.paused, pause⟩ => .paused pause
    | ⟨.proceed, how⟩ => .proceed how
    | ⟨.terminate, _⟩ => .terminate
    | ⟨.queryTrace, window⟩ => .queryTrace window
    | ⟨.trace, page⟩ => .trace page
    | ⟨.request, r⟩ => .request r
    | ⟨.reply, r⟩ => .reply r
    | ⟨.breakpoints, entrypoints⟩ => .breakpoints entrypoints
  parts
    | .hello name => ⟨.hello, name⟩
    | .configuration settings => ⟨.configuration, settings⟩
    | .paused pause => ⟨.paused, pause⟩
    | .proceed how => ⟨.proceed, how⟩
    | .terminate => ⟨.terminate, ()⟩
    | .queryTrace window => ⟨.queryTrace, window⟩
    | .trace page => ⟨.trace, page⟩
    | .request r => ⟨.request, r⟩
    | .reply r => ⟨.reply, r⟩
    | .breakpoints entrypoints => ⟨.breakpoints, entrypoints⟩

def Message.codec : Codec Message :=
  (Codec.tagged (.keyword Kind.all Kind.tag) Kind.bodyCodec).record alternatives

end CallDebugger
