import CallDebugger.Traced.Inspector

/-!
# The demonstration scene

A made-up traced process to try a controller on: one context with a texture, a buffer, two shaders
and a program, an inspector for them, and the calls that it makes.
-/

namespace CallDebugger.Demo

/-! ## The calls -/

def clear : Entrypoint := 1
def useProgram : Entrypoint := 2
def bindBuffer : Entrypoint := 3
def drawArrays : Entrypoint := 4
def getError : Entrypoint := 5
def swapBuffers : Entrypoint := 6
def linkProgram : Entrypoint := 7
def attachShader : Entrypoint := 8

/-- The only context. -/
def context : ContextId := 1

/-- The number of the program. -/
def program : ObjectNumber := 3

def vertexShader : ObjectNumber := 1
def fragmentShader : ObjectNumber := 2

/-- The number of the vertex buffer. -/
def vertexBuffer : ObjectNumber := 1

/-- The number of the texture. -/
def texture : ObjectNumber := 1

/-- The code of a format of four colour channels. -/
def rgba : UInt32 := 0x1908

/-- The calls before the first frame. The first link comes too early and fails. -/
def setupCalls : List Call :=
  let attach (shader : ObjectNumber) := Call.start attachShader [.uint32 program, .uint32 shader]
  let link := Call.start linkProgram [.uint32 program]
  [attach vertexShader, link, attach fragmentShader, link]

/-- The calls of a frame. -/
def frameCalls : List Call :=
  [.start clear [.symbol 0x4000],
    .start useProgram [.uint32 program],
    .start bindBuffer [.symbol 0x8892, .uint32 vertexBuffer],
    .start drawArrays [.symbol 0x0004, .int32 0, .int32 3],
    .start getError [],
    .start swapBuffers []]

/-- The shaders attached so far. -/
abbrev Linker := List ObjectNumber

namespace Linker

/-- Follows a call. It is `false` for a link that fails, as one does unless both shaders are
attached. -/
def apply (attached : Linker) (c : Call) : Bool × Linker :=
  if c.entrypoint = attachShader then
    match c.args with
    | [_, .uint32 shader] => (true, shader :: attached)
    | _ => (true, attached)
  else if c.entrypoint = linkProgram then
    (attached.contains vertexShader && attached.contains fragmentShader, attached)
  else (true, attached)

end Linker

/-! ## The objects -/

/-- The source of a shader, and the one that the application supplied. -/
structure ShaderText where
  supplied : String
  current : String
deriving Repr, DecidableEq, Inhabited

/-- The objects of the scene, as far as they change. -/
structure Scene where
  vertex : ShaderText
  fragment : ShaderText
  linked : Bool
deriving Repr, DecidableEq, Inhabited

namespace Scene

def vertexSource : String :=
  "attribute vec2 pos;\nvoid main() \x7b\n    gl_Position = vec4(pos, 0.0, 1.0);\n\x7d\n"

def fragmentSource : String :=
  "uniform vec4 tint;\nvoid main() \x7b\n    gl_FragColor = tint;\n\x7d\n"

/-- The scene as the application made it. -/
def start : Scene := ⟨⟨vertexSource, vertexSource⟩, ⟨fragmentSource, fragmentSource⟩, true⟩

/-- The shader of a number. -/
def shader? (s : Scene) (number : ObjectNumber) : Option ShaderText :=
  if number = vertexShader then some s.vertex
  else if number = fragmentShader then some s.fragment
  else none

/-- Replaces the shader of a number. -/
def setShader (s : Scene) (number : ObjectNumber) (source : ShaderText) : Scene :=
  if number = vertexShader then { s with vertex := source }
  else if number = fragmentShader then { s with fragment := source }
  else s

/-- A square of one colour. -/
def level (size : UInt32) : PixelRect :=
  { width := size, height := size, rowBytes := size * 4, samples := 1, format := rgba,
    dataType := 0x1401, internalFormat := rgba,
    storage := (List.replicate (size * size).toNat [0x40, 0x80, 0xc0, 0xff]).flatten }

/-- The six coordinates of a triangle as 32-bit floating-point words, the lowest byte first. -/
def triangle : Bytes :=
  [0, 0, 0, 0xBF, 0, 0, 0, 0xBF, 0, 0, 0, 0x3F, 0, 0, 0, 0xBF, 0, 0, 0, 0, 0, 0, 0, 0x3F]

/-- The snapshot of the program. -/
def programSnapshot (s : Scene) : Program :=
  { linkOk := s.linked
    linkStatus := if s.linked then "" else "shaders changed since last link"
    attachedShaders := [(vertexShader, 0x8B31), (fragmentShader, 0x8B30)]
    uniforms := [{
      name := "tint", location := 0, type := 0x1406, rowSize := 4
      values := [.float32 0x3F800000, .float32 0x3F000000, .float32 0, .float32 0x3F800000] }] }

/-- The snapshot of the state of the context. -/
def stateSnapshot : List StateItem :=
  [⟨"GL_CURRENT_PROGRAM", [.uint32 program]⟩,
    ⟨"GL_ARRAY_BUFFER_BINDING", [.uint32 vertexBuffer]⟩,
    ⟨"GL_VIEWPORT", [.int32 0, .int32 0, .int32 640, .int32 480]⟩]

/-- The snapshot of the graphics processor. -/
def gpuSnapshot : Gpu :=
  ⟨"tracedbg synthetic renderer", "2.1 tracedbg", "tracedbg", "1.20", none⟩

/-- Says that there is no object of a kind and number. -/
def missing (kind : ObjectKind) (number : ObjectNumber) : String :=
  "no " ++ kind.name ++ " " ++ toString number.toNat ++ " in context " ++
    Numeral.hexWithBase context.toNat

/-- The snapshot of an object of the context. -/
def snapshot (s : Scene) (kind : ObjectKind) (number : ObjectNumber) : Except String Resource :=
  match kind with
  | .texture =>
    if number = texture then .ok (.texture [[level 4, level 2, level 1]])
    else .error (missing kind number)
  | .buffer =>
    if number = vertexBuffer then .ok (.buffer triangle) else .error (missing kind number)
  | .shader =>
    match s.shader? number with
    | some source => .ok (.shader ⟨source.current, false, true, ""⟩)
    | none => .error (missing kind number)
  | .program =>
    if number = program then .ok (.program s.programSnapshot) else .error (missing kind number)
  | .state => .ok (.state stateSnapshot)
  | .gpu => .ok (.gpu gpuSnapshot)
  | .framebuffer | .fbo | .renderbuffer | .backtrace | .benchmark => .error (missing kind number)

/-- The snapshot of an object. -/
def query (s : Scene) (kind : ObjectKind) (name : ObjectName) : Except String Resource :=
  if name.context = context then s.snapshot kind name.name
  else .error ("no context " ++ Numeral.hexWithBase name.context.toNat)

/-- Edits a shader, after which the program has to be linked again. -/
def editShader (s : Scene) (edit : ShaderEdit) : Except String Unit × Scene :=
  match s.shader? edit.shader with
  | none => (.error ("no shader " ++ toString edit.shader.toNat), s)
  | some source =>
    let update (text : String) : Scene :=
      { s.setShader edit.shader { source with current := text } with linked := false }
    if edit.reset then (.ok (), update source.supplied)
    else
      match edit.source with
      | some text => (.ok (), update text)
      | none => (.error "edit carries no source", s)

/-- Links the program, in whatever context. -/
def relink (s : Scene) (number : ObjectNumber) : Except String Unit × Scene :=
  if number = program then (.ok (), { s with linked := true })
  else (.error ("no program " ++ toString number.toNat), s)

/-- The objects of the context. -/
def report : ContextReport :=
  let set (numbers : List ObjectNumber) : NameSet := .ofList (numbers.map (.plain context))
  { ContextReport.empty context with
    textures := set [texture]
    buffers := set [vertexBuffer]
    shaders := set [vertexShader, fragmentShader]
    programs := set [program] }

/-- The inspector of the scene. -/
def inspector : Inspector Scene where
  processName _ := "tracedbg-demo"
  currentContext _ := context
  contextReports _ := [report]
  query kind name s := (s.query kind name, s)
  editShader edit s := s.editShader edit
  relink _ number s := s.relink number
  draws _ entrypoint := entrypoint == drawArrays
  endsFrame _ entrypoint := entrypoint == swapBuffers

end Scene

end CallDebugger.Demo
