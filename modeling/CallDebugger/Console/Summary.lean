import CallDebugger.Object.Resource
import CallDebugger.Text.Blank

/-!
# Summaries of resources

One line that describes a snapshot.
-/

namespace CallDebugger

/-- What is told of a texture by its first mip level. -/
def Resource.textureSummary (faces : List (List PixelRect)) : String :=
  match faces with
  | (base :: rest) :: _ =>
    "texture: " ++ toString faces.length ++ " face(s), " ++ toString (rest.length + 1) ++
      " level(s), base " ++ toString base.width.toNat ++ "x" ++ toString base.height.toNat
  | _ => "texture: no image data"

/-- What is told of the pixels of a framebuffer or a renderbuffer. -/
def PixelRect.summary (r : PixelRect) : String :=
  toString r.width.toNat ++ "x" ++ toString r.height.toNat ++ ", " ++ toString r.samples.toNat ++
    " sample(s)"

/-- Whether the pixels could not be read back. -/
def Readback.isFailed : Readback → Bool
  | .failed _ => true
  | .pixels _ => false

/-- A text without the blanks at its ends. -/
def trimmed (text : String) : String := String.ofList (Blank.trim text.toList)

/-- What is told of a shader. -/
def Shader.summary (s : Shader) : String :=
  "shader: " ++ toString (Blank.lines s.source.toList).length ++ " line(s), " ++
    (if s.compileOk then "compiled" else "compile failed: " ++ trimmed s.compileStatus) ++
    (if s.deleted then ", deleted" else "")

/-- What is told of a program. -/
def Program.summary (p : Program) : String :=
  "program: " ++ (if p.linkOk then "linked" else "link failed: " ++ trimmed p.linkStatus) ++ ", " ++
    toString p.attachedShaders.length ++ " shader(s), " ++ toString p.uniforms.length ++
    " uniform(s)"

/-- One line that describes a snapshot. -/
def Resource.summary : Resource → String
  | texture faces => textureSummary faces
  | buffer data => "buffer: " ++ toString data.length ++ " bytes"
  | framebuffer rect => "framebuffer: " ++ rect.summary
  | fbo attachments =>
    "fbo: " ++ toString attachments.length ++ " attachment(s), " ++
      toString (attachments.filter fun a => a.readback.isFailed).length ++ " unreadable"
  | renderbuffer rect => "renderbuffer: " ++ rect.summary
  | shader s => s.summary
  | program p => p.summary
  | gpu g => "gpu: " ++ g.renderer ++ " (" ++ g.vendor ++ ", " ++ g.version ++ ")"
  | state items => "state: " ++ toString items.length ++ " item(s)"
  | backtrace [] => "backtrace: empty"
  | backtrace (top :: rest) =>
    "backtrace: " ++ toString (rest.length + 1) ++ " frame(s), innermost " ++ top
  | benchmark data => "benchmark: " ++ toString data.length ++ " bytes"

end CallDebugger
