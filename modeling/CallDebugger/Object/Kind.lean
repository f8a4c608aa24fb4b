/-!
# Kinds of objects and step modes

The two closed vocabularies that a user names by word: the kinds of traced objects, and how far a
step goes. Words are read without regard to ASCII case.
-/

namespace CallDebugger

/-- A word that names nothing of its vocabulary. -/
structure UnknownWord where
  vocabulary : String
  word : String
deriving Repr, DecidableEq

/-- The wording of the error. -/
def UnknownWord.message (e : UnknownWord) : String := "unknown " ++ e.vocabulary ++ ": " ++ e.word

/-- The kinds of traced objects. -/
inductive ObjectKind where
  | texture
  | buffer
  | framebuffer
  | fbo
  | renderbuffer
  | shader
  | program
  | gpu
  | state
  | backtrace
  | benchmark
deriving Repr, DecidableEq, Inhabited

namespace ObjectKind

/-- Every kind, in order. -/
def all : List ObjectKind :=
  [texture, buffer, framebuffer, fbo, renderbuffer, shader, program, gpu, state, backtrace,
    benchmark]

/-- The name of a kind. -/
def name : ObjectKind → String
  | texture => "texture"
  | buffer => "buffer"
  | framebuffer => "framebuffer"
  | fbo => "fbo"
  | renderbuffer => "renderbuffer"
  | shader => "shader"
  | program => "program"
  | gpu => "gpu"
  | state => "state"
  | backtrace => "backtrace"
  | benchmark => "benchmark"

/-- The kind that a word names. -/
def read (word : String) : Except UnknownWord ObjectKind :=
  match all.find? fun kind => kind.name == word.toLower with
  | some kind => .ok kind
  | none => .error ⟨"object type", word⟩

end ObjectKind

/-- How far a step goes. -/
inductive StepMode where
  /-- To the very next call. -/
  | call
  /-- Past the next draw call. -/
  | drawCall
  /-- Past the next end of a frame. -/
  | frame
deriving Repr, DecidableEq, Inhabited

namespace StepMode

/-- Every mode, in order. -/
def all : List StepMode := [call, drawCall, frame]

/-- The mode that a word names; the error tells the word in lower case. -/
def read (word : String) : Except UnknownWord StepMode :=
  match word.toLower with
  | "call" => .ok call
  | "draw" | "drawcall" | "draw_call" => .ok drawCall
  | "frame" => .ok frame
  | other => .error ⟨"step mode", other⟩

end StepMode

end CallDebugger
