import CallDebugger.Proofs.Format.Built

/-!
# The formats of the records

Each record, value, errand, resource and message has a format that is built of the primitives. What
is to be shown of each is only that its parts are all of it and that its alternatives are listed.
-/

namespace CallDebugger

open Codec (Built Solid)

variable {sets : Prop}

namespace Codec

theorem built_uint8 : Built sets uint8 := .record (f := ⟨_, _⟩) (.word 1) ⟨fun _ => rfl, fun _ => rfl⟩
theorem built_uint16 : Built sets uint16 := .record (f := ⟨_, _⟩) (.word 2) ⟨fun _ => rfl, fun _ => rfl⟩
theorem built_uint32 : Built sets uint32 := .record (f := ⟨_, _⟩) (.word 4) ⟨fun _ => rfl, fun _ => rfl⟩
theorem built_uint64 : Built sets uint64 := .record (f := ⟨_, _⟩) (.word 8) ⟨fun _ => rfl, fun _ => rfl⟩
theorem built_int8 : Built sets int8 := .record (f := ⟨_, _⟩) (.word 1) ⟨fun _ => rfl, fun _ => rfl⟩
theorem built_int16 : Built sets int16 := .record (f := ⟨_, _⟩) (.word 2) ⟨fun _ => rfl, fun _ => rfl⟩
theorem built_int32 : Built sets int32 := .record (f := ⟨_, _⟩) (.word 4) ⟨fun _ => rfl, fun _ => rfl⟩
theorem built_int64 : Built sets int64 := .record (f := ⟨_, _⟩) (.word 8) ⟨fun _ => rfl, fun _ => rfl⟩

theorem Built.variant {κ : Type} [BEq κ] [LawfulBEq κ] {all : List κ} (l : Listing all) :
    Built sets (Codec.variant all) :=
  .ordinal _ l

end Codec

open Codec

/-! ## Values and calls -/

theorem Value.listing : Listing Kind.all := ⟨fun k => by cases k <;> decide, by decide, by decide⟩

theorem Value.exact : Fields.Exact alternatives :=
  ⟨fun v => by cases v <;> rfl, fun ⟨kind, _⟩ => by cases kind <;> rfl⟩

theorem Value.built_body (kind : Kind) : Built sets kind.bodyCodec := by
  cases kind with
  | int8 => exact built_int8
  | uint8 => exact built_uint8
  | int16 => exact built_int16
  | uint16 => exact built_uint16
  | int32 => exact built_int32
  | uint32 | float32 | symbol => exact built_uint32
  | int64 => exact built_int64
  | uint64 | float64 | pointer | function => exact built_uint64

theorem Value.built : Built sets codec := .record (.tagged (.variant listing) built_body) exact

theorem Value.solid : Value.codec.Solid := ((solid_ordinal _ _).tagged _).record _

theorem Call.built : Built sets codec :=
  .record (.pair built_uint32 <| .pair (.list Value.built Value.solid) <|
    .pair (.option Value.built) <| .pair built_uint32 (.option .text)) ⟨fun _ => rfl, fun _ => rfl⟩

theorem Call.solid : Call.codec.Solid := (solid_uint32.pair _).record _

/-! ## Names and reports -/

theorem ObjectKind.listing : Listing all := ⟨fun k => by cases k <;> decide, by decide, by decide⟩

theorem ObjectKind.built : Built sets codec := .variant listing

theorem StepMode.listing : Listing all := ⟨fun k => by cases k <;> decide, by decide, by decide⟩

theorem StepMode.built : Built sets codec := .variant listing

theorem ObjectName.built : Built sets codec :=
  .record (.pair built_uint64 (.pair built_uint32 built_uint32)) ⟨fun _ => rfl, fun _ => rfl⟩

theorem NameSet.built (allowed : sets) : Built sets codec :=
  .keySet allowed ObjectName.built ((solid_uint64.pair _).record _)

theorem ContextReport.built (allowed : sets) : Built sets codec := by
  have names : Built sets NameSet.codec := NameSet.built allowed
  exact .record (.pair built_uint64 <| .pair names <| .pair names <| .pair names <| .pair names <|
    .pair names <| .pair names <| .pair names (.list names (solid_keySet _)))
    ⟨fun _ => rfl, fun _ => rfl⟩

theorem ContextReport.solid : ContextReport.codec.Solid := (solid_uint64.pair _).record _

/-! ## Resources -/

theorem PixelRect.built : Built sets codec :=
  .record (.pair built_uint32 <| .pair built_uint32 <| .pair built_uint32 <| .pair built_uint32 <|
    .pair built_uint32 <| .pair built_uint32 <| .pair built_uint32 .bytes)
    ⟨fun _ => rfl, fun _ => rfl⟩

theorem PixelRect.solid : PixelRect.codec.Solid := (solid_uint32.pair _).record _

theorem Readback.listing : Listing [true, false] :=
  ⟨fun k => by cases k <;> decide, by decide, by decide⟩

theorem Readback.exact : Fields.Exact alternatives :=
  ⟨fun r => by cases r <;> rfl, fun ⟨ok, _⟩ => by cases ok <;> rfl⟩

theorem Readback.built : Built sets codec :=
  .record (.tagged (.ordinal _ listing) fun
    | true => PixelRect.built
    | false => .text) exact

theorem FboAttachment.built : Built sets codec :=
  .record (.pair built_uint32 Readback.built) ⟨fun _ => rfl, fun _ => rfl⟩

theorem FboAttachment.solid : FboAttachment.codec.Solid := (solid_uint32.pair _).record _

theorem Shader.built : Built sets codec :=
  .record (.pair .text <| .pair .bool <| .pair .bool .text) ⟨fun _ => rfl, fun _ => rfl⟩

theorem Uniform.built : Built sets codec :=
  .record (.pair .text <| .pair built_int32 <| .pair built_uint32 <|
    .pair (.list Value.built Value.solid) built_uint32) ⟨fun _ => rfl, fun _ => rfl⟩

theorem Uniform.solid : Uniform.codec.Solid := (solid_text.pair _).record _

theorem Program.built : Built sets codec :=
  .record (.pair .bool <| .pair .text <|
    .pair (.list (.pair built_uint32 built_uint32) (solid_uint32.pair _))
      (.list Uniform.built Uniform.solid)) ⟨fun _ => rfl, fun _ => rfl⟩

theorem GpuMemory.built : Built sets codec :=
  .record (.pair built_int64 <| .pair built_int64 <| .pair built_int64 <|
    .pair built_int64 built_int64) ⟨fun _ => rfl, fun _ => rfl⟩

theorem Gpu.built : Built sets codec :=
  .record (.pair .text <| .pair .text <| .pair .text <| .pair .text (.option GpuMemory.built))
    ⟨fun _ => rfl, fun _ => rfl⟩

theorem StateItem.built : Built sets codec :=
  .record (.pair .text (.list Value.built Value.solid)) ⟨fun _ => rfl, fun _ => rfl⟩

theorem StateItem.solid : StateItem.codec.Solid := (solid_text.pair _).record _

theorem ObjectKind.built_body (kind : ObjectKind) : Built sets kind.bodyCodec := by
  cases kind with
  | texture => exact .list (.list PixelRect.built PixelRect.solid) (solid_list _)
  | buffer | benchmark => exact .bytes
  | framebuffer | renderbuffer => exact PixelRect.built
  | fbo => exact .list FboAttachment.built FboAttachment.solid
  | shader => exact Shader.built
  | program => exact Program.built
  | gpu => exact Gpu.built
  | state => exact .list StateItem.built StateItem.solid
  | backtrace => exact .list .text solid_text

theorem ObjectKind.tag_injective (k k' : ObjectKind) (h : k.tag = k'.tag) : k = k' := by
  revert h
  cases k <;> cases k' <;> decide

theorem Resource.exact : Fields.Exact alternatives :=
  ⟨fun r => by cases r <;> rfl, fun ⟨kind, _⟩ => by cases kind <;> rfl⟩

theorem Resource.built : Built sets codec :=
  .record (.tagged (.keyword ObjectKind.listing ObjectKind.tag_injective) ObjectKind.built_body)
    exact

/-! ## Messages -/

theorem ShaderEdit.built : Built sets codec :=
  .record (.pair built_uint64 <| .pair built_uint32 <| .pair .bool (.option .text))
    ⟨fun _ => rfl, fun _ => rfl⟩

theorem Errand.listing : Listing Kind.all := ⟨fun k => by cases k <;> decide, by decide, by decide⟩

theorem Errand.Kind.tag_injective (k k' : Kind) (h : k.tag = k'.tag) : k = k' := by
  revert h
  cases k <;> cases k' <;> decide

theorem Errand.built_body (kind : Kind) : Built sets kind.bodyCodec := by
  cases kind with
  | query => exact .pair ObjectKind.built ObjectName.built
  | editShader => exact ShaderEdit.built
  | relink => exact .pair built_uint64 built_uint32

theorem Errand.exact : Fields.Exact alternatives :=
  ⟨fun e => by cases e <;> rfl, fun ⟨kind, _⟩ => by cases kind <;> rfl⟩

theorem Errand.built : Built sets codec :=
  .record (.tagged (.keyword listing Kind.tag_injective) built_body) exact

theorem BreakSettings.built : Built sets codec :=
  .record (.pair .bool <| .pair .bool <| .pair .bool <| .pair .bool .bool)
    ⟨fun _ => rfl, fun _ => rfl⟩

theorem Pause.built (allowed : sets) : Built sets codec :=
  .record (.pair Call.built <| .pair built_uint64 <| .pair built_uint64
    (.list (ContextReport.built allowed) ContextReport.solid)) ⟨fun _ => rfl, fun _ => rfl⟩

theorem Proceed.built : Built sets codec :=
  .record (.pair .bool (.option StepMode.built)) ⟨fun _ => rfl, fun _ => rfl⟩

theorem TraceWindow.built : Built sets codec :=
  .record (.pair built_uint64 built_uint64) ⟨fun _ => rfl, fun _ => rfl⟩

theorem TracePage.built : Built sets codec :=
  .record (.pair built_uint64 (.list Call.built Call.solid)) ⟨fun _ => rfl, fun _ => rfl⟩

theorem Request.built : Built sets codec :=
  .record (.pair built_uint64 Errand.built) ⟨fun _ => rfl, fun _ => rfl⟩

theorem Reply.built : Built sets codec :=
  .record (.pair built_uint64 <| .pair .bool <| .pair (.option .text) (.option Resource.built))
    ⟨fun _ => rfl, fun _ => rfl⟩

theorem Message.listing : Listing Kind.all := ⟨fun k => by cases k <;> decide, by decide, by decide⟩

theorem Message.Kind.tag_injective (k k' : Kind) (h : k.tag = k'.tag) : k = k' := by
  revert h
  cases k <;> cases k' <;> decide

/-- The messages that carry sets. -/
def Message.Kind.HasSets (kind : Kind) : Prop := kind = .paused ∨ kind = .breakpoints

theorem Message.built_body (kind : Kind) : Built kind.HasSets kind.bodyCodec := by
  cases kind with
  | hello => exact .text
  | configuration => exact BreakSettings.built
  | paused => exact Pause.built (.inl rfl)
  | proceed => exact Proceed.built
  | terminate => exact .unit
  | queryTrace => exact TraceWindow.built
  | trace => exact TracePage.built
  | request => exact Request.built
  | reply => exact Reply.built
  | breakpoints => exact .keySet (.inr rfl) built_uint32 solid_uint32

theorem Message.exact : Fields.Exact alternatives :=
  ⟨fun m => by cases m <;> rfl, fun ⟨kind, _⟩ => by cases kind <;> rfl⟩

theorem Message.built : Built True codec :=
  .record (.tagged (.keyword listing Kind.tag_injective) fun kind =>
    (built_body kind).mono fun _ => trivial) exact

end CallDebugger
