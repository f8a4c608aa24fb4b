import CallDebugger.Proofs.Demo.Editing
import CallDebugger.Proofs.Object.Keyed

/-!
# Reports and queries of the demonstration scene

The report of the scene and its snapshots are made from the same numbers (`Demo.Scene.numbers`): for
each kind that a report has a space for, just the objects that are reported can be queried. What a
query brings is of the kind that was asked for, and its pixels fill their rows.

Main fact: `Demo.Scene.reported_iff_queried`.
-/

namespace CallDebugger

/-! ## Pixels -/

/-- The pixels that an attachment point shows. -/
def Readback.rect? : Readback → Option PixelRect
  | pixels rect => some rect
  | failed _ => none

/-- Every rectangle of pixels in a snapshot. -/
def Resource.rects : Resource → List PixelRect
  | texture faces => faces.flatten
  | framebuffer rect | renderbuffer rect => [rect]
  | fbo attachments => attachments.filterMap (·.readback.rect?)
  | buffer _ | shader _ | program _ | gpu _ | state _ | backtrace _ | benchmark _ => []

namespace Demo.Scene

variable {s : Scene} {kind : ObjectKind} {name : ObjectName} {number : ObjectNumber}
  {resource : Resource}

/-- The numbers of the objects of a kind. -/
def numbers : ObjectKind → List ObjectNumber
  | .texture => [texture]
  | .buffer => [vertexBuffer]
  | .shader => [vertexShader, fragmentShader]
  | .program => [program]
  | .framebuffer | .fbo | .renderbuffer | .gpu | .state | .backtrace | .benchmark => []

/-- A set of objects of the context holds a name if it was made of its number. -/
theorem contains_of_context {ns : List ObjectNumber} :
    (KeySet.ofList (ns.map (.plain context))).contains name ↔
      name.context = context ∧ name.name ∈ ns := by
  rw [KeySet.contains_ofList, List.any_map, List.any_eq_true]
  constructor
  · rintro ⟨n, mem, same⟩
    obtain ⟨here, rfl⟩ := Prod.mk.inj (ObjectName.place_eq_iff.1 (eq_of_beq same))
    exact ⟨here.symm, mem⟩
  · rintro ⟨here, mem⟩
    exact ⟨_, mem, beq_iff_eq.2 (ObjectName.place_eq_iff.2 (Prod.ext here.symm rfl))⟩

/-! ## The two tables -/

/-- What is reported of a kind that has a space. -/
theorem space?_report (spaced : (report.space? kind).isSome) :
    report.space? kind = some (.ofList ((numbers kind).map (.plain context))) := by
  cases kind with
  | texture | buffer | shader | program | framebuffer | fbo | renderbuffer => rfl
  | gpu | state | backtrace | benchmark => cases spaced

/-- The shaders are those with a number. -/
theorem shader?_isSome_iff : (s.shader? number).isSome ↔ number ∈ numbers .shader := by
  unfold shader?
  rw [numbers, List.mem_cons, List.mem_singleton]
  split
  · next vertex => exact iff_of_true rfl (.inl vertex)
  · next vertex =>
    split
    · next fragment => exact iff_of_true rfl (.inr fragment)
    · next fragment => exact iff_of_false Bool.false_ne_true (not_or.2 ⟨vertex, fragment⟩)

/-- What can be queried of a kind that has a space. -/
theorem snapshot_isOk_iff (spaced : (report.space? kind).isSome) :
    (∃ resource, s.snapshot kind number = .ok resource) ↔ number ∈ numbers kind := by
  cases kind with
  | gpu | state | backtrace | benchmark => cases spaced
  | framebuffer | fbo | renderbuffer => simp [snapshot, numbers]
  | shader =>
    rw [← shader?_isSome_iff (s := s), snapshot]
    cases s.shader? number <;> simp
  | texture | buffer | program =>
    rw [snapshot, numbers, List.mem_singleton]
    split <;> simp [*]

theorem rects_level : ∀ rect ∈ [level 4, level 2, level 1],
    rect.storage.length = rect.height.toNat * rect.rowBytes.toNat := by
  decide

/-- What a query brings is of the kind that was asked for, and its pixels fill their rows. -/
theorem snapshot_sound (h : s.snapshot kind number = .ok resource) : resource.kind = kind ∧
    ∀ rect ∈ resource.rects, rect.storage.length = rect.height.toNat * rect.rowBytes.toNat := by
  cases kind with
  | framebuffer | fbo | renderbuffer | backtrace | benchmark => cases h
  | gpu | state =>
    cases h
    exact ⟨rfl, nofun⟩
  | shader | buffer | program =>
    unfold snapshot at h
    dsimp only at h
    split at h
    · cases h
      exact ⟨rfl, nofun⟩
    · cases h
  | texture =>
    unfold snapshot at h
    dsimp only at h
    split at h
    · cases h
      exact ⟨rfl, rects_level⟩
    · cases h

/-! ## Queries -/

theorem query_eq_ok_iff : s.query kind name = .ok resource ↔
    name.context = context ∧ s.snapshot kind name.name = .ok resource := by
  unfold query
  split <;> simp [*]

/-- What a watch on an object is told: the snapshot, or why there is none. -/
theorem notice_answer {ι : Type} (label : ι) (s : Scene) (id : UInt64) (kind : ObjectKind)
    (name : ObjectName) :
    let notice := (Callback.snapshot kind label).notice
      (inspector.answer ⟨id, .query kind name⟩ s).1
    (∃ resource, s.query kind name = .ok resource ∧ notice = .update label resource) ∨
      ∃ reason, s.query kind name = .error reason ∧ notice = .refused label reason := by
  intro notice
  have told : notice = (Callback.snapshot kind label).notice
      (Request.replyBy ⟨id, .query kind name⟩ ((s.query kind name).map some)) := by
    rw [← answer_query]
  cases answer : s.query kind name with
  | error reason =>
    rw [answer] at told
    exact .inr ⟨reason, rfl, told⟩
  | ok resource =>
    have same : resource.kind = kind := (snapshot_sound (query_eq_ok_iff.1 answer).2).1
    have snapshot : (Reply.success id (some resource)).snapshot kind = .ok resource := if_pos same
    have update : (Callback.snapshot kind label).notice (.success id (some resource)) =
        .update label resource := by rw [Callback.notice, snapshot]
    rw [answer] at told
    exact .inl ⟨resource, rfl, told.trans update⟩

/-- Just the objects that are reported can be queried, where a report has a space for their kind.
What a query brings is of the kind that was asked for, and its pixels fill their rows, so a watch is
told what it is or why there is nothing. -/
theorem reported_iff_queried (s : Scene) :
    (∀ kind name, (∀ report : ContextReport, (report.space? kind).isSome) →
      ((∃ resource, (inspector.query kind name s).1 = .ok resource) ↔
        ∃ report ∈ inspector.contextReports s, report.id = name.context ∧
          ∃ names, report.space? kind = some names ∧ names.contains name)) ∧
    (∀ kind name resource, (inspector.query kind name s).1 = .ok resource →
      resource.kind = kind ∧
      ∀ rect ∈ resource.rects, rect.storage.length = rect.height.toNat * rect.rowBytes.toNat) ∧
    ∀ {ι : Type} (label : ι) id kind name,
      let notice := (Callback.snapshot kind label).notice
        (inspector.answer ⟨id, .query kind name⟩ s).1
      (∃ resource, (inspector.query kind name s).1 = .ok resource ∧
        notice = .update label resource) ∨
      ∃ reason, (inspector.query kind name s).1 = .error reason ∧
        notice = .refused label reason := by
  refine ⟨fun kind name spaced => ?_, fun kind name resource h => ?_, fun label id kind name => ?_⟩
  · have reported := space?_report (spaced report)
    have queried (resource : Resource) : (inspector.query kind name s).1 = .ok resource ↔
        name.context = context ∧ s.snapshot kind name.name = .ok resource := query_eq_ok_iff
    simp only [queried, exists_and_left, snapshot_isOk_iff (spaced report)]
    rw [← contains_of_context]
    constructor
    · intro there
      exact ⟨report, List.mem_singleton_self _, (contains_of_context.1 there).1.symm, _, reported,
        there⟩
    · rintro ⟨r, mem, -, names, space, there⟩
      obtain rfl := List.mem_singleton.1 mem
      cases space.symm.trans reported
      exact there
  · exact snapshot_sound (query_eq_ok_iff.1 h).2
  · exact notice_answer label s id kind name

/-- After an edit, the other shader and the texture. -/
theorem reported_iff_queried_after_edit :
    let s := (start.editShader ⟨context, vertexShader, false, some "x"⟩).2
    (∃ resource, (inspector.query .shader (.plain context fragmentShader) s).1 = .ok resource) ∧
      ∃ faces, (inspector.query .texture (.plain context texture) s).1 = .ok (.texture faces) ∧
        ∀ rect ∈ faces.flatten,
          rect.storage.length = rect.height.toNat * rect.rowBytes.toNat := by
  intro s
  obtain ⟨agree, sound, -⟩ := reported_iff_queried s
  have texture : (inspector.query .texture (.plain context texture) s).1 =
      .ok (.texture [[level 4, level 2, level 1]]) := rfl
  refine ⟨(agree .shader _ fun _ => rfl).2 ?_, _, texture, (sound _ _ _ texture).2⟩
  exact ⟨report, List.mem_singleton_self _, rfl, _, rfl, by decide⟩

end Demo.Scene

end CallDebugger
