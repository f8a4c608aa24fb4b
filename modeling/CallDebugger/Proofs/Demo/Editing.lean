import CallDebugger.Demo.Scene
import CallDebugger.Proofs.Traced.Attending
import Mathlib.Data.List.Induction

/-!
# Edits of the demonstration scene

What the inspector of the scene says about a shader and about the program is told by the requests
that it has granted: a shader has the source that the last edit of it has left, and the program is
linked as long as no edit came after the last link (`Demo.Scene.Tracks`). A request that is refused
leaves no trace, and neither does a query.

Main fact: `Demo.Scene.answers_after_edits`.
-/

namespace CallDebugger

/-- A request with the reply to it. -/
structure Exchange where
  request : Request
  reply : Reply

namespace Exchange

/-- The edit that was made, if the request was for one. -/
def edit? (x : Exchange) : Option ShaderEdit :=
  match x.request.errand with
  | .editShader edit => if x.reply.ok then some edit else none
  | .query .. | .relink .. => none

/-- A program was linked. -/
def relinks (x : Exchange) : Bool :=
  match x.request.errand with
  | .relink .. => x.reply.ok
  | .query .. | .editShader _ => false

/-- The last edit of a shader that was made. -/
def lastEdit? (number : ObjectNumber) (xs : List Exchange) : Option ShaderEdit :=
  ((xs.filterMap edit?).filter (·.shader == number)).getLast?

/-- After every edit that was made, the program was linked again. -/
def Linked (xs : List Exchange) : Prop :=
  ∀ before x after, xs = before ++ x :: after → x.edit?.isSome → ∃ y ∈ after, y.relinks

variable {xs : List Exchange} {x : Exchange} {edit : ShaderEdit} {number : ObjectNumber}

theorem lastEdit?_concat_of_none (h : x.edit? = none) :
    lastEdit? number (xs ++ [x]) = lastEdit? number xs := by
  simp [lastEdit?, h]

theorem lastEdit?_concat_of_some (h : x.edit? = some edit) : lastEdit? number (xs ++ [x]) =
    if edit.shader = number then some edit else lastEdit? number xs := by
  by_cases same : edit.shader = number <;> simp [lastEdit?, h, same]

theorem linked_nil : Linked [] := by
  intro before x after h
  simp at h

theorem edit?_of_relinks (h : x.relinks) : x.edit? = none := by
  unfold relinks at h
  split at h
  · next errand => rw [edit?, errand]
  · cases h
  · cases h

theorem not_relinks_of_edit? (h : x.edit? = some edit) : x.relinks = false :=
  Bool.eq_false_iff.2 fun relinks => Option.some_ne_none edit (h ▸ edit?_of_relinks relinks)

/-- After a link the program is linked, after an edit it is not, and otherwise nothing changes. -/
theorem linked_concat : Linked (xs ++ [x]) ↔ x.relinks ∨ x.edit? = none ∧ Linked xs := by
  constructor
  · intro h
    by_cases relinks : x.relinks
    · exact .inl relinks
    · refine .inr ⟨Option.not_isSome_iff_eq_none.1 fun edits => ?_, ?_⟩
      · obtain ⟨y, mem, -⟩ := h xs x [] rfl edits
        cases mem
      · intro before y after split edits
        obtain ⟨z, mem, links⟩ := h before y (after ++ [x]) (by simp [split]) edits
        rcases List.mem_append.1 mem with mem | mem
        · exact ⟨z, mem, links⟩
        · exact absurd (List.mem_singleton.1 mem ▸ links) relinks
  · intro h before y after split edits
    -- The edit is the last exchange, or the last exchange comes after it.
    rcases List.eq_nil_or_concat after with rfl | ⟨after, z, rfl⟩
    · obtain ⟨-, same⟩ := List.append_inj' split rfl
      cases same
      rw [h.elim edit?_of_relinks And.left] at edits
      cases edits
    · rw [List.concat_eq_append, ← List.cons_append, ← List.append_assoc] at split
      obtain ⟨rfl, same⟩ := List.append_inj' split rfl
      cases same
      rcases h with relinks | ⟨-, linked⟩
      · exact ⟨x, by simp, relinks⟩
      · obtain ⟨z, mem, links⟩ := linked before y after rfl edits
        exact ⟨z, by simp [mem], links⟩

end Exchange

namespace Inspector

variable {σ : Type}

/-- Requests answered one after the other, each with its reply. -/
def exchanges (i : Inspector σ) (s : σ) : List Request → List Exchange
  | [] => []
  | r :: rs => ⟨r, (i.answer r s).1⟩ :: i.exchanges (i.answer r s).2 rs

/-- The objects after requests were answered. -/
def after (i : Inspector σ) (s : σ) (rs : List Request) : σ := i.objectsAfter s (rs.map .request)

theorem after_concat (i : Inspector σ) (s : σ) (rs : List Request) (r : Request) :
    i.after s (rs ++ [r]) = (i.answer r (i.after s rs)).2 := by
  rw [after, List.map_append, objectsAfter_append]
  rfl

theorem exchanges_concat (i : Inspector σ) (s : σ) (rs : List Request) (r : Request) :
    i.exchanges s (rs ++ [r]) = i.exchanges s rs ++ [⟨r, (i.answer r (i.after s rs)).1⟩] := by
  induction rs generalizing s with
  | nil => rfl
  | cons q rs ih => exact congrArg _ (ih _)

end Inspector

namespace Demo.Scene

variable {s t : Scene} {r : Request} {reply : Reply} {xs : List Exchange}

/-- The source of a shader after its last edit, or without one. -/
def Shown (supplied : String) : Option ShaderEdit → String → Prop
  | none, source => source = supplied
  | some edit, source => if edit.reset then source = supplied else edit.source = some source

/-! ## Answering -/

/-- A shader that is there is replaced, and every other one stays. -/
theorem shader?_setShader {number : ObjectNumber} {old : ShaderText}
    (there : s.shader? number = some old) (new : ShaderText) (other : ObjectNumber) :
    (s.setShader number new).shader? other =
      if other = number then some new else s.shader? other := by
  unfold shader? at there
  split at there
  · next vertex =>
    subst vertex
    unfold setShader shader?
    rw [if_pos rfl]
    split <;> rfl
  · next other =>
    split at there
    · next fragment =>
      subst fragment
      unfold setShader shader?
      rw [if_neg other, if_pos rfl]
      split
      · next vertex =>
        subst vertex
        rfl
      · split <;> rfl
    · cases there

/-- What answering a request does. -/
inductive Answered (s : Scene) (r : Request) : Reply → Scene → Prop
  | asked {kind : ObjectKind} {name : ObjectName} (errand : r.errand = .query kind name) :
    Answered s r (r.replyBy ((s.query kind name).map some)) s
  | edited {edit : ShaderEdit} {text : ShaderText} {source : String}
    (errand : r.errand = .editShader edit) (found : s.shader? edit.shader = some text)
    (shown : Shown text.supplied (some edit) source) :
    Answered s r (.success r.id none)
      { s.setShader edit.shader ⟨text.supplied, source⟩ with linked := false }
  | relinked {context : ContextId} (errand : r.errand = .relink context program) :
    Answered s r (.success r.id none) { s with linked := true }
  | refused {reason : String} : Answered s r (.failure r.id reason) s

theorem answered (s : Scene) (r : Request) :
    Answered s r (inspector.answer r s).1 (inspector.answer r s).2 := by
  rw [Inspector.answer_eq]
  cases errand : r.errand with
  | query kind name => exact .asked errand
  | editShader edit =>
    simp only [Inspector.run, inspector, editShader]
    cases found : s.shader? edit.shader with
    | none => exact .refused
    | some text =>
      by_cases reset : edit.reset
      · simp only [reset, if_true]
        exact .edited errand found (by simp [Shown, reset])
      · cases source : edit.source with
        | none =>
          simp only [reset]
          exact .refused
        | some source' =>
          simp only [reset]
          exact .edited errand found (by simp [Shown, reset, source])
  | relink context number =>
    simp only [Inspector.run, inspector, relink]
    by_cases there : number = program
    · rw [if_pos there]
      exact .relinked (there ▸ errand)
    · rw [if_neg there]
      exact .refused

/-! ## What the exchanges tell -/

/-- What the exchanges so far tell about the scene. -/
structure Tracks (xs : List Exchange) (s : Scene) : Prop where
  shaders : ∀ number text, start.shader? number = some text → ∃ source,
    s.shader? number = some ⟨text.supplied, source⟩ ∧
      Shown text.supplied (Exchange.lastEdit? number xs) source
  linked : s.linked = true ↔ Exchange.Linked xs

theorem tracks_start : Tracks [] start where
  shaders number text there := by
    refine ⟨text.supplied, there.trans (congrArg some ?_), rfl⟩
    unfold shader? at there
    split at there
    · cases there
      rfl
    · split at there
      · cases there
        rfl
      · cases there
  linked := iff_of_true rfl Exchange.linked_nil

/-- An exchange that is no edit and no link tells nothing new. -/
theorem Tracks.idle (h : Tracks xs s) {x : Exchange} (edit : x.edit? = none)
    (relinks : x.relinks = false) : Tracks (xs ++ [x]) s where
  shaders number text there := by
    rw [Exchange.lastEdit?_concat_of_none edit]
    exact h.shaders number text there
  linked := by simp [Exchange.linked_concat, edit, relinks, h.linked]

/-- Each exchange is followed. -/
theorem Tracks.step (h : Tracks xs s) (answer : Answered s r reply t) :
    Tracks (xs ++ [⟨r, reply⟩]) t := by
  cases answer with
  | asked errand =>
    exact h.idle (by simp only [Exchange.edit?, errand]) (by simp only [Exchange.relinks, errand])
  | @edited edit text source errand found shown =>
    have made : Exchange.edit? ⟨r, .success r.id none⟩ = some edit := by
      simp only [Exchange.edit?, errand]
      rfl
    refine ⟨fun number original there => ?_, ?_⟩
    · rw [Exchange.lastEdit?_concat_of_some made]
      obtain ⟨source', now, shown'⟩ := h.shaders number original there
      have there' := shader?_setShader found ⟨text.supplied, source⟩ number
      -- The shader that is edited keeps the source that the application supplied.
      by_cases same : edit.shader = number
      · subst same
        rw [found] at now
        cases now
        rw [if_pos rfl] at there' ⊢
        exact ⟨source, there', shown⟩
      · rw [if_neg (Ne.symm same)] at there'
        rw [if_neg same]
        exact ⟨source', there'.trans now, shown'⟩
    · simp [Exchange.linked_concat, made, Exchange.not_relinks_of_edit? made]
  | relinked errand =>
    have made : Exchange.relinks ⟨r, .success r.id none⟩ := by
      simp only [Exchange.relinks, errand]
      rfl
    refine ⟨fun number original there => ?_, ?_⟩
    · rw [Exchange.lastEdit?_concat_of_none (Exchange.edit?_of_relinks made)]
      exact h.shaders number original there
    · simp [Exchange.linked_concat, made]
  | refused =>
    refine h.idle ?_ ?_
    · unfold Exchange.edit?
      split <;> rfl
    · unfold Exchange.relinks
      split <;> rfl

/-- The exchanges from the start tell about the scene that they leave. -/
theorem tracks_after (rs : List Request) :
    Tracks (inspector.exchanges start rs) (inspector.after start rs) := by
  induction rs using List.reverseRecOn with
  | nil => exact tracks_start
  | append_singleton rs r ih =>
    rw [Inspector.exchanges_concat, Inspector.after_concat]
    exact ih.step (answered _ r)

/-! ## Answers -/

theorem answer_query (s : Scene) (id : UInt64) (kind : ObjectKind) (name : ObjectName) :
    (inspector.answer ⟨id, .query kind name⟩ s).1 =
      Request.replyBy ⟨id, .query kind name⟩ ((s.query kind name).map some) := by
  rw [Inspector.answer_eq]
  rfl

/-- A query leaves the scene as it is, and so does what is refused. -/
theorem after_idle (h : r.errand.kind = .query ∨ (inspector.answer r s).1.ok = false) :
    (inspector.answer r s).2 = s := by
  have answer := answered s r
  generalize (inspector.answer r s).1 = reply, (inspector.answer r s).2 = t at answer h
  cases answer with
  | asked | refused => rfl
  | edited errand | relinked errand =>
    rw [errand] at h
    exact h.elim nofun nofun

/-- An edit of a shader leaves every other one as it is. -/
theorem shader?_edited {id : UInt64} {edit : ShaderEdit} {number : ObjectNumber}
    (other : number ≠ edit.shader) :
    (inspector.answer ⟨id, .editShader edit⟩ s).2.shader? number = s.shader? number := by
  have answer := answered s ⟨id, .editShader edit⟩
  generalize (inspector.answer ⟨id, .editShader edit⟩ s).1 = reply,
    (inspector.answer ⟨id, .editShader edit⟩ s).2 = t at answer
  cases answer with
  | edited errand found shown =>
    cases errand
    exact (shader?_setShader found _ number).trans (if_neg other)
  | asked | refused => rfl
  | relinked errand => cases errand

theorem query_shader_congr {name : ObjectName} (same : s.shader? name.name = t.shader? name.name) :
    s.query .shader name = t.query .shader name := by
  simp only [query, snapshot, same]

/-- Whatever the inspector has been asked before, a shader has the source that the last edit of it
left, an edit changes no other shader, the program is linked as long as no edit came after the last
link, and what is only a query or is refused has no influence on any later reply. -/
theorem answers_after_edits (rs : List Request) :
    let s := inspector.after start rs
    let xs := inspector.exchanges start rs
    (∀ id name text, name.context = context → start.shader? name.name = some text →
      ∃ source, Shown text.supplied (Exchange.lastEdit? name.name xs) source ∧
        (inspector.answer ⟨id, .query .shader name⟩ s).1 =
          .success id (some (.shader ⟨source, false, true, ""⟩))) ∧
    (∀ id name id' edit, name.name ≠ edit.shader →
      (inspector.answer ⟨id, .query .shader name⟩
          (inspector.answer ⟨id', .editShader edit⟩ s).2).1 =
        (inspector.answer ⟨id, .query .shader name⟩ s).1) ∧
    (∀ id name, name.context = context → name.name = program →
      ∃ p, (p.linkOk = true ↔ Exchange.Linked xs) ∧
        (inspector.answer ⟨id, .query .program name⟩ s).1 = .success id (some (.program p))) ∧
    ∀ r, r.errand.kind = .query ∨ (inspector.answer r s).1.ok = false →
      ∀ later, inspector.exchanges (inspector.answer r s).2 later =
        inspector.exchanges s later := by
  intro s xs
  have tracks : Tracks xs s := tracks_after rs
  refine ⟨fun id name text here there => ?_, fun id name id' edit other => ?_,
    fun id name here there => ?_, fun r idle later => ?_⟩
  · obtain ⟨source, now, shown⟩ := tracks.shaders name.name text there
    refine ⟨source, shown, ?_⟩
    simp only [answer_query, query, if_pos here, snapshot, now]
    rfl
  · rw [answer_query, answer_query, query_shader_congr (shader?_edited other)]
  · refine ⟨s.programSnapshot, tracks.linked, ?_⟩
    simp only [answer_query, query, if_pos here, snapshot, if_pos there]
    rfl
  · rw [after_idle idle]

/-- An edit of the fragment shader, and then a link of a program that is not there. -/
theorem answers_after_edits_fragment :
    let s := inspector.after start
      [⟨1, .editShader ⟨context, fragmentShader, false, some "x"⟩⟩, ⟨2, .relink context 4⟩]
    let fragment : Request := ⟨3, .query .shader (.plain context fragmentShader)⟩
    (inspector.answer fragment s).1 = .success 3 (some (.shader ⟨"x", false, true, ""⟩)) ∧
      (inspector.answer fragment
          (inspector.answer ⟨4, .editShader ⟨context, vertexShader, true, none⟩⟩ s).2).1 =
        (inspector.answer fragment s).1 ∧
      (∃ p, p.linkOk = false ∧
        (inspector.answer ⟨3, .query .program (.plain context program)⟩ s).1 =
          .success 3 (some (.program p))) ∧
      inspector.exchanges (inspector.answer ⟨2, .relink context 4⟩ s).2 [fragment] =
        inspector.exchanges s [fragment] := by
  intro s fragment
  obtain ⟨shaders, others, linked, idle⟩ := answers_after_edits
    [⟨1, .editShader ⟨context, fragmentShader, false, some "x"⟩⟩, ⟨2, .relink context 4⟩]
  obtain ⟨source, shown, reply⟩ := shaders 3 (.plain context fragmentShader)
    ⟨fragmentSource, fragmentSource⟩ rfl rfl
  obtain rfl : "x" = source := Option.some.inj shown
  obtain ⟨p, ok, program⟩ := linked 3 (.plain context program) rfl rfl
  refine ⟨reply, others 3 _ 4 _ (by decide), ⟨p, ?_, program⟩, idle _ (.inr (by decide)) _⟩
  refine Bool.eq_false_iff.2 fun linkOk => ?_
  obtain ⟨y, mem, relinks⟩ := ok.1 linkOk [] _ _ rfl rfl
  obtain rfl := List.mem_singleton.1 mem
  cases relinks

end Demo.Scene

end CallDebugger
