import CallDebugger.Proofs.Session.Consistency

/-!
# The pause that a session keeps

A session keeps the last pause that it has told its owner of, until it gives up its link. Both leave
a mark (`Session.marks`): a pause is told, and a link that is given up joins the others. The pause
that is kept is read off the last mark (`Session.Passage`), over a turn and over the events of a pump.
-/

namespace CallDebugger

variable {ι : Type}

/-- What decides which pause a session keeps. -/
inductive Mark where
  /-- The owner was told of a pause. -/
  | paused (pause : Pause)
  /-- The link was given up. -/
  | cut

namespace Mark

/-- The pause that is kept after a mark. -/
def pause? : Mark → Option Pause
  | paused pause => some pause
  | cut => none

/-- The pause that is kept after marks, if `before` was kept before them. -/
def kept (before : Option Pause) (ms : List Mark) : Option Pause :=
  (ms.getLast?.map pause?).getD before

theorem kept_append (before : Option Pause) (ms ns : List Mark) :
    kept before (ms ++ ns) = kept (kept before ms) ns := by
  unfold kept
  rw [List.getLast?_append]
  cases ns.getLast? <;> rfl

theorem kept_concat (before : Option Pause) (ms : List Mark) (m : Mark) :
    kept before (ms ++ [m]) = m.pause? := by
  rw [kept_append]
  rfl

end Mark

/-- The pause that the owner is told of. -/
def Notice.pause? : Notice ι → Option Pause
  | .breaked pause => some pause
  | _ => none

theorem Callback.pause?_notice (c : Callback ι) (r : Reply) : (c.notice r).pause? = none := by
  cases c with
  | reply label => rfl
  | snapshot kind label =>
    simp only [Callback.notice]
    cases r.snapshot kind <;> rfl

namespace Session

/-- The marks that are left from `s` to `s'`: the pauses told, and then the end of the link. -/
def marks (s s' : Session ι) : List Mark :=
  ((s'.log.drop s.log.length).filterMap Notice.pause?).map .paused ++
    if s.retired.length < s'.retired.length then [.cut] else []

/-- From `s` to `s'` the owner was told more, links were given up, and the pause that is kept is the
one that the marks say. -/
structure Passage (s s' : Session ι) : Prop where
  log : s.log <+: s'.log
  retired : s.retired.length ≤ s'.retired.length
  lastBreak : s'.lastBreak = Mark.kept s.lastBreak (s.marks s')

variable {s s₁ s' : Session ι} {t : Turn ι}

theorem marks_of_log {told : List (Notice ι)} (log : s'.log = s.log ++ told) :
    s.marks s' = (told.filterMap Notice.pause?).map .paused ++
      if s.retired.length < s'.retired.length then [.cut] else [] := by
  rw [marks, log, List.drop_left]

theorem marks_still {told : List (Notice ι)} (log : s'.log = s.log ++ told)
    (silent : told.filterMap Notice.pause? = []) (retired : s'.retired = s.retired) :
    s.marks s' = [] := by
  rw [marks_of_log log, silent, retired, if_neg (Nat.lt_irrefl _)]
  rfl

/-- The owner is told of no pause, and the link is kept. -/
theorem passage_still (told : List (Notice ι)) (log : s'.log = s.log ++ told)
    (silent : told.filterMap Notice.pause? = []) (retired : s'.retired = s.retired)
    (lastBreak : s'.lastBreak = s.lastBreak) : s.Passage s' := by
  refine ⟨⟨told, log.symm⟩, Nat.le_of_eq (congrArg List.length retired.symm), ?_⟩
  rw [marks_still log silent retired, lastBreak]
  rfl

/-- The owner is told nothing, and the link is kept. -/
theorem passage_quiet (log : s'.log = s.log) (retired : s'.retired = s.retired)
    (lastBreak : s'.lastBreak = s.lastBreak) : s.Passage s' :=
  passage_still [] (by rw [log, List.append_nil]) rfl retired lastBreak

/-- The link is given up. -/
theorem passage_cut (told : List (Notice ι)) {l : Link} (log : s'.log = s.log ++ told)
    (retired : s'.retired = s.retired ++ [l]) (lastBreak : s'.lastBreak = none) :
    s.Passage s' := by
  have longer : s.retired.length < s'.retired.length := by
    rw [retired, List.length_append]
    exact Nat.lt_succ_self _
  refine ⟨⟨told, log.symm⟩, Nat.le_of_lt longer, ?_⟩
  rw [marks_of_log log, if_pos longer, Mark.kept_concat, lastBreak]
  rfl

/-- The process pauses. -/
theorem passage_paused {pause : Pause} {text : String}
    (log : s'.log = s.log ++ [.breaked pause, .status text]) (retired : s'.retired = s.retired)
    (lastBreak : s'.lastBreak = some pause) : s.Passage s' := by
  refine ⟨⟨_, log.symm⟩, Nat.le_of_eq (congrArg List.length retired.symm), ?_⟩
  rw [marks_of_log log, retired, if_neg (Nat.lt_irrefl _), lastBreak]
  rfl

theorem Passage.refl (s : Session ι) : s.Passage s := passage_quiet rfl rfl rfl

/-- Passages follow one another as long as the link is kept. -/
theorem Passage.trans (first : s.Passage s₁) (later : s₁.Passage s')
    (still : s₁.retired.length = s.retired.length) : s.Passage s' := by
  have marks : s.marks s' = s.marks s₁ ++ s₁.marks s' := by
    obtain ⟨told, log⟩ := first.log
    obtain ⟨more, log'⟩ := later.log
    have whole : s'.log = s.log ++ (told ++ more) := by rw [← log', ← log, List.append_assoc]
    rw [marks_of_log whole, marks_of_log log.symm, marks_of_log log'.symm, still,
      if_neg (Nat.lt_irrefl _), List.filterMap_append, List.map_append]
    simp only [List.append_nil, List.append_assoc]
  refine ⟨first.log.trans later.log, Nat.le_trans first.retired later.retired, ?_⟩
  rw [later.lastBreak, first.lastBreak, marks, Mark.kept_append]

/-! ## A turn -/

/-- A session without a link keeps no pause. -/
theorem Consistent.lastBreak_of_none (h : s.Consistent) (gone : s.link = none) :
    s.lastBreak = none := by
  have apart : ¬ s.isConnected = true := fun connected => by
    have linked := h.tied connected
    rw [gone] at linked
    cases linked
  have fresh : ¬ s.lastBreak.isSome = true := fun kept =>
    apart (isConnected_iff.2 (h.connected_of_synced (h.lastBreak_iff.1 kept)))
  exact Option.not_isSome_iff_eq_none.1 fresh

theorem passage_lose {l : Link} (linked : s₁.link = some l) (reason : String)
    {told : List (Notice ι)} (log : s₁.log = s.log ++ told) (retired : s₁.retired = s.retired) :
    s.Passage (s₁.lose reason) := by
  rw [lose_of_link linked]
  exact passage_cut (told ++ [.disconnected reason]) (l := l.abort)
    (by rw [← List.append_assoc, ← log]; rfl) (by rw [← retired]; rfl) rfl

theorem passage_disconnect (h : s.Consistent) : s.Passage s.disconnect := by
  rw [disconnect, dropLink_eq]
  cases linked : s.link with
  | none =>
    exact passage_still [.status "Disconnected."] rfl rfl (List.append_nil _)
      (h.lastBreak_of_none linked).symm
  | some l => exact passage_cut [.status "Disconnected."] (l := l.abort) rfl rfl rfl

theorem passage_connectWith (h : s.Consistent) (link : Link) :
    s.Passage (s.connectWith link) := by
  unfold connectWith
  split
  · have given := passage_disconnect h
    exact ⟨given.log, given.retired, given.lastBreak⟩
  · exact passage_quiet rfl rfl rfl

theorem passage_grant (s : Session ι) (l : Link) (t : Turn ι) : s.Passage (s.grant l t) := by
  cases t with
  | goOn | step => exact passage_still [.status "Running..."] rfl rfl rfl rfl
  | interrupt => exact passage_still [.status "Interrupting..."] rfl rfl rfl rfl
  | _ => exact passage_quiet rfl rfl rfl

/-- A turn leaves its marks. -/
theorem Effect.passage (effect : Effect s t s') (h : s.Consistent) : s.Passage s' := by
  cases effect with
  | connect endpoint link =>
    have asked : s.Passage (s.status ("Connecting to " ++ endpoint.render ++ "...")) :=
      passage_still [.status _] rfl rfl rfl rfl
    exact asked.trans (passage_connectWith (h.tell _) link) rfl
  | connectWith link => exact passage_connectWith h link
  | disconnect => exact passage_disconnect h
  | register | unregister | subscribe | unsubscribe | arrive | idle =>
    exact passage_quiet rfl rfl rfl
  | declined => cases t <;> exact passage_quiet rfl rfl rfl
  | refused => cases t <;> exact passage_quiet rfl rfl rfl
  | granted => exact passage_grant s _ t
  | @noticed e n l l' linked polled told =>
    refine passage_still [n] rfl ?_ rfl rfl
    cases e <;> cases told <;> rfl
  | ended | rejected | unsynced => exact passage_lose rfl _ (List.append_nil _).symm rfl
  | greeted => exact passage_still _ (List.append_assoc _ _ _) rfl rfl rfl
  | unqueried => exact passage_lose rfl _ rfl rfl
  | paused => exact passage_paused (List.append_assoc _ _ _) rfl rfl
  | traced => exact passage_still _ rfl rfl rfl rfl
  | replied =>
    rw [acceptReply_eq]
    refine passage_still _ rfl ?_ rfl rfl
    cases (s.requests.answer _).1 with
    | none => rfl
    | some callback => simp [callback.pause?_notice]

/-! ## A pump -/

theorem Consistent.passage_after (h : s.Consistent) (t : Turn ι) : s.Passage (s.after t) :=
  (effect h.tied t).passage h

/-- When the link is given up while events are handled, no event is left. -/
theorem poll_of_longer (h : s.Consistent)
    (longer : s.retired.length < (s.after .next).retired.length) : (s.after .next).poll = none := by
  cases fate h.tied .next with
  | kept _ _ _ _ retired =>
    rw [retired] at longer
    exact absurd longer (Nat.lt_irrefl _)
  | replaced _ _ link _ =>
    have gone : (s.after .next).link = none := link
    rw [poll, gone]

theorem run_nexts_of_idle (idle : s.poll = none) (n : Nat) : s.run (.replicate n .next) = s := by
  have stays : s.after .next = s := by rw [after, handleNext, idle]
  induction n with
  | zero => rfl
  | succ n ih => rw [List.replicate_succ, run_cons, stays, ih]

/-- Handling events leaves their marks. -/
theorem Consistent.passage_nexts (h : s.Consistent) (n : Nat) :
    s.Passage (s.run (.replicate n .next)) := by
  induction n generalizing s with
  | zero => exact .refl s
  | succ n ih =>
    have first := h.passage_after .next
    rw [List.replicate_succ, run_cons]
    by_cases longer : s.retired.length < (s.after .next).retired.length
    · rw [run_nexts_of_idle (poll_of_longer h longer)]
      exact first
    · have still := Nat.le_antisymm (Nat.not_lt.1 longer) first.retired
      exact first.trans (ih (h.after .next)) still

end Session

end CallDebugger
