import CallDebugger.Traced.BreakState

/-!
# When the process pauses

A break state sums up all that it has been told in three flags. What they stand for is said by the
past alone: the process pauses before a call if nothing has let it go on since it last paused, if
the call is one of the breakpoints, or if something has asked for a pause since it last paused or
was let go on (`BreakState.Armed`). So no pause is missed and none comes unasked
(`BreakState.pauses_iff`).
-/

namespace CallDebugger

/-- One thing that a break state is told or asked. -/
inductive Incident where
  | settings (settings : BreakSettings)
  | breakpoints (breakpoints : KeySet Entrypoint)
  | proceed (how : Proceed)
  /-- The process is about to make a call. -/
  | before (e : Entrypoint)
  /-- A call has returned. -/
  | after (kind : CallKind)
  | error
  | debugOutput
  | compilerError

namespace Incident

/-- The settings that an incident brings. -/
def settings? : Incident → Option BreakSettings
  | .settings given => some given
  | _ => none

/-- The breakpoints that an incident brings. -/
def breakpoints? : Incident → Option (KeySet Entrypoint)
  | .breakpoints given => some given
  | _ => none

/-- The process is let go on. -/
def Releases (i : Incident) : Prop := ∃ how, i = .proceed how ∧ how.interrupt = false

/-- How far the process is let go on, if it is for a step. -/
def step? : Incident → Option StepMode
  | .proceed how => if how.interrupt then none else how.step
  | _ => none

/-- The incident asks for a pause, under the given settings and in the course of the given step. -/
def Arms (i : Incident) (step : Option StepMode) (settings : BreakSettings) : Prop :=
  match i with
  | .proceed how => how.interrupt = true
  | .error => settings.onError = true
  | .debugOutput => settings.onDebugOutput = true
  | .compilerError => settings.onCompilerError = true
  | .after kind => (step = some .drawCall ∧ kind.draws = true) ∨
      (step = some .frame ∧ kind.endsFrame = true)
  | .settings _ | .breakpoints _ | .before _ => False

end Incident

namespace BreakState

/-- What an incident makes of a break state. -/
def meet (s : BreakState) : Incident → BreakState
  | .settings settings => { s with settings }
  | .breakpoints breakpoints => { s with breakpoints }
  | .proceed how => s.proceed how
  | .before e => (s.before e).2
  | .after kind => s.after kind
  | .error => s.reportError
  | .debugOutput => s.reportDebugOutput
  | .compilerError => s.reportCompilerError

/-- Whether the process pauses at an incident. -/
def pausesAt (s : BreakState) : Incident → Bool
  | .before e => (s.before e).1
  | _ => false

/-- The break state after incidents, the first one first. -/
def run (s : BreakState) (is : List Incident) : BreakState := is.foldl meet s

/-- An incident, and whether the process paused at it. -/
structure Moment where
  incident : Incident
  paused : Bool

/-- The moments that incidents come to. -/
def moments (s : BreakState) : List Incident → List Moment
  | [] => []
  | i :: is => ⟨i, s.pausesAt i⟩ :: (s.meet i).moments is

/-! ## What the past says -/

/-- A moment at which the process paused or was let go on. -/
def Moment.Clears (m : Moment) : Prop := m.paused = true ∨ m.incident.Releases

/-- The settings in force. -/
def settingsAfter (past : List Moment) : BreakSettings :=
  ((past.filterMap fun m => m.incident.settings?).getLast?).getD .standard

/-- The breakpoints set last. -/
def breakpointsAfter (past : List Moment) : KeySet Entrypoint :=
  ((past.filterMap fun m => m.incident.breakpoints?).getLast?).getD .empty

/-- Since the process last paused, or since the start, nothing has let it go on. -/
def Unreleased (past : List Moment) : Prop :=
  ∀ earlier m later, past = earlier ++ m :: later → m.incident.Releases →
    ∃ n ∈ later, n.paused = true

/-- The process paused or was let go on last at the given moment, with what came before and
after. -/
structure LastCleared (past earlier : List Moment) (point : Moment) (later : List Moment) :
    Prop where
  split : past = earlier ++ point :: later
  clears : point.Clears
  last : ∀ m ∈ later, ¬ m.Clears

/-- Since the process last paused or was let go on, something has asked for a pause: that it was let
go on for one call only, or an incident after it. -/
def Armed (past : List Moment) : Prop :=
  ∃ earlier point later, LastCleared past earlier point later ∧
    (point.incident.step? = some .call ∨
      ∃ between m after, later = between ++ m :: after ∧
        m.incident.Arms point.incident.step? (settingsAfter (earlier ++ point :: between)))

/-! ## One more moment -/

variable {past : List Moment} {m : Moment}

/-- Where a list with one more element is split. -/
theorem append_singleton_eq_split {α : Type} {as bs cs : List α} {a b : α} :
    as ++ [a] = bs ++ b :: cs ↔
      (bs = as ∧ b = a ∧ cs = []) ∨ ∃ ds, cs = ds ++ [a] ∧ as = bs ++ b :: ds := by
  constructor
  · intro h
    rcases List.eq_nil_or_concat cs with rfl | ⟨ds, d, rfl⟩
    · simp at h
      simp [h]
    · right
      rw [List.concat_eq_append, ← List.cons_append, ← List.append_assoc] at h
      obtain ⟨front, last⟩ := List.append_inj' h rfl
      simp at last
      exact ⟨ds, by simp [last], front⟩
  · rintro (⟨rfl, rfl, rfl⟩ | ⟨ds, rfl, rfl⟩) <;> simp

theorem settingsAfter_concat (past : List Moment) (m : Moment) :
    settingsAfter (past ++ [m]) = m.incident.settings?.getD (settingsAfter past) := by
  unfold settingsAfter
  cases h : m.incident.settings? <;> simp [List.filterMap_append, h]

theorem breakpointsAfter_concat (past : List Moment) (m : Moment) :
    breakpointsAfter (past ++ [m]) = m.incident.breakpoints?.getD (breakpointsAfter past) := by
  unfold breakpointsAfter
  cases h : m.incident.breakpoints? <;> simp [List.filterMap_append, h]

theorem unreleased_of_paused (paused : m.paused = true) (held : ¬ m.incident.Releases) :
    Unreleased (past ++ [m]) := by
  intro earlier n later split releases
  rcases append_singleton_eq_split.1 split with ⟨-, rfl, -⟩ | ⟨rest, rfl, -⟩
  · exact absurd releases held
  · exact ⟨m, by simp, paused⟩

theorem not_unreleased_of_releases (releases : m.incident.Releases) :
    ¬ Unreleased (past ++ [m]) := by
  intro held
  obtain ⟨n, mem, -⟩ := held past m [] rfl releases
  simp at mem

/-- A moment that clears nothing does not let the process go on. -/
theorem unreleased_concat (other : ¬ m.Clears) : Unreleased (past ++ [m]) ↔ Unreleased past := by
  constructor
  · intro held earlier n later split releases
    obtain ⟨k, mem, paused⟩ := held earlier n (later ++ [m]) (by simp [split]) releases
    rcases List.mem_append.1 mem with mem | mem
    · exact ⟨k, mem, paused⟩
    · rw [List.mem_singleton.1 mem] at paused
      exact absurd (.inl paused) other
  · intro held earlier n later split releases
    rcases append_singleton_eq_split.1 split with ⟨-, rfl, -⟩ | ⟨rest, rfl, before⟩
    · exact absurd (.inr releases) other
    · obtain ⟨k, mem, paused⟩ := held earlier n rest before releases
      exact ⟨k, List.mem_append_left _ mem, paused⟩

theorem lastCleared_of_clears (clears : m.Clears) : LastCleared (past ++ [m]) past m [] :=
  ⟨rfl, clears, by simp⟩

theorem LastCleared.concat {earlier later : List Moment} {point : Moment}
    (h : LastCleared past earlier point later) (other : ¬ m.Clears) :
    LastCleared (past ++ [m]) earlier point (later ++ [m]) := by
  refine ⟨by simp [h.split], h.clears, ?_⟩
  intro n mem
  rcases List.mem_append.1 mem with mem | mem
  · exact h.last n mem
  · rw [List.mem_singleton.1 mem]
    exact other

/-- There is one moment at which the process last paused or was let go on. -/
theorem LastCleared.unique {earlier earlier' later later' : List Moment} {point point' : Moment}
    (h : LastCleared past earlier point later) (h' : LastCleared past earlier' point' later') :
    earlier = earlier' ∧ point = point' ∧ later = later' := by
  have split := h.split.symm.trans h'.split
  rcases List.append_eq_append_iff.1 split with ⟨between, rfl, rest⟩ | ⟨between, rfl, rest⟩
  · cases between with
    | nil => simpa using rest
    | cons b bs =>
      obtain ⟨rfl, rfl⟩ := List.cons.inj rest
      exact absurd h'.clears (h.last point' (by simp))
  · cases between with
    | nil => simpa [eq_comm] using rest
    | cons b bs =>
      obtain ⟨rfl, rfl⟩ := List.cons.inj rest
      exact absurd h.clears (h'.last point (by simp))

/-- At a moment that clears, only a step of one call asks for a pause. -/
theorem armed_of_clears (clears : m.Clears) :
    Armed (past ++ [m]) ↔ m.incident.step? = some .call := by
  have here : LastCleared (past ++ [m]) past m [] := lastCleared_of_clears clears
  constructor
  · rintro ⟨earlier, point, later, there, asked⟩
    obtain ⟨rfl, rfl, rfl⟩ := here.unique there
    rcases asked with call | ⟨between, n, after, split, -⟩
    · exact call
    · simp at split
  · intro call
    exact ⟨past, m, [], here, .inl call⟩

/-- Any other moment may ask for one. -/
theorem armed_concat {earlier later : List Moment} {point : Moment}
    (h : LastCleared past earlier point later) (other : ¬ m.Clears) :
    Armed (past ++ [m]) ↔
      Armed past ∨ m.incident.Arms point.incident.step? (settingsAfter past) := by
  have here := h.concat other
  constructor
  · rintro ⟨earlier', point', later', there, asked⟩
    obtain ⟨rfl, rfl, rfl⟩ := here.unique there
    rcases asked with call | ⟨between, n, after, split, arms⟩
    · exact .inl ⟨earlier, point, later, h, .inl call⟩
    · rcases append_singleton_eq_split.1 split with ⟨rfl, rfl, -⟩ | ⟨rest, rfl, rfl⟩
      · rw [← h.split] at arms
        exact .inr arms
      · exact .inl ⟨earlier, point, _, h, .inr ⟨between, n, rest, rfl, arms⟩⟩
  · rintro (⟨earlier', point', later', there, asked⟩ | arms)
    · obtain ⟨rfl, rfl, rfl⟩ := h.unique there
      refine ⟨earlier, point, later ++ [m], here, asked.imp_right ?_⟩
      rintro ⟨between, n, after, rfl, arms⟩
      exact ⟨between, n, after ++ [m], by simp, arms⟩
    · refine ⟨earlier, point, later ++ [m], here, .inr ⟨later, m, [], rfl, ?_⟩⟩
      rw [← h.split]
      exact arms

/-! ## What the flags stand for -/

/-- The flags of a break state sum up the past. -/
structure SumsUp (s : BreakState) (past : List Moment) : Prop where
  settings : s.settings = settingsAfter past
  breakpoints : s.breakpoints = breakpointsAfter past
  paused : s.paused = true ↔ Unreleased past
  /-- Of a process that goes on, the flag says whether a pause was asked for. -/
  armed : s.paused = false → (s.breakNext = true ↔ Armed past)
  /-- A step that is not done is the one for which the process was let go on; a step that is done
  has asked for a pause. -/
  stepping : s.paused = false → ∃ earlier point later, LastCleared past earlier point later ∧
    (s.pendingStep = point.incident.step? ∧ point.incident.step? ≠ some .call ∨
      s.pendingStep = none ∧ s.breakNext = true)

theorem sumsUp_start : SumsUp start [] := by
  refine ⟨rfl, rfl, ⟨?_, fun _ => rfl⟩, ?_, ?_⟩
  · intro _ earlier m later split
    simp at split
  · intro going
    simp [start] at going
  · intro going
    simp [start] at going

variable {s : BreakState}

/-- An incident that changes neither whether the process is paused nor its step, and asks for a
pause just if it sets the flag. -/
theorem SumsUp.other (h : SumsUp s past) {s' : BreakState} {i : Incident} (held : ¬ i.Releases)
    (settings : s'.settings = i.settings?.getD s.settings)
    (breakpoints : s'.breakpoints = i.breakpoints?.getD s.breakpoints)
    (paused : s'.paused = s.paused)
    (step : s'.pendingStep = s.pendingStep ∨ s'.pendingStep = none ∧ s'.breakNext = true)
    (flag : ∀ step, s.pendingStep = step ∧ step ≠ some .call ∨
      s.pendingStep = none ∧ s.breakNext = true →
      (s'.breakNext = true ↔ s.breakNext = true ∨ i.Arms step s.settings)) :
    SumsUp s' (past ++ [⟨i, false⟩]) := by
  have other : ¬ (⟨i, false⟩ : Moment).Clears := by simp [Moment.Clears, held]
  refine ⟨?_, ?_, ?_, ?_, ?_⟩
  · rw [settingsAfter_concat, settings, h.settings]
  · rw [breakpointsAfter_concat, breakpoints, h.breakpoints]
  · rw [unreleased_concat other, paused, h.paused]
  · intro going
    rw [paused] at going
    obtain ⟨earlier, point, later, last, course⟩ := h.stepping going
    rw [armed_concat last other, ← h.settings, ← h.armed going]
    exact flag _ course
  · intro going
    rw [paused] at going
    obtain ⟨earlier, point, later, last, course⟩ := h.stepping going
    refine ⟨earlier, point, _, last.concat other, ?_⟩
    rcases step with same | done
    · rw [same]
      refine course.imp_right ?_
      rintro ⟨finished, set⟩
      exact ⟨finished, (flag point.incident.step? (.inr ⟨finished, set⟩)).2 (.inl set)⟩
    · exact .inr done

/-- A report asks for a pause if the settings in force say so. -/
theorem SumsUp.report (h : SumsUp s past) {i : Incident} (enabled : BreakSettings → Bool)
    (held : ¬ i.Releases) (settings : i.settings? = none)
    (breakpoints : i.breakpoints? = none)
    (arms : ∀ step, i.Arms step s.settings ↔ enabled s.settings = true) :
    SumsUp (if enabled s.settings then { s with breakNext := true } else s)
      (past ++ [⟨i, false⟩]) := by
  cases on : enabled s.settings <;>
    exact h.other held (by simp [settings]) (by simp [breakpoints]) (by simp) (by simp)
      (by simp [arms, on])

/-- Where the process pauses. -/
theorem SumsUp.stop (h : SumsUp s past) (e : Entrypoint) :
    SumsUp { s with paused := true, breakNext := false, pendingStep := none }
      (past ++ [⟨.before e, true⟩]) := by
  have held : ¬ (Incident.before e).Releases := by simp [Incident.Releases]
  refine ⟨?_, ?_, ?_, ?_, ?_⟩
  · rw [settingsAfter_concat, h.settings]
    rfl
  · rw [breakpointsAfter_concat, h.breakpoints]
    rfl
  · have stopped : Unreleased (past ++ [⟨.before e, true⟩]) := unreleased_of_paused rfl held
    simp [stopped]
  · simp
  · simp

/-- A process that is let go on forgets what it was to pause for, and notes its step. -/
theorem proceed_of_release (s : BreakState) {how : Proceed} (releases : how.interrupt = false) :
    s.proceed how =
      { s with
        paused := false
        breakNext := decide (how.step = some .call)
        pendingStep := if how.step = some .call then none else how.step } := by
  unfold BreakState.proceed
  rw [if_neg (by simp [releases])]
  cases how.step with
  | none => simp
  | some mode => cases mode <;> simp

/-- Where the process is let go on. -/
theorem SumsUp.release (h : SumsUp s past) {how : Proceed} (releases : how.interrupt = false) :
    SumsUp (s.proceed how) (past ++ [⟨.proceed how, false⟩]) := by
  have released : (Incident.proceed how).Releases := ⟨how, rfl, releases⟩
  have clears : (⟨.proceed how, false⟩ : Moment).Clears := .inr released
  have step : (Incident.proceed how).step? = how.step := by simp [Incident.step?, releases]
  rw [proceed_of_release s releases]
  refine ⟨?_, ?_, ?_, ?_, ?_⟩
  · rw [settingsAfter_concat, h.settings]
    rfl
  · rw [breakpointsAfter_concat, h.breakpoints]
    rfl
  · have going : ¬ Unreleased (past ++ [⟨.proceed how, false⟩]) :=
      not_unreleased_of_releases released
    simp [going]
  · intro _
    rw [armed_of_clears clears, step]
    simp
  · intro _
    refine ⟨_, _, _, lastCleared_of_clears clears, ?_⟩
    by_cases call : how.step = some .call <;> simp [step, call]

/-- A call that ends a step asks for a pause. -/
theorem SumsUp.returned (h : SumsUp s past) (kind : CallKind) :
    SumsUp (s.after kind) (past ++ [⟨.after kind, false⟩]) := by
  have held : ¬ (Incident.after kind).Releases := by simp [Incident.Releases]
  have done : ∀ step, endsStep kind step = true ↔ (Incident.after kind).Arms step s.settings := by
    intro step
    cases step with
    | none => simp [endsStep, Incident.Arms]
    | some mode => cases mode <;> simp [endsStep, Incident.Arms]
  unfold BreakState.after
  split
  case isTrue ends =>
    refine h.other held rfl rfl rfl (.inr ⟨rfl, rfl⟩) ?_
    rintro step (⟨rfl, -⟩ | ⟨finished, -⟩)
    · simp [← done, ends]
    · simp [finished, endsStep] at ends
  case isFalse goes =>
    refine h.other held rfl rfl rfl (.inl rfl) ?_
    rintro step (⟨rfl, -⟩ | ⟨-, set⟩)
    · simp [← done, goes]
    · simp [set]

/-- The flags go on summing up the past. -/
theorem SumsUp.meet (h : SumsUp s past) (i : Incident) :
    SumsUp (s.meet i) (past ++ [⟨i, s.pausesAt i⟩]) := by
  cases i with
  | settings settings =>
    exact h.other (by simp [Incident.Releases]) rfl rfl rfl (.inl rfl)
      (by simp [BreakState.meet, Incident.Arms])
  | breakpoints breakpoints =>
    exact h.other (by simp [Incident.Releases]) rfl rfl rfl (.inl rfl)
      (by simp [BreakState.meet, Incident.Arms])
  | proceed how =>
    cases interrupts : how.interrupt with
    | false => exact h.release interrupts
    | true =>
      have waits : s.proceed how = { s with breakNext := true } := by
        simp [BreakState.proceed, interrupts]
      have held : ¬ (Incident.proceed how).Releases := by simp [Incident.Releases, interrupts]
      simp only [BreakState.meet, waits, pausesAt]
      exact h.other held rfl rfl rfl (.inl rfl) (by simp [Incident.Arms, interrupts])
  | before e =>
    simp only [BreakState.meet, pausesAt, BreakState.before]
    split
    · exact h.stop e
    · exact h.other (by simp [Incident.Releases]) rfl rfl rfl (.inl rfl)
        (by simp [Incident.Arms])
  | after kind => exact h.returned kind
  | error =>
    exact h.report (·.onError) (by simp [Incident.Releases]) rfl rfl
      (by simp [Incident.Arms])
  | debugOutput =>
    exact h.report (·.onDebugOutput) (by simp [Incident.Releases]) rfl rfl
      (by simp [Incident.Arms])
  | compilerError =>
    exact h.report (·.onCompilerError) (by simp [Incident.Releases]) rfl rfl
      (by simp [Incident.Arms])

theorem SumsUp.run (h : SumsUp s past) (is : List Incident) :
    SumsUp (s.run is) (past ++ s.moments is) := by
  induction is generalizing s past with
  | nil => simpa [BreakState.run, moments] using h
  | cons i is ih =>
    have later := ih (h.meet i)
    rw [List.append_assoc] at later
    exact later

/-- **Pauses are neither missed nor made up.** Whatever a break state has been told from the start,
the process pauses before a call just if nothing has let it go on since it last paused, the call is
among the breakpoints set last, or a pause was asked for since it last paused or was let go on. -/
theorem pauses_iff (is : List Incident) (e : Entrypoint) :
    ((start.run is).before e).1 = true ↔
      Unreleased (start.moments is) ∨
      (breakpointsAfter (start.moments is)).contains e = true ∨
      Armed (start.moments is) := by
  have sums : SumsUp (start.run is) (start.moments is) := sumsUp_start.run is
  have first : ((start.run is).before e).1 = (start.run is).hits e := by
    unfold BreakState.before
    split <;> simp [*]
  rw [first, hits, Bool.or_eq_true, Bool.or_eq_true, ← sums.breakpoints, ← sums.paused]
  cases paused : (start.run is).paused with
  | true => simp
  | false =>
    rw [sums.armed paused]
    simp [or_comm]

/-- A step to the end of the next draw call passes over the calls before that. -/
example :
    (start.moments [.before 1, .proceed (.stepping .drawCall), .before 2, .after ⟨false, false⟩,
      .before 3, .after ⟨true, false⟩, .before 4]).map (·.paused) =
      [true, false, false, false, false, false, true] := by
  decide

end BreakState

end CallDebugger
