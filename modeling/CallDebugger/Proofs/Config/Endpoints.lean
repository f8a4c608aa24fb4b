import CallDebugger.Program.Start
import CallDebugger.Proofs.Link.Reread

/-!
# Endpoints that are checked, and endpoints that are read

The check of a configuration looks at its endpoint only as far as it may be empty, and it trims the
path of a local socket once more than reading does. Still nothing that is read fails the check, and
behind the mark of a local socket the two agree: a trimmed text ends in a character that is not
blank, so a path with something in it is not blank either (`Blank.trim_eq_nil_iff_of_append`).

Main fact: `Config.check_agrees_with_read`.
-/

namespace CallDebugger

/-! ## Blank ends -/

namespace Blank

theorem isBlank_of_trim_eq_nil {cs : List Char} (h : trim cs = []) : ∀ c ∈ cs, isBlank c := by
  have rest : ∀ c ∈ trimStart cs, isBlank c := List.rdropWhile_eq_nil_iff.1 h
  intro c mem
  rw [← List.takeWhile_append_dropWhile (p := isBlank) (l := cs)] at mem
  rcases List.mem_append.1 mem with front | back
  · exact List.mem_takeWhile_imp front
  · exact rest c back

/-- The end of a trimmed text is blank only if it is empty. -/
theorem trim_eq_nil_iff_of_append {cs front back : List Char} (h : trim cs = front ++ back) :
    trim back = [] ↔ back = [] := by
  constructor
  · intro blank
    by_contra nonempty
    have whole : trim cs ≠ [] := fun nil =>
      nonempty (List.append_eq_nil_iff.1 (h.symm.trans nil)).2
    have solid : ¬ isBlank ((trim cs).getLast whole) := List.rdropWhile_last_not _ _ whole
    have last : (trim cs).getLast whole = back.getLast nonempty := by
      simp only [h, List.getLast_append_of_ne_nil _ nonempty]
    rw [last] at solid
    exact solid (isBlank_of_trim_eq_nil blank _ (List.getLast_mem nonempty))
  · rintro rfl
    rfl

end Blank

/-! ## The check -/

namespace Config

variable {c : Config} {text : String} {v : Violation}

/-- The check finds fault with a text that is empty or just the mark of a local socket, blanks at
its ends apart. -/
theorem endpointViolation?_eq_none_iff : endpointViolation? text = none ↔
    Blank.trim text.toList ≠ [] ∧ Blank.trim text.toList ≠ Endpoint.socketMark := by
  unfold endpointViolation?
  change (if (Blank.trim text.toList).isEmpty then _
    else if Endpoint.socketMark.isPrefixOf (Blank.trim text.toList) &&
      (Blank.trim ((Blank.trim text.toList).drop Endpoint.socketMark.length)).isEmpty then _
    else none) = none ↔ _
  by_cases mark : Endpoint.socketMark <+: Blank.trim text.toList
  · -- The path ends where the trimmed text does, so trimming it again leaves something of it.
    obtain ⟨path, same⟩ := mark
    have blank := Blank.trim_eq_nil_iff_of_append same.symm
    rw [← same]
    simp [Endpoint.socketMark, blank]
  · have unmarked : Endpoint.socketMark.isPrefixOf (Blank.trim text.toList) = false :=
      Bool.eq_false_iff.2 fun h => mark (List.isPrefixOf_iff_prefix.1 h)
    have other : Blank.trim text.toList ≠ Endpoint.socketMark := fun same =>
      mark (same ▸ List.prefix_rfl)
    simp [unmarked, other]

theorem setting_of_endpointViolation? (h : endpointViolation? text = some v) :
    v.setting = "connection.endpoint" := by
  unfold endpointViolation? at h
  dsimp only at h
  split at h
  · cases h
    rfl
  · split at h
    · cases h
      rfl
    · cases h

theorem setting_of_rangeViolation? {setting : String} {high : Nat} {n : UInt64}
    (h : rangeViolation? setting high n = some v) : v.setting = setting := by
  unfold rangeViolation? at h
  split at h
  · cases h
  · cases h
    rfl

theorem setting_of_historyViolation? {n : UInt64} (h : historyViolation? n = some v) :
    v.setting = "peer.history_len" := by
  unfold historyViolation? at h
  split at h
  · cases h
    rfl
  · cases h

/-- Nothing that is wrong with a configuration is about its endpoint. -/
def EndpointPasses (c : Config) : Prop := ∀ v ∈ c.violations, v.setting ≠ "connection.endpoint"

theorem endpointPasses_iff : c.EndpointPasses ↔
    Blank.trim c.endpoint.toList ≠ [] ∧ Blank.trim c.endpoint.toList ≠ Endpoint.socketMark := by
  rw [← endpointViolation?_eq_none_iff]
  constructor
  · intro passes
    cases found : endpointViolation? c.endpoint with
    | none => rfl
    | some v =>
      have listed : v ∈ c.violations := by simp [violations, found]
      exact absurd (setting_of_endpointViolation? found) (passes v listed)
  · intro none v listed
    simp only [violations, none, Option.toList_none, List.nil_append, List.mem_append,
      Option.mem_toList] at listed
    rcases listed with (tick | page) | history
    · rw [setting_of_rangeViolation? tick]
      decide
    · rw [setting_of_rangeViolation? page]
      decide
    · rw [setting_of_historyViolation? history]
      decide

end Config

/-! ## Reading -/

namespace Endpoint

variable {input : String}

/-- Where the check finds fault, reading does too. -/
theorem read_of_fault (h : Blank.trim input.toList = [] ∨ Blank.trim input.toList = socketMark) :
    ∃ fault, read input = .error ⟨input, fault⟩ := by
  unfold read
  rcases h with empty | bare
  · rw [empty]
    exact ⟨.missingPort, rfl⟩
  · rw [bare]
    exact ⟨.emptySocketPath, rfl⟩

/-- Behind the mark of a local socket any path will do. -/
theorem read_of_mark (mark : socketMark <+: Blank.trim input.toList)
    (other : Blank.trim input.toList ≠ socketMark) : ∃ path : String,
      Blank.trim input.toList = socketMark ++ path.toList ∧ read input = .ok (.unix path) := by
  obtain ⟨path, same⟩ := mark
  have nonempty : path ≠ [] := by
    rintro rfl
    exact other (same.symm.trans (List.append_nil _))
  refine ⟨String.ofList path, by rw [String.toList_ofList, same], read_eq_ok_iff.2 ?_⟩
  rw [← same]
  exact ofChars_socket nonempty

end Endpoint

namespace Config

variable {c : Config}

theorem endpointFor_eq (c : Config) (asked : Option String) : c.endpointFor asked =
    (Endpoint.read (asked.getD c.endpoint)).mapError (.endpoint (asked.getD c.endpoint)) := by
  unfold endpointFor
  dsimp only
  cases Endpoint.read (asked.getD c.endpoint) with
  | ok e => rfl
  | error e => rfl

theorem read_of_not_passes (fails : ¬ c.EndpointPasses) :
    ∃ fault, Endpoint.read c.endpoint = .error ⟨c.endpoint, fault⟩ := by
  rw [endpointPasses_iff, not_and_or, not_not, not_not] at fails
  exact Endpoint.read_of_fault fails

theorem EndpointPasses.of_read {e : Endpoint} (read : Endpoint.read c.endpoint = .ok e) :
    c.EndpointPasses := by
  by_contra fails
  obtain ⟨fault, error⟩ := read_of_not_passes fails
  cases read.symm.trans error

theorem EndpointPasses.socket (passes : c.EndpointPasses)
    (mark : Endpoint.socketMark <+: Blank.trim c.endpoint.toList) : ∃ path : String,
      Blank.trim c.endpoint.toList = Endpoint.socketMark ++ path.toList ∧
        Endpoint.read c.endpoint = .ok (.unix path) :=
  Endpoint.read_of_mark mark (endpointPasses_iff.1 passes).2

/-- The check of an endpoint and its reading agree. An endpoint that can be read passes; one behind
the mark of a local socket passes just if it can be read. So no program starts at an endpoint that
does not pass, and the socket of a sound configuration is always found. -/
theorem check_agrees_with_read (c : Config) :
    ((∃ e, Endpoint.read c.endpoint = .ok e) → c.EndpointPasses) ∧
    (Endpoint.socketMark <+: Blank.trim c.endpoint.toList →
      (c.EndpointPasses ↔ ∃ e, Endpoint.read c.endpoint = .ok e)) ∧
    (¬ c.EndpointPasses → ∃ e, c.endpointFor none = .error (.endpoint c.endpoint e) ∧
      ∀ frames, Start.jobOf c (.attach none) = .error (.endpoint c.endpoint e) ∧
        Start.jobOf c (.demo none frames) = .error (.endpoint c.endpoint e)) ∧
    (c.violations = [] → Endpoint.socketMark <+: Blank.trim c.endpoint.toList →
      ∃ path : String, Blank.trim c.endpoint.toList = Endpoint.socketMark ++ path.toList ∧
        c.endpointFor none = .ok (.unix path)) := by
  have taken : (∃ e, Endpoint.read c.endpoint = .ok e) → c.EndpointPasses := by
    rintro ⟨e, read⟩
    exact .of_read read
  refine ⟨taken, fun mark => ⟨fun passes => ?_, taken⟩, fun fails => ?_, fun sound mark => ?_⟩
  · obtain ⟨path, -, read⟩ := passes.socket mark
    exact ⟨_, read⟩
  · obtain ⟨fault, error⟩ := read_of_not_passes fails
    have unfound : c.endpointFor none = .error (.endpoint c.endpoint ⟨c.endpoint, fault⟩) := by
      rw [endpointFor_eq, Option.getD_none, error]
      rfl
    refine ⟨_, unfound, fun frames => ⟨?_, ?_⟩⟩
    · rw [Start.jobOf, unfound]
      rfl
    · rw [Start.jobOf, unfound]
      rfl
  · have passes : c.EndpointPasses := by
      intro v listed
      rw [sound] at listed
      cases listed
    obtain ⟨path, same, read⟩ := passes.socket mark
    refine ⟨path, same, ?_⟩
    rw [endpointFor_eq, Option.getD_none, read]
    rfl

/-- A socket whose path begins with a blank, in wide blanks, and one whose path is blank. -/
theorem check_agrees_with_read_wide_blanks :
    let c := { standard with endpoint := "\u3000unix:\u00a0s\u2003" }
    let d := { standard with endpoint := "unix:\u2003\u00a0" }
    (c.EndpointPasses ∧ c.endpointFor none = .ok (.unix "\u00a0s")) ∧
      ¬ d.EndpointPasses ∧ ∃ e, Start.jobOf d (.attach none) = .error (.endpoint d.endpoint e) := by
  intro c d
  constructor
  · obtain ⟨taken, -, -, found⟩ := check_agrees_with_read c
    have trimmed : Blank.trim c.endpoint.toList = Endpoint.socketMark ++ "\u00a0s".toList := by
      decide
    have read : Endpoint.read c.endpoint = .ok (.unix (String.ofList "\u00a0s".toList)) :=
      Endpoint.read_eq_ok_iff.2 (trimmed ▸ Endpoint.ofChars_socket (by decide))
    obtain ⟨path, same, socket⟩ := found (by decide) (trimmed ▸ List.prefix_append _ _)
    obtain rfl : path = "\u00a0s" :=
      String.toList_inj.1 (List.append_cancel_left (same.symm.trans trimmed))
    exact ⟨taken ⟨_, read⟩, socket⟩
  · obtain ⟨-, agree, refused, -⟩ := check_agrees_with_read d
    have trimmed : Blank.trim d.endpoint.toList = Endpoint.socketMark := by decide
    obtain ⟨fault, error⟩ := Endpoint.read_of_fault (.inr trimmed)
    have unread : ¬ ∃ e, Endpoint.read d.endpoint = .ok e := by
      rintro ⟨e, read⟩
      cases read.symm.trans error
    have fails := mt (agree (trimmed ▸ List.prefix_rfl)).1 unread
    obtain ⟨e, -, jobless⟩ := refused fails
    exact ⟨fails, e, (jobless none).1⟩

end Config

end CallDebugger
