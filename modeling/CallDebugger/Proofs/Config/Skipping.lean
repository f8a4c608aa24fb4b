import CallDebugger.Proofs.Config.Loading

/-!
# Blank files

Loading skips a file whose lines all look empty or like comments. If each of its lines says nothing
(`Config.isIdleText`), laying it would change nothing, so nobody can tell; otherwise it is no TOML,
and loading would have stopped there (`Config.Overlooks`).

Main fact: `Config.skipping_blank_files`.
-/

namespace CallDebugger.Config

variable {f : Files} {base c : Config} {text origin : String} {p q : Path} {ps : List Path}

/-- Every line of a text says nothing. -/
def isIdleText (text : String) : Bool := (Blank.lines text.toList).all Toml.isIdle

/-! ## Laying a blank text -/

theorem merge_congr {text' : String} (same : Toml.readLayer? text = Toml.readLayer? text') :
    base.merge text = base.merge text' := by
  rw [merge, merge, same]

/-- A blank text changes nothing if its lines say nothing, and is no layer otherwise. -/
theorem merge_of_isBlankText (fits : base.Fits) (blank : isBlankText text) :
    base.merge text = if isIdleText text then .ok base else .error .layer := by
  have read : Toml.readLayer? text = if isIdleText text then some [] else none :=
    Toml.readLayer?_of_blank (isBlankText_iff.1 blank)
  split
  · next idle =>
    rw [if_pos idle] at read
    have empty : Toml.readLayer? "" = some [] := Toml.readLayer?_of_blank (by decide)
    rw [merge_congr (read.trans empty.symm), merge_empty fits]
  · next idle =>
    rw [if_neg idle] at read
    rw [merge, read]

theorem mergeFrom_of_isBlankText (fits : base.Fits) (blank : isBlankText text) :
    mergeFrom origin base text = if isIdleText text then .ok base else .error (.parse origin) := by
  rw [mergeFrom, merge_of_isBlankText fits blank]
  cases isIdleText text <;> rfl

/-! ## Laying every file -/

/-- Lays the files of a list over a configuration, one after the other, blank ones as well. -/
def layerEach (f : Files) (c : Config) : List Path → Except ConfigError Config
  | [] => .ok c
  | p :: rest =>
    (readFile f p).bind fun text => (mergeFrom p.text c text).bind fun c => layerEach f c rest

/-- What loading gives if it skips no file. -/
def loadEach (f : Files) (dir : Path) (project : Option Path) :
    Except ConfigError Config × Files :=
  match ensureFile f dir with
  | (.error e, f) => (.error e, f)
  | (.ok path, f) =>
    ((layerEach f standard (path :: (project.bind (projectFile? f)).toList)).bind checked, f)

/-- A file that is reached is skipped, though it is no TOML. -/
inductive Overlooks (f : Files) : Config → List Path → Path → Prop
  | here {c : Config} {p : Path} {ps : List Path} {text : String} (read : f.read p = .ok text)
    (blank : isBlankText text) (speaks : isIdleText text = false) : Overlooks f c (p :: ps) p
  | later {c d : Config} {p q : Path} {ps : List Path} {text : String}
    (read : f.read p = .ok text) (laid : c.merge text = .ok d) (further : Overlooks f d ps q) :
    Overlooks f c (p :: ps) q

theorem layer_cons (read : f.read p = .ok text) : layer f c (p :: ps) =
    if isBlankText text then layer f c ps
    else (mergeFrom p.text c text).bind fun d => layer f d ps := by
  rw [layer, readFile, read]
  dsimp only
  split
  · rfl
  · cases mergeFrom p.text c text <;> rfl

theorem layerEach_cons (read : f.read p = .ok text) : layerEach f c (p :: ps) =
    (mergeFrom p.text c text).bind fun d => layerEach f d ps := by
  rw [layerEach, readFile, read]
  rfl

theorem mergeFrom_eq_ok_iff {d : Config} :
    mergeFrom origin base text = .ok d ↔ base.merge text = .ok d := by
  unfold mergeFrom
  split
  · next laid => rw [laid, Except.ok.injEq, Except.ok.injEq]
  · next refused => exact iff_of_false nofun (refused ▸ nofun)
  · next refused => exact iff_of_false nofun (refused ▸ nofun)

/-- If no file is skipped, the one that is overlooked is refused. -/
theorem layerEach_of_overlooks (fits : c.Fits) (h : Overlooks f c ps q) :
    layerEach f c ps = .error (.parse q.text) := by
  induction h with
  | here read blank speaks =>
    rw [layerEach_cons read, mergeFrom_of_isBlankText fits blank, speaks]
    rfl
  | later read laid further ih =>
    rw [layerEach_cons read, mergeFrom_eq_ok_iff.2 laid]
    exact ih (fits.merge laid)

/-- Where no file is overlooked, skipping does not matter. -/
theorem layerEach_eq_layer (fits : c.Fits) (none : ∀ q, ¬ Overlooks f c ps q) :
    layerEach f c ps = layer f c ps := by
  induction ps generalizing c with
  | nil => rfl
  | cons p ps ih =>
    cases read : f.read p with
    | error e =>
      have stops : layerEach f c (p :: ps) = .error (.read p e) := by
        rw [layerEach, readFile, read]
        rfl
      rw [stops, layer, readFile, read]
    | ok text =>
      have onward {d : Config} (laid : c.merge text = .ok d) :
          layerEach f d ps = layer f d ps :=
        ih (fits.merge laid) fun q further => none q (.later read laid further)
      rw [layerEach_cons read, layer_cons read]
      by_cases blank : isBlankText text
      · cases idle : isIdleText text with
        | false => exact absurd (.here read blank idle) (none p)
        | true =>
          have laid := merge_of_isBlankText fits blank
          rw [if_pos idle] at laid
          rw [if_pos blank, mergeFrom_eq_ok_iff.2 laid]
          exact onward laid
      · rw [if_neg blank]
        cases merged : mergeFrom p.text c text with
        | error e => rfl
        | ok d => exact onward (mergeFrom_eq_ok_iff.1 merged)

/-- A file that is overlooked is blank. -/
theorem Overlooks.blank (h : Overlooks f c ps q) :
    ∃ text, f.read q = .ok text ∧ isBlankText text := by
  induction h with
  | here read blank _ => exact ⟨_, read, blank⟩
  | later _ _ _ ih => exact ih

/-- Loading never stops at a blank file. -/
theorem layer_ne_parse (fits : c.Fits) (read : f.read q = .ok text) (blank : isBlankText text) :
    layer f c ps ≠ .error (.parse q.text) := by
  induction ps generalizing c with
  | nil => exact nofun
  | cons p ps ih =>
    cases first : f.read p with
    | error e =>
      rw [layer, readFile, first]
      intro h
      cases h
    | ok other =>
      rw [layer_cons first]
      split
      · exact ih fits
      · next solid =>
        rw [mergeFrom]
        split
        · next d laid => exact ih (fits.merge laid)
        · -- A file that is refused is not blank, so it is not the one that is named.
          intro stops
          have same : p = q := congrArg Path.mk (by simpa [Except.bind] using stops)
          rw [same, read] at first
          cases first
          exact solid blank
        · next laid => exact absurd laid (merge_ne_base fits)

/-! ## Loading -/

/-- Loading skips a file though it is no TOML. -/
def Hides (f : Files) (dir : Path) (project : Option Path) (q : Path) : Prop :=
  ∃ path g, ensureFile f dir = (.ok path, g) ∧
    Overlooks g standard (path :: (project.bind (projectFile? g)).toList) q

theorem ne_parse_of_checked {r : Except ConfigError Config} (h : r ≠ .error (.parse origin)) :
    r.bind checked ≠ .error (.parse origin) := by
  cases r with
  | error e => exact h
  | ok c =>
    change c.checked ≠ _
    unfold checked
    split <;> exact nofun

theorem loadEach_eq {dir : Path} {g : Files} (there : ensureFile f dir = (.ok p, g))
    (project : Option Path) : loadEach f dir project =
      ((layerEach g standard (p :: (project.bind (projectFile? g)).toList)).bind checked, g) := by
  rw [loadEach, there]

/-- What is hidden shows when no file is skipped, and nothing else does. -/
theorem loadEach_of_hides {dir : Path} {project : Option Path} (h : Hides f dir project q) :
    loadEach f dir project = (.error (.parse q.text), (load f dir project).2) ∧
      (load f dir project).1 ≠ .error (.parse q.text) := by
  obtain ⟨path, g, there, overlooks⟩ := h
  obtain ⟨text, read, blank⟩ := overlooks.blank
  rw [loadEach_eq there, load_eq there, layerEach_of_overlooks standard_fits overlooks]
  exact ⟨rfl, ne_parse_of_checked (layer_ne_parse standard_fits read blank)⟩

theorem loadEach_eq_load {dir : Path} {project : Option Path}
    (none : ∀ q, ¬ Hides f dir project q) : loadEach f dir project = load f dir project := by
  cases there : ensureFile f dir with
  | mk r g =>
    cases r with
    | error e => rw [loadEach, load, there]
    | ok path =>
      rw [loadEach_eq there, load_eq there, layerEach_eq_layer standard_fits]
      exact fun q overlooks => none q ⟨path, g, there, overlooks⟩

/-- A blank text leaves a configuration as it is if its lines say nothing, and is refused otherwise.
So loading gives the same as if it skipped no file, unless it hides one: then it goes on where it
would have stopped. -/
theorem skipping_blank_files (f : Files) (dir : Path) (project : Option Path) :
    (∀ base text origin, base.Fits → isBlankText text → mergeFrom origin base text =
      if isIdleText text then .ok base else .error (.parse origin)) ∧
    (loadEach f dir project).2 = (load f dir project).2 ∧
    ((loadEach f dir project).1 = (load f dir project).1 ↔ ∀ q, ¬ Hides f dir project q) ∧
    ∀ q, Hides f dir project q → (loadEach f dir project).1 = .error (.parse q.text) := by
  refine ⟨fun base text origin => mergeFrom_of_isBlankText, ?_, ?_, ?_⟩
  · by_cases hidden : ∃ q, Hides f dir project q
    · obtain ⟨q, hides⟩ := hidden
      rw [(loadEach_of_hides hides).1]
    · rw [loadEach_eq_load (not_exists.1 hidden)]
  · refine ⟨fun same q hides => ?_, fun none => congrArg Prod.fst (loadEach_eq_load none)⟩
    obtain ⟨stops, goes⟩ := loadEach_of_hides hides
    rw [stops] at same
    exact goes same.symm
  · intro q hides
    rw [(loadEach_of_hides hides).1]

/-- The file of a user that holds a blank which TOML does not know. -/
theorem skipping_blank_files_wide_blank :
    let f := Files.empty.plant ⟨"/cfg/config.toml"⟩ (Utf8.encode "\u00a0")
    (load f ⟨"/cfg"⟩ none).1 = .ok standard ∧
      (loadEach f ⟨"/cfg"⟩ none).1 = .error (.parse "/cfg/config.toml") ∧
      mergeFrom layerOrigin standard "\u00a0" = .error (.parse layerOrigin) := by
  intro f
  have read : f.read ⟨"/cfg/config.toml"⟩ = .ok "\u00a0" := by decide +kernel
  have blank : isBlankText "\u00a0" := by decide +kernel
  have speaks : isIdleText "\u00a0" = false := by decide +kernel
  have there : ensureFile f ⟨"/cfg"⟩ = (.ok ⟨"/cfg/config.toml"⟩, f) :=
    ensureFile_of_has (by decide +kernel)
  have hides : Hides f ⟨"/cfg"⟩ none ⟨"/cfg/config.toml"⟩ :=
    ⟨_, _, there, .here read blank speaks⟩
  obtain ⟨merging, -, -, stops⟩ := skipping_blank_files f ⟨"/cfg"⟩ none
  refine ⟨by decide +kernel, stops _ hides, ?_⟩
  rw [merging _ _ _ standard_fits blank, speaks]
  rfl

end CallDebugger.Config
