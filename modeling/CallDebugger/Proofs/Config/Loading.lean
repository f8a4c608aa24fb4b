import CallDebugger.Config.Load
import CallDebugger.Proofs.Config.Layering
import CallDebugger.Proofs.Files.Pieces
import CallDebugger.Proofs.Files.Ways
import CallDebugger.Proofs.Toml.Idle

/-!
# Loading a configuration

Loading comes to three things: the file of the configuration directory is there afterwards, written
only if the path led nowhere (`Config.Provided`); the standard configuration is laid under that file
and under the one of the nearest project (`Config.Layered`); and what is left is checked. Loading
again in the tree that is left gives the same and changes nothing.

Main facts: `Config.ensureFile_eq_ok_iff`, `Config.Provided.created`, `Config.layered`,
`Config.load_layers`.
-/

namespace CallDebugger.Config

variable {f g : Files} {dir p start : Path} {ps : List Path} {c d : Config} {text : String}

/-! ## The file of the configuration directory -/

/-- The tree that a configuration directory leaves: the same one if the path of its file leads
anywhere, and otherwise one in which the directory and then the file were made. -/
inductive Provided (f : Files) (dir : Path) : Files → Prop
  | there (has : f.has (dir.join fileName)) : Provided f dir f
  | made {grown g : Files} (missing : f.has (dir.join fileName) = false)
    (directories : f.makeDirectories dir = (.ok (), grown))
    (file : grown.write (dir.join fileName) commented = .ok g) : Provided f dir g

/-- The tree in which the file of a configuration directory was missing has it now, all in comments.
It takes nobody's place, unless its path leads up again from a directory that was missing: then it
replaces the file that the path leads to now. Everything else that is new is a directory, where a
path at or above the configuration directory leads. -/
structure Created (dir : Path) (f g : Files) (spot : Place) : Prop where
  current : g.current = f.current
  found : g.find (dir.join fileName) = .ok (spot, .file (Utf8.encode commented))
  replaced : ∀ n, f.node? spot = some n → (∃ content, n = .file content) ∧
    f.place (dir.join fileName) = .error .notFound ∧
    (f.Rooted → ['.', '.'] ∈ Path.pieces (dir.join fileName).text.toList)
  others : ∀ other, other ≠ spot → g.node? other = f.node? other ∨
    f.node? other = none ∧ g.node? other = some .directory ∧
      ∃ up ∈ dir.ancestors, g.place up = .ok other

theorem has_of_find {node : Place × Node} (h : f.find p = .ok node) : f.has p := by
  rw [Files.has, h]
  rfl

/-- The file of a configuration directory is found just if its tree can be provided. -/
theorem ensureFile_eq_ok_iff :
    ensureFile f dir = (.ok p, g) ↔ p = dir.join fileName ∧ Provided f dir g := by
  constructor
  · intro h
    unfold ensureFile at h
    dsimp only at h
    split at h
    · next has =>
      cases h
      exact ⟨rfl, .there has⟩
    · next missing =>
      split at h
      · cases h
      · next directories =>
        split at h
        · cases h
        · next file =>
          cases h
          exact ⟨rfl, .made (by simpa using missing) directories file⟩
  · rintro ⟨rfl, has | ⟨missing, directories, file⟩⟩
    · simp [ensureFile, has]
    · simp [ensureFile, missing, directories, file]

theorem exists_provided (ensured : (ensureFile f dir).1 = .ok p) : ∃ g, Provided f dir g :=
  ⟨_, (ensureFile_eq_ok_iff.1 (Prod.ext ensured rfl)).2⟩

/-- Where the tree cannot be provided, the file cannot be written. -/
theorem exists_write_error (none : ∀ g, ¬ Provided f dir g) :
    ∃ e g, ensureFile f dir = (.error (.write (dir.join fileName) e), g) := by
  unfold ensureFile
  dsimp only
  split
  · next has => exact absurd (.there has) (none f)
  · next missing =>
    split
    · exact ⟨_, _, rfl⟩
    · next grown directories =>
      split
      · exact ⟨_, _, rfl⟩
      · next g file =>
        exact absurd (.made (by simpa using missing) directories file) (none g)

/-- A tree that has the file already is left alone. -/
theorem Provided.eq_of_has (h : Provided f dir g) (has : f.has (dir.join fileName)) : g = f := by
  cases h with
  | there => rfl
  | made missing =>
    rw [has] at missing
    cases missing

/-- The file of a configuration directory is made if it is missing, and nothing else but
directories. -/
theorem Provided.created (h : Provided f dir g) (missing : f.has (dir.join fileName) = false) :
    ∃ spot, Created dir f g spot := by
  cases h with
  | there has =>
    rw [has] at missing
    cases missing
  | @made grown _ _ directories file =>
    have hgrown := Files.Grown.makeChain directories
    obtain ⟨spot, nonroot, plain, rfl, hfind⟩ := Files.find_of_writeBytes file
    have hd : grown.node? spot ≠ some .directory := fun h => nomatch (plain _ h).choose_spec
    have put : Files.Keeps grown (grown.put spot (.file (Utf8.encode commented))) :=
      .put nonroot (.inl hd)
    have hfile := Files.node?_put_self grown nonroot (.file (Utf8.encode commented))
    have hplace := Files.place_of_find hfind
    have nowhere {n : Node} (hn : f.node? spot = some n) :
        f.place (dir.join fileName) ≠ .ok spot := fun h => by
      rw [has_of_find (Files.find_of_place h hn)] at missing
      cases missing
    refine ⟨spot, hgrown.keeps.current, hfind, fun n hn => ⟨?_, ?_, fun rooted => ?_⟩, ?_⟩
    · obtain same | ⟨none, -⟩ := hgrown.new spot
      · exact plain n (same.trans hn)
      · rw [none] at hn
        cases hn
    · -- Only directories were made, so those that the path goes through were there or missing.
      refine (Files.place_eq_ok_or_notFound (hgrown.keeps.trans put).current
        (fun other hother => ?_) hplace).resolve_left (nowhere hn)
      have apart : other ≠ spot := by
        rintro rfl
        rw [hfile] at hother
        cases hother
      rw [Files.node?_put_of_ne grown apart] at hother
      exact (hgrown.new other).imp (fun same => same.symm.trans hother) And.left
    · by_contra hup
      exact nowhere hn (rooted.place (by simp [hn]) (by simp [hfile]) hup
        (hgrown.keeps.trans put) hplace)
    · intro other apart
      rw [Files.node?_put_of_ne grown apart]
      exact (hgrown.new other).imp_right fun ⟨hf, hg, up, hup, hplace⟩ =>
        ⟨hf, hg, up, hup, put.place hplace⟩

/-- A path that leads up again from a missing directory leads to a file after all, once that
directory is made, and the file is replaced. -/
example :
    let f := Files.empty.plant ⟨"/cfg/config.toml"⟩ (Utf8.encode "[peer]\nhistory_len = 50")
    let spot := ["cfg", "config.toml"]
    f.has ⟨"/gone/../cfg/config.toml"⟩ = false ∧ (f.node? spot).isSome ∧
      (ensureFile f ⟨"/gone/../cfg"⟩).2.node? spot ≠ f.node? spot := by
  decide +kernel

theorem Provided.has (h : Provided f dir g) : g.has (dir.join fileName) := by
  cases there : f.has (dir.join fileName) with
  | true => rwa [h.eq_of_has there]
  | false =>
    obtain ⟨spot, created⟩ := h.created there
    exact has_of_find created.found

theorem ensureFile_of_has (h : f.has (dir.join fileName)) :
    ensureFile f dir = (.ok (dir.join fileName), f) :=
  ensureFile_eq_ok_iff.2 ⟨rfl, .there h⟩

/-! ## The file of the nearest project -/

/-- The file of the project that a directory holds. -/
def fileAt (dir : Path) : Path := (dir.join projectDirectory).join fileName

/-- The file of the nearest project at or above a directory, if there is a directory to start at and
there is such a file. -/
inductive Nearest (f : Files) : Option Path → Option Path → Prop
  | nowhere : Nearest f none none
  | from {start : Path} {found : Option Path}
    (first : Path.FirstAbove (fun dir => f.hasFile (fileAt dir)) start found) :
    Nearest f (some start) (found.map fileAt)

theorem nearest_projectFile? (f : Files) (project : Option Path) :
    Nearest f project (project.bind (projectFile? f)) := by
  cases project with
  | none => exact .nowhere
  | some start =>
    have hfind : projectFile? f start =
        (start.ancestors.find? fun dir => f.hasFile (fileAt dir)).map fileAt := by
      rw [projectFile?, projectFiles, List.find?_map]
      rfl
    rw [Option.bind_some, hfind]
    exact .from (Path.firstAbove_find? _ start)

/-! ## Layers -/

/-- What the text of a file counts as: nothing if it is blank. -/
def substance (text : String) : String := if isBlankText text then "" else text

/-- What comes of laying files over a configuration one after the other: the first that cannot be
read or is no layer for what is below it is named, and otherwise what is left in the end is
checked. -/
inductive Layered (f : Files) : Config → List Path → Except ConfigError Config → Prop
  | checked (c : Config) : Layered f c [] c.checked
  | unread {c : Config} {p : Path} {ps : List Path} {e : FileError} (unread : f.read p = .error e) :
    Layered f c (p :: ps) (.error (.read p e))
  | refused {c : Config} {p : Path} {ps : List Path} {text : String} {fault : LayerFault}
    (read : f.read p = .ok text) (refused : c.merge (substance text) = .error fault) :
    Layered f c (p :: ps) (.error (.parse p.text))
  | laid {c d : Config} {p : Path} {ps : List Path} {text : String}
    {result : Except ConfigError Config} (read : f.read p = .ok text)
    (laid : c.merge (substance text) = .ok d) (further : Layered f d ps result) :
    Layered f c (p :: ps) result

/-- A configuration that fits is never at fault itself. -/
theorem merge_ne_base (fits : c.Fits) : c.merge text ≠ .error .base := by
  obtain ⟨t, ht⟩ := exists_toTable?_iff.2 fits
  unfold merge
  rw [ht]
  split
  · simp
  · dsimp only
    split <;> simp

/-- Laying files over a configuration and checking what is left. -/
theorem layered (fits : c.Fits) : Layered f c ps ((layer f c ps).bind checked) := by
  induction ps generalizing c with
  | nil => exact .checked c
  | cons p ps ih =>
    unfold layer readFile
    cases hread : f.read p with
    | error e => exact .unread hread
    | ok text =>
      dsimp only
      by_cases blank : isBlankText text
      · have hsub : substance text = "" := if_pos blank
        rw [if_pos blank]
        exact .laid hread (hsub ▸ merge_empty fits) (ih fits)
      · have hsub : substance text = text := if_neg blank
        rw [if_neg blank]
        unfold mergeFrom
        cases hmerge : c.merge text with
        | ok d => exact .laid hread (hsub.symm ▸ hmerge) (ih (fits.merge hmerge))
        | error fault =>
          cases fault with
          | base => exact absurd hmerge (merge_ne_base fits)
          | layer => exact .refused hread (hsub.symm ▸ hmerge)

theorem eq_of_checked (h : c.checked = .ok d) : d = c := by
  unfold checked at h
  split at h
  · cases h
    rfl
  · cases h

/-- What the last file says about a setting wins. -/
theorem Layered.last (h : Layered f c (ps ++ [p]) (.ok d)) : ∃ text, f.read p = .ok text ∧
    ∀ s v, Says (substance text) s v → s.read? v = some (d.value s) := by
  induction ps generalizing c with
  | nil =>
    generalize hr : Except.ok d = r at h
    cases h with
    | unread | refused => cases hr
    | laid read laid further =>
      cases further
      obtain rfl := eq_of_checked hr.symm
      refine ⟨_, read, ?_⟩
      rintro s v ⟨layer, hl, hv⟩
      exact read?_of_merge laid hl hv
  | cons q ps ih =>
    cases h with
    | laid _ _ further => exact ih further

theorem load_eq (hf : ensureFile f dir = (.ok p, g)) (project : Option Path) :
    load f dir project =
      ((layer g standard (p :: (project.bind (projectFile? g)).toList)).bind checked, g) := by
  unfold load
  rw [hf]
  dsimp only
  split
  · next h => rw [h]; rfl
  · next h => rw [h]; rfl

/-! ## The first run -/

theorem isBlankText_iff :
    isBlankText text ↔ ∀ line ∈ Blank.lines text.toList, Blank.isEmptyOrComment line :=
  List.all_eq_true

theorem lines_flatMap {texts : List String} (uncut : ∀ t ∈ texts, '\n' ∉ t.toList) :
    Blank.lines (texts.flatMap fun t => t.toList ++ ['\n']) =
      texts.map fun t => Blank.ended t.toList := by
  induction texts with
  | nil => rfl
  | cons t texts ih =>
    have rest := ih fun u mem => uncut u (.tail _ mem)
    rw [List.flatMap_cons, List.append_assoc, List.singleton_append,
      Blank.lines_append (uncut t (.head _)), rest, List.map_cons]

theorem isBlankText_commented : isBlankText commented := by
  have joined : commented.toList = commentedLines.flatMap fun t => t.toList ++ ['\n'] := by
    simp [commented, String.toList_join, List.flatMap_map]
  have each : ∀ t ∈ commentedLines,
      '\n' ∉ t.toList ∧ Blank.isEmptyOrComment (Blank.ended t.toList) := by decide +kernel
  rw [isBlankText_iff, joined, lines_flatMap fun t mem => (each t mem).1, List.forall_mem_map]
  exact fun t mem => (each t mem).2

theorem readFile_of_find {spot : Place} (found : f.find p = .ok (spot, .file (Utf8.encode text))) :
    readFile f p = .ok text := by
  simp only [readFile, Files.read, Files.bytes, found, Utf8.decode_encode]

/-- The standard configuration passes its check. -/
theorem checked_standard : standard.checked = .ok standard := by
  have sound : standard.violations = [] := by decide +kernel
  rw [checked, sound]

/-- The file that is made says nothing, so a first run outside of projects gives the standard
configuration. -/
theorem load_first_run (provided : Provided f dir g)
    (missing : f.has (dir.join fileName) = false) : load f dir none = (.ok standard, g) := by
  obtain ⟨spot, created⟩ := provided.created missing
  have read := readFile_of_find created.found
  have laid : layer g standard [dir.join fileName] = .ok standard := by
    rw [layer, read]
    dsimp only
    rw [if_pos isBlankText_commented, layer]
  rw [load_eq (ensureFile_eq_ok_iff.2 ⟨rfl, provided⟩), Option.bind_none, Option.toList_none, laid,
    Except.bind, checked_standard]

/-! ## Every run -/

/-- What loading comes to. The file of the configuration directory is left alone if its path leads
anywhere, and made otherwise, or loading fails where that does. Then that file and the one of the
nearest project are laid over the standard configuration. What the project says wins, and loading
again gives the same and changes nothing. -/
theorem load_layers (f : Files) (dir : Path) (project : Option Path) :
    (∀ g, Provided f dir g → ∃ result, load f dir project = (result, g) ∧
      (f.has (dir.join fileName) → g = f) ∧
      (f.has (dir.join fileName) = false → ∃ spot, Created dir f g spot) ∧
      (∃ nearest, Nearest g project nearest ∧
        Layered g standard (dir.join fileName :: nearest.toList) result ∧
        ∀ p ∈ nearest, ∀ c, result = .ok c → ∃ text, g.read p = .ok text ∧
          ∀ s v, Says (substance text) s v → s.read? v = some (c.value s)) ∧
      load g dir project = (result, g)) ∧
    ((∀ g, ¬ Provided f dir g) →
      ∃ e, (load f dir project).1 = .error (.write (dir.join fileName) e)) := by
  constructor
  · intro g provided
    have laid : Layered g standard
        (dir.join fileName :: (project.bind (projectFile? g)).toList) _ := layered standard_fits
    refine ⟨_, load_eq (ensureFile_eq_ok_iff.2 ⟨rfl, provided⟩) project, provided.eq_of_has,
      provided.created, ⟨_, nearest_projectFile? g project, laid, fun p hp c hc => ?_⟩,
      load_eq (ensureFile_of_has provided.has) project⟩
    rw [hc, hp] at laid
    change Layered g standard ([dir.join fileName] ++ [p]) (.ok c) at laid
    exact laid.last
  · intro none
    obtain ⟨e, g, failed⟩ := exists_write_error none
    exact ⟨e, by rw [load, failed]⟩

/-- A project says something else than its user. In another tree neither the file of the user nor
its directory is there. -/
theorem load_layers_user_project :
    let f := (Files.empty.plant ⟨"/cfg/config.toml"⟩ (Utf8.encode "[peer]\nhistory_len = 50")).plant
      ⟨"/home/.tracedbg/config.toml"⟩ (Utf8.encode "breakpoints = [7]")
    load f ⟨"/cfg"⟩ (some ⟨"/home/src"⟩) =
        (.ok { standard with breakpoints := [7], historyLength := 50 }, f) ∧
      ∃ g spot, Created ⟨"/etc/app"⟩ f g spot ∧ load f ⟨"/etc/app"⟩ none = (.ok standard, g) ∧
        load g ⟨"/etc/app"⟩ none = (.ok standard, g) := by
  intro f
  constructor
  · have result : (load f ⟨"/cfg"⟩ (some ⟨"/home/src"⟩)).1 =
        .ok { standard with breakpoints := [7], historyLength := 50 } := by decide +kernel
    have there : f.has ((⟨"/cfg"⟩ : Path).join fileName) := by decide +kernel
    obtain ⟨r, loaded, -⟩ := (load_layers f ⟨"/cfg"⟩ (some ⟨"/home/src"⟩)).1 f (.there there)
    obtain rfl : r = _ := (congrArg Prod.fst loaded).symm.trans result
    exact loaded
  · have missing : f.has ((⟨"/etc/app"⟩ : Path).join fileName) = false := by decide +kernel
    have ensured : (ensureFile f ⟨"/etc/app"⟩).1 = .ok ((⟨"/etc/app"⟩ : Path).join fileName) := by
      decide +kernel
    obtain ⟨g, provided⟩ := exists_provided ensured
    have first := load_first_run provided missing
    obtain ⟨r, loaded, -, created, -, again⟩ := (load_layers f ⟨"/etc/app"⟩ none).1 g provided
    obtain rfl : r = _ := (congrArg Prod.fst loaded).symm.trans (congrArg Prod.fst first)
    obtain ⟨spot, created⟩ := created missing
    exact ⟨g, spot, created, loaded, again⟩

end CallDebugger.Config
