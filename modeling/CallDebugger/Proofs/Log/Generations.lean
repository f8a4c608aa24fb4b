import CallDebugger.Log.Rotation
import CallDebugger.Proofs.Files.Entries

/-!
# The generations of a log

The log counts as generation 0. Rotating it moves every generation that is kept to the next one and
leaves the log free; the last one that is kept is dropped, and nothing else changes
(`Rotation.Rotated`). Going from the last generation to the first, each move finds its target free,
which is what carries the loop. Over a run of writes and rotations the generations therefore hold
the logs that were rotated last, the newest one first.

The names of the generations are longer than the one of the log, and the later ones longer than the
earlier ones. Rotating wants room for those that something is to move to (`Rotation.Room`); where
one of them is too long, nothing has been moved before it is found out, and nothing is
(`Rotation.rotate_of_cramped`).

Main facts: `Rotation.Logs.shift`, `Rotation.rotate_of_full`, `Rotation.rotate_of_cramped`,
`Rotation.Holds.run`, `Rotation.rotate_generations`.
-/

namespace CallDebugger.Rotation

open Files (Filed Moved Keeps)

/-! ## Names -/

/-- The name of a generation; generation 0 is the log itself. -/
def nameOf (name : String) : Nat → String
  | 0 => name
  | n + 1 => name ++ "." ++ toString (n + 1)

/-- The path of a generation; generation 0 is the log itself. -/
def pathOf (log : Path) : Nat → Path
  | 0 => log
  | n + 1 => generation log (n + 1)

/-- The place of a generation in the directory of its log. -/
def spotOf (home : Place) (name : String) (n : Nat) : Place := home ++ [nameOf name n]

theorem pathOf_zero (log : Path) : pathOf log 0 = log := rfl

theorem pathOf_succ (log : Path) (n : Nat) : pathOf log (n + 1) = generation log (n + 1) := rfl

theorem toList_nameOf_succ (name : String) (n : Nat) :
    (nameOf name (n + 1)).toList = name.toList ++ '.' :: Nat.toDigits 10 (n + 1) := by
  rw [nameOf, Nat.toString_eq_ofList_toDigits]
  simp

/-- No two generations have the same name. -/
theorem nameOf_injective (name : String) : Function.Injective (nameOf name) := by
  intro m n h
  have hlist := congrArg String.toList h
  cases m with
  | zero =>
    cases n with
    | zero => rfl
    | succ n =>
      rw [toList_nameOf_succ] at hlist
      simpa [nameOf] using congrArg List.length hlist
  | succ m =>
    cases n with
    | zero =>
      rw [toList_nameOf_succ] at hlist
      simpa [nameOf] using congrArg List.length hlist
    | succ n =>
      rw [toList_nameOf_succ, toList_nameOf_succ, List.append_cancel_left_eq,
        List.cons.injEq] at hlist
      have hvalue := congrArg (Nat.ofDigitChars 10 · 0) hlist.2
      simpa only [Nat.ofDigitChars_ten_toDigits] using hvalue

theorem nameOf_ne {name : String} {m n : Nat} (h : m ≠ n) : nameOf name m ≠ nameOf name n :=
  (nameOf_injective name).ne h

theorem spotOf_ne {home : Place} {name : String} {m n : Nat} (h : m ≠ n) :
    spotOf home name m ≠ spotOf home name n := by
  simpa [spotOf] using nameOf_ne h

theorem utf8ByteSize_of_digits {cs : List Char} (digits : ∀ c ∈ cs, c.isDigit) :
    (String.ofList cs).utf8ByteSize = cs.length := by
  induction cs with
  | nil => rfl
  | cons c cs ih =>
    have one : c.utf8Size = 1 := by
      have digit := digits c (.head _)
      rw [Char.isDigit, Bool.and_eq_true, decide_eq_true_iff, decide_eq_true_iff] at digit
      exact Char.utf8Size_eq_one_iff.2 (UInt32.le_trans digit.2 (by decide))
    rw [String.ofList_cons, String.utf8ByteSize_append, String.utf8ByteSize_singleton, one,
      ih fun d mem => digits d (.tail _ mem), List.length_cons, Nat.add_comm]

/-- A larger number is not shorter. -/
theorem utf8ByteSize_toString_mono {m n : Nat} (h : m ≤ n) :
    (toString m).utf8ByteSize ≤ (toString n).utf8ByteSize := by
  have size (n : Nat) : (toString n).utf8ByteSize = (Nat.toDigits 10 n).length := by
    rw [Nat.toString_eq_ofList_toDigits]
    exact utf8ByteSize_of_digits fun c =>
      Nat.isDigit_of_mem_toDigits (by decide) (by decide)
  have bound {m k : Nat} (hk : 0 < k) : (Nat.toDigits 10 m).length ≤ k ↔ m < 10 ^ k :=
    Nat.length_toDigits_le_iff (by decide) hk
  rw [size, size, bound Nat.length_toDigits_pos]
  exact Nat.lt_of_le_of_lt h ((bound Nat.length_toDigits_pos).1 le_rfl)

/-- The name of a later generation is not shorter. -/
theorem utf8ByteSize_nameOf_mono {name : String} {m n : Nat} (hm : 1 ≤ m) (h : m ≤ n) :
    (nameOf name m).utf8ByteSize ≤ (nameOf name n).utf8ByteSize := by
  obtain ⟨m, rfl⟩ := Nat.exists_eq_add_of_le' hm
  obtain ⟨n, rfl⟩ := Nat.exists_eq_add_of_le' (hm.trans h)
  have digits := utf8ByteSize_toString_mono h
  simp only [nameOf, String.utf8ByteSize_append]
  omega

/-- The name of a generation has no other characters than the one of the log, a point and digits. -/
theorem notMem_nameOf {name : String} (n : Nat) {c : Char} (hc : c ∉ name.toList) (hdot : c ≠ '.')
    (hdigit : c.isDigit = false) : c ∉ (nameOf name n).toList := by
  cases n with
  | zero => exact hc
  | succ n =>
    rw [toList_nameOf_succ]
    intro h
    obtain h | h := List.mem_append.1 h
    · exact hc h
    · obtain rfl | h := List.mem_cons.1 h
      · exact hdot rfl
      · rw [Nat.isDigit_of_mem_toDigits (by decide) (by decide) h] at hdigit
        cases hdigit

theorem isName_nameOf {name : String} (hname : Path.IsName name.toList) (n : Nat) :
    Path.IsName (nameOf name n).toList := by
  cases n with
  | zero => exact hname
  | succ n =>
    rw [toList_nameOf_succ]
    have hne : name.toList ≠ [] := by
      intro h
      simpa [h, Path.isVoid] using hname.1
    have hdigits := List.length_pos_iff.2 (Nat.toDigits_ne_nil (b := 10) (n := n + 1))
    have hlength := List.length_pos_iff.2 hne
    have hlong : 3 ≤ (name.toList ++ '.' :: Nat.toDigits 10 (n + 1)).length := by
      rw [List.length_append, List.length_cons]
      omega
    generalize name.toList ++ '.' :: Nat.toDigits 10 (n + 1) = cs at hlong
    constructor
    · refine Bool.eq_false_iff.2 fun h => ?_
      obtain rfl | rfl := Path.isVoid_iff.1 h <;> simp at hlong
    · rintro rfl
      simp at hlong

/-! ## The directory of a log -/

/-- The name and the path of a generation are not too long. -/
structure Fits (log : Path) (name : String) (n : Nat) : Prop where
  name : Files.isLong (nameOf name n) = false
  path : (pathOf log n).text.utf8ByteSize < Files.pathLimit

/-- A log in its directory, of which some generations are kept: nothing but plain files has one of
their names. The log and the generations that are there fit. -/
structure Logs (f : Files) (log : Path) (home : Place) (name : String) (keep : Nat) : Prop where
  slot : f.slot log = .ok ⟨home, some name, false⟩
  fits : Fits log name 0
  held : ∀ n ≤ keep, ∀ node, f.node? (spotOf home name n) = some node →
    (∃ content, node = .file content) ∧ Fits log name n

/-- Whatever there is to move, all but the last generation that is kept, fits where it moves to. -/
def Room (f : Files) (log : Path) (home : Place) (name : String) (keep : Nat) : Prop :=
  ∀ n < keep, f.node? (spotOf home name n) ≠ none → Fits log name (n + 1)

variable {f g : Files} {log : Path} {home : Place} {name : String} {keep : Nat} {r : Rotation}

section

variable (hs : f.slot log = .ok ⟨home, some name, false⟩)

include hs

theorem pathOf_succ_eq (n : Nat) : pathOf log (n + 1) = log.withFileName (nameOf name (n + 1)) := by
  rw [pathOf, generation, Files.fileName?_of_slot hs]
  rfl

/-- The names of the generations are names as the one of the log is. -/
theorem isName_of_slot (n : Nat) : Path.IsName (nameOf name n).toList ∧
    '/' ∉ (nameOf name n).toList ∧ '\x00' ∉ (nameOf name n).toList := by
  obtain ⟨spot, above, tail, hr, -⟩ := Files.exists_reaches_of_slot hs
  have hmem : name.toList ∈ Path.pieces log.text.toList := by
    rw [hr.pieces]
    simp
  have hslash : '/' ∉ name.toList := Path.slash_notMem_of_mem_pieces hmem
  have hnul : '\x00' ∉ name.toList := fun h =>
    (Files.start_eq_ok_iff.1 hr.start).2.1 ((Path.mem_iff_of_ne_slash (by decide)).2 ⟨_, hmem, h⟩)
  exact ⟨isName_nameOf hr.isName _, notMem_nameOf _ hslash (by decide) (by decide),
    notMem_nameOf _ hnul (by decide) (by decide)⟩

/-- A generation has its slot beside the one of the log, if its path is not too long. -/
theorem slot_pathOf (n : Nat) (room : (pathOf log n).text.utf8ByteSize < Files.pathLimit) :
    f.slot (pathOf log n) = .ok ⟨home, some (nameOf name n), false⟩ := by
  cases n with
  | zero => exact hs
  | succ n =>
    obtain ⟨isName, plain, nul⟩ := isName_of_slot hs (n + 1)
    rw [pathOf_succ_eq hs] at room ⊢
    exact Files.slot_withFileName hs isName plain nul room

/-- A path that is too long leads nowhere. -/
theorem start_pathOf_of_long {n : Nat}
    (long : Files.pathLimit ≤ (pathOf log (n + 1)).text.utf8ByteSize) :
    f.start (pathOf log (n + 1)) = .error .nameTooLong := by
  obtain ⟨isName, plain, nul⟩ := isName_of_slot hs (n + 1)
  rw [pathOf_succ_eq hs] at long ⊢
  rw [Files.start_withFileName hs isName plain nul, if_pos long]

/-- A generation fits if a later one does. -/
theorem Fits.mono {m n : Nat} (h : Fits log name n) (hm : 1 ≤ m) (hmn : m ≤ n) :
    Fits log name m := by
  have size : (nameOf name m).utf8ByteSize ≤ (nameOf name n).utf8ByteSize :=
    utf8ByteSize_nameOf_mono hm hmn
  constructor
  · have short := h.name
    simp only [Files.isLong, decide_eq_false_iff_not] at short ⊢
    omega
  · obtain ⟨front, text⟩ := Path.exists_text_withFileName log
    have path := h.path
    obtain ⟨m, rfl⟩ := Nat.exists_eq_add_of_le' hm
    obtain ⟨n, rfl⟩ := Nat.exists_eq_add_of_le' (hm.trans hmn)
    rw [pathOf_succ_eq hs, text _ (isName_of_slot hs _).2.1, String.utf8ByteSize_append] at path ⊢
    omega

/-- Nothing is found under a name that does not fit. -/
theorem not_has_of_not_fits {n : Nat} (long : ¬ Fits log name (n + 1)) :
    f.has (pathOf log (n + 1)) = false := by
  by_cases room : (pathOf log (n + 1)).text.utf8ByteSize < Files.pathLimit
  · exact Files.not_has_of_isLong (slot_pathOf hs _ room)
      (Bool.of_not_eq_false fun short => long ⟨short, room⟩)
  · exact Files.not_has_of_start_error (start_pathOf_of_long hs (Nat.not_lt.1 room))

end

theorem Logs.filed (hl : Logs f log home name keep) {n : Nat} (hn : n ≤ keep)
    (fits : Fits log name n) : f.Filed (pathOf log n) home (nameOf name n) :=
  ⟨slot_pathOf hl.slot n fits.path, fits.name, fun node hnode => (hl.held n hn node hnode).1⟩

theorem Logs.filed_log (hl : Logs f log home name keep) : f.Filed log home name :=
  hl.filed (Nat.zero_le _) hl.fits

/-- A generation is found just if it is there. -/
theorem Logs.has_iff (hl : Logs f log home name keep) {n : Nat} (hn : n ≤ keep) :
    f.has (pathOf log n) ↔ f.node? (spotOf home name n) ≠ none := by
  by_cases fits : Fits log name n
  · exact (hl.filed hn fits).has_iff
  · have free : f.node? (spotOf home name n) = none := by
      by_contra there
      obtain ⟨node, hnode⟩ := Option.ne_none_iff_exists'.1 there
      exact fits (hl.held n hn node hnode).2
    cases n with
    | zero => exact absurd hl.fits fits
    | succ n => simp [not_has_of_not_fits hl.slot fits, free]

/-- The log and its generations stay where they are, if no directory goes and what comes is a plain
file that fits. -/
theorem Logs.of_keeps (hl : Logs f log home name keep) (hk : Keeps f g)
    (held : ∀ n ≤ keep, ∀ node, g.node? (spotOf home name n) = some node →
      (∃ content, node = .file content) ∧ Fits log name n) : Logs g log home name keep :=
  ⟨hk.slot hl.slot, hl.fits, held⟩

/-- A generation that fits may be written. -/
theorem Logs.put (hl : Logs f log home name keep) {n : Nat} (hn : n ≤ keep)
    (fits : Fits log name n) (content : Bytes) :
    Logs (f.put (spotOf home name n) (.file content)) log home name keep := by
  have nonroot : spotOf home name n ≠ [] := by simp [spotOf]
  refine hl.of_keeps (.put nonroot (.inl (hl.filed hn fits).ne_directory)) ?_
  intro m hm node hnode
  by_cases h : m = n
  · subst h
    rw [Files.node?_put_self f nonroot] at hnode
    exact ⟨⟨content, (Option.some.inj hnode).symm⟩, fits⟩
  · rw [Files.node?_put_of_ne f (spotOf_ne h)] at hnode
    exact hl.held m hm node hnode

theorem Logs.moved (hl : Logs f log home name keep) {m n : Nat} (hm : m ≤ keep)
    (room : f.node? (spotOf home name m) ≠ none → Fits log name n)
    (h : Moved (spotOf home name m) (spotOf home name n) f g) : Logs g log home name keep := by
  refine hl.of_keeps h.keeps fun k hk node hnode => ?_
  obtain hnode | ⟨same, hnode⟩ := h.origin hnode
  · exact hl.held k hk node hnode
  · have hkn : k = n := not_imp_not.1 spotOf_ne same
    exact ⟨(hl.held m hm node hnode).1, hkn ▸ room (by simp [hnode])⟩

/-- A generation moves to one that is free; a generation that is not there leaves it free. -/
theorem Logs.moveIfThere (hl : Logs f log home name keep) {m n : Nat} (hm : m ≤ keep)
    (hn : n ≤ keep) (hne : m ≠ n)
    (room : f.node? (spotOf home name m) ≠ none → Fits log name n)
    (free : f.node? (spotOf home name n) = none) :
    ∃ g, moveIfThere f (pathOf log m) (pathOf log n) = .ok g ∧
      Moved (spotOf home name m) (spotOf home name n) f g := by
  unfold Rotation.moveIfThere
  cases hnode : f.node? (spotOf home name m) with
  | none =>
    have missing : ¬ f.has (pathOf log m) := fun h => (hl.has_iff hm).1 h hnode
    rw [if_neg missing]
    exact ⟨f, rfl, .refl f, hnode, free.trans hnode.symm, fun _ _ _ => rfl⟩
  | some node =>
    obtain ⟨⟨content, rfl⟩, fits⟩ := hl.held m hm _ hnode
    have there : f.has (pathOf log m) := (hl.has_iff hm).2 (by simp [hnode])
    rw [if_pos there]
    have target := hl.filed hn (room (by simp [hnode]))
    exact (hl.filed hm fits).rename target (nameOf_ne hne) hnode free

/-- What is there does not move to a name that does not fit. -/
theorem Logs.rename_of_not_fits (hl : Logs f log home name keep) {m n : Nat} (hm : m ≤ keep)
    (there : f.node? (spotOf home name m) ≠ none) (long : ¬ Fits log name (n + 1)) :
    f.rename (pathOf log m) (pathOf log (n + 1)) = .error .nameTooLong := by
  obtain ⟨node, hnode⟩ := Option.ne_none_iff_exists'.1 there
  obtain ⟨⟨content, rfl⟩, fits⟩ := hl.held m hm _ hnode
  have hfiled := hl.filed hm fits
  by_cases room : (pathOf log (n + 1)).text.utf8ByteSize < Files.pathLimit
  · exact hfiled.rename_of_isLong hnode (slot_pathOf hl.slot _ room)
      (Bool.of_not_eq_false fun short => long ⟨short, room⟩)
  · exact hfiled.rename_of_slot_error
      (Files.slot_of_start_error (start_pathOf_of_long hl.slot (Nat.not_lt.1 room)))

/-! ## Rotating -/

section

-- A look into the moves would go down to the characters of the paths.
attribute [local irreducible] Rotation.moveIfThere

theorem shift_succ (f : Files) (log : Path) (n : Nat) : shift f log (n + 1) =
    match moveIfThere f (pathOf log (n + 1)) (pathOf log (n + 2)) with
    | .error e => (.error e, f)
    | .ok f => shift f log n := rfl

theorem shift_zero (f : Files) (log : Path) : shift f log 0 = (.ok (), f) := rfl

end

/-- The generations from 1 to `n` have moved up by one, to a place that was free. -/
structure Shifted (home : Place) (name : String) (n : Nat) (f g : Files) : Prop where
  first : g.node? (spotOf home name 1) = none
  moved : ∀ m, 1 ≤ m → m ≤ n → g.node? (spotOf home name (m + 1)) = f.node? (spotOf home name m)
  others : ∀ spot, (∀ m, 1 ≤ m → m ≤ n + 1 → spot ≠ spotOf home name m) →
    g.node? spot = f.node? spot

/-- Each move from the last generation to the first finds its target free. -/
theorem Logs.shift (hl : Logs f log home name keep) {n : Nat} (hn : n + 1 ≤ keep)
    (room : ∀ m ≤ n, f.node? (spotOf home name m) ≠ none → Fits log name (m + 1))
    (free : f.node? (spotOf home name (n + 1)) = none) :
    ∃ g, shift f log n = (.ok (), g) ∧ Logs g log home name keep ∧ Shifted home name n f g := by
  induction n generalizing f with
  | zero =>
    refine ⟨f, rfl, hl, free, fun m hm hm' => ?_, fun _ _ => rfl⟩
    omega
  | succ n ih =>
    obtain ⟨f', hmove, hmoved⟩ := hl.moveIfThere (m := n + 1) (n := n + 2) (by omega) hn
      (by omega) (room _ le_rfl) free
    have hl' := hl.moved (by omega) (room _ le_rfl) hmoved
    have room' : ∀ m ≤ n, f'.node? (spotOf home name m) ≠ none → Fits log name (m + 1) := by
      intro m hm there
      rw [hmoved.others _ (spotOf_ne (by omega)) (spotOf_ne (by omega))] at there
      exact room m (by omega) there
    obtain ⟨g, hshift, hg, hshifted⟩ := ih hl' (by omega) room' hmoved.source
    refine ⟨g, ?_, hg, hshifted.first, ?_, ?_⟩
    · rw [shift_succ, hmove]
      exact hshift
    · intro m hm hm'
      by_cases h : m = n + 1
      · subst h
        rw [hshifted.others _ fun k _ hk => spotOf_ne (by omega), hmoved.target]
      · rw [hshifted.moved m hm (by omega),
          hmoved.others _ (spotOf_ne h) (spotOf_ne (by omega))]
    · intro spot hspot
      rw [hshifted.others spot fun m hm hm' => hspot m hm (by omega),
        hmoved.others spot (hspot _ (by omega) (by omega)) (hspot _ (by omega) (by omega))]

/-- Generations that are not found are passed over. -/
theorem shift_of_missing {n : Nat} (k : Nat)
    (missing : ∀ m, n < m → m ≤ n + k → f.has (pathOf log m) = false) :
    shift f log (n + k) = shift f log n := by
  induction k with
  | zero => rfl
  | succ k ih =>
    have passed : moveIfThere f (pathOf log (n + k + 1)) (pathOf log (n + k + 2)) = .ok f := by
      rw [moveIfThere, missing _ (by omega) (by omega), if_neg Bool.false_ne_true]
    rw [← Nat.add_assoc, shift_succ, passed]
    exact ih fun m hm hm' => missing m hm (by omega)

/-- Dropping a generation leaves the other ones where they are. -/
theorem Logs.drop (hl : Logs f log home name keep) {n : Nat} (hn : n ≤ keep)
    (fits : Fits log name n) : Logs (f.drop (spotOf home name n)) log home name keep := by
  refine hl.of_keeps (.drop (hl.filed hn fits).ne_directory) fun m hm node hnode => ?_
  by_cases h : spotOf home name m = spotOf home name n
  · rw [h, Files.node?_drop_self f (by simp [spotOf])] at hnode
    cases hnode
  · rw [Files.node?_drop_of_ne f h] at hnode
    exact hl.held m hm node hnode

/-- The last generation that is kept makes room. -/
theorem Logs.clear (hl : Logs f log home name keep) {n : Nat} (hn : n ≤ keep) :
    ∃ g, (if f.has (pathOf log n) then f.remove (pathOf log n) else .ok f) = .ok g ∧
      Logs g log home name keep ∧ g.node? (spotOf home name n) = none ∧
      ∀ spot, spot ≠ spotOf home name n → g.node? spot = f.node? spot := by
  cases hnode : f.node? (spotOf home name n) with
  | none =>
    have missing : ¬ f.has (pathOf log n) := fun h => (hl.has_iff hn).1 h hnode
    rw [if_neg missing]
    exact ⟨f, rfl, hl, hnode, fun _ _ => rfl⟩
  | some node =>
    obtain ⟨⟨content, rfl⟩, fits⟩ := hl.held n hn _ hnode
    have there : f.has (pathOf log n) := (hl.has_iff hn).2 (by simp [hnode])
    rw [if_pos there]
    exact ⟨_, (hl.filed hn fits).remove hnode, hl.drop hn fits, Files.node?_drop_self f (by simp),
      fun spot h => Files.node?_drop_of_ne f h⟩

/-- The log and the generations that are kept have moved up by one, and nothing else changed. -/
structure Rotated (home : Place) (name : String) (keep : Nat) (f g : Files) : Prop where
  free : g.node? (spotOf home name 0) = none
  moved : ∀ n < keep, g.node? (spotOf home name (n + 1)) = f.node? (spotOf home name n)
  others : ∀ spot, (∀ n ≤ keep, spot ≠ spotOf home name n) → g.node? spot = f.node? spot

theorem Logs.advance {last : Nat} {content : Bytes} (hl : Logs f log home name (last + 1))
    (room : Room f log home name (last + 1))
    (hlog : f.node? (spotOf home name 0) = some (.file content)) :
    ∃ g, advance f log last = (.ok (), g) ∧ Logs g log home name (last + 1) ∧
      Rotated home name (last + 1) f g := by
  obtain ⟨f₁, hclear, hl₁, free₁, others₁⟩ := hl.clear le_rfl
  have room₁ : ∀ m ≤ last, f₁.node? (spotOf home name m) ≠ none → Fits log name (m + 1) := by
    intro m hm there
    rw [others₁ _ (spotOf_ne (by omega))] at there
    exact room m (by omega) there
  obtain ⟨f₂, hshift, hl₂, hshifted⟩ := hl₁.shift le_rfl room₁ free₁
  have hlog₂ : f₂.node? (spotOf home name 0) = some (.file content) := by
    rw [hshifted.others _ fun m hm _ => spotOf_ne (by omega), others₁ _ (spotOf_ne (by omega)),
      hlog]
  have first : Fits log name 1 := room 0 (by omega) (by simp [hlog])
  obtain ⟨g, hrename, hmoved⟩ := hl₂.filed_log.rename (hl₂.filed (by omega) first)
    (nameOf_ne Nat.zero_ne_one) hlog₂ hshifted.first
  change Moved (spotOf home name 0) (spotOf home name 1) f₂ g at hmoved
  refine ⟨g, ?_, hl₂.moved (Nat.zero_le _) (fun _ => first) hmoved, hmoved.source, ?_, ?_⟩
  · rw [pathOf_succ] at hclear hrename
    unfold Rotation.advance
    dsimp only
    rw [hclear]
    dsimp only
    rw [hshift]
    dsimp only
    rw [hrename]
  · intro n hn
    cases n with
    | zero => rw [hmoved.target, hlog₂, hlog]
    | succ n =>
      rw [hmoved.others _ (spotOf_ne (by omega)) (spotOf_ne (by omega)),
        hshifted.moved _ (by omega) (by omega), others₁ _ (spotOf_ne (by omega))]
  · intro spot hspot
    rw [hmoved.others _ (hspot 0 (by omega)) (hspot 1 (by omega)),
      hshifted.others _ fun m _ hm => hspot m (by omega), others₁ _ (hspot _ le_rfl)]

/-- Without room nothing moves: what does not fit is not there, so the first move that is tried is
the one that fails. -/
theorem advance_of_cramped {last : Nat} (hl : Logs f log home name (last + 1))
    (cramped : ¬ Room f log home name (last + 1)) :
    advance f log last = (.error .nameTooLong, f) := by
  unfold Room at cramped
  push Not at cramped
  obtain ⟨n, hn, there, long⟩ := cramped
  have missing : ∀ m, n < m → m ≤ last + 1 → f.has (pathOf log m) = false := by
    intro m hm hm'
    refine Bool.of_not_eq_true fun found => ?_
    obtain ⟨node, hnode⟩ := Option.ne_none_iff_exists'.1 ((hl.has_iff hm').1 found)
    exact long ((hl.held m hm' node hnode).2.mono hl.slot (by omega) hm)
  have oldest := missing (last + 1) hn le_rfl
  obtain ⟨k, rfl⟩ := Nat.exists_eq_add_of_le (Nat.le_of_lt_succ hn)
  have passed := shift_of_missing k fun m hm hm' => missing m hm (by omega)
  have stuck := hl.rename_of_not_fits (by omega) there long
  rw [pathOf_succ] at oldest
  unfold Rotation.advance
  dsimp only
  rw [if_neg (by simp [oldest])]
  dsimp only
  rw [passed]
  cases n with
  | zero =>
    rw [pathOf_zero, pathOf_succ] at stuck
    rw [shift_zero]
    dsimp only
    rw [stuck]
  | succ n =>
    have found : f.has (pathOf log (n + 1)) := (hl.has_iff (by omega)).2 there
    rw [shift_succ, moveIfThere, if_pos found, stuck]

/-- A log that is missing is not rotated. -/
theorem rotate_of_missing (hl : Logs f log home name keep)
    (hlog : f.node? (spotOf home name 0) = none) : rotate r f log = (.ok false, f) := by
  simp only [rotate, hl.filed_log.size_of_none hlog]

/-- A log that has not grown to its largest size is not rotated. -/
theorem rotate_of_short {content : Bytes} (hl : Logs f log home name keep)
    (hlog : f.node? (spotOf home name 0) = some (.file content))
    (short : content.length < r.maxSize) : rotate r f log = (.ok false, f) := by
  simp only [rotate, hl.filed_log.size_of_file hlog, short, if_true]

/-- A log that has grown to its largest size is rotated. -/
theorem rotate_of_full {content : Bytes} (hl : Logs f log home name r.keep)
    (room : Room f log home name r.keep)
    (hlog : f.node? (spotOf home name 0) = some (.file content))
    (full : r.maxSize ≤ content.length) : ∃ g, rotate r f log = (.ok true, g) ∧
      Logs g log home name r.keep ∧ Rotated home name r.keep f g := by
  have hsize := hl.filed_log.size_of_file hlog
  cases hkeep : r.keep with
  | zero =>
    have hremove := hl.filed_log.remove hlog
    have hdrop := hl.drop (Nat.zero_le _) hl.fits
    refine ⟨f.drop (spotOf home name 0), ?_, hkeep ▸ hdrop,
      Files.node?_drop_self f (by simp [spotOf]), fun n hn => absurd hn (Nat.not_lt_zero n),
      fun spot hspot => Files.node?_drop_of_ne f (hspot 0 le_rfl)⟩
    simp only [rotate, hsize, Nat.not_lt.2 full, if_false, hkeep, hremove]
    rfl
  | succ last =>
    rw [hkeep] at hl room
    obtain ⟨g, hadvance, hg, hrotated⟩ := hl.advance room hlog
    refine ⟨g, ?_, hg, hrotated⟩
    simp only [rotate, hsize, Nat.not_lt.2 full, if_false, hkeep, hadvance]

/-- A log that has grown to its largest size stays with everything else where there is no room. -/
theorem rotate_of_cramped {content : Bytes} (hl : Logs f log home name r.keep)
    (cramped : ¬ Room f log home name r.keep)
    (hlog : f.node? (spotOf home name 0) = some (.file content))
    (full : r.maxSize ≤ content.length) : rotate r f log = (.error .nameTooLong, f) := by
  have hsize := hl.filed_log.size_of_file hlog
  cases hkeep : r.keep with
  | zero =>
    rw [hkeep] at cramped
    exact absurd (fun n hn => absurd hn (Nat.not_lt_zero n)) cramped
  | succ last =>
    rw [hkeep] at hl cramped
    simp only [rotate, hsize, Nat.not_lt.2 full, if_false, hkeep, advance_of_cramped hl cramped]

/-! ## Runs -/

/-- What is done to a log. -/
inductive Deed where
  /-- The log is made, or what it held is replaced. -/
  | write (content : Bytes)
  | rotate
deriving Repr, DecidableEq

/-- Does something to a log. -/
def Deed.perform (r : Rotation) (log : Path) (f : Files) : Deed → Except FileError Files
  | write content => f.writeBytes log content
  | rotate =>
    match r.rotate f log with
    | (.error e, _) => .error e
    | (.ok _, f) => .ok f

/-- What the log holds, and what the logs that were rotated held, the newest one first. -/
structure Account where
  log : Option Bytes
  rotated : List Bytes
deriving Repr, DecidableEq

/-- The account after something was done to the log. -/
def Account.after (r : Rotation) (a : Account) : Deed → Account
  | .write content => ⟨some content, a.rotated⟩
  | .rotate =>
    match a.log with
    | none => a
    | some content =>
      if content.length < r.maxSize then a else ⟨none, content :: a.rotated⟩

/-- The generations that the logs of an account have filled, as far as they are kept, fit. -/
def Account.Fits (a : Account) (log : Path) (name : String) (keep : Nat) : Prop :=
  ∀ n < keep, n < a.rotated.length → Rotation.Fits log name (n + 1)

theorem Account.length_rotated_after (r : Rotation) (a : Account) (deed : Deed) :
    a.rotated.length ≤ (a.after r deed).rotated.length := by
  obtain ⟨held, older⟩ := a
  cases deed with
  | write => exact le_rfl
  | rotate =>
    cases held with
    | none => exact le_rfl
    | some content =>
      rw [after]
      dsimp only
      split
      · exact le_rfl
      · exact Nat.le_succ _

theorem Account.length_rotated_foldl (r : Rotation) (a : Account) (deeds : List Deed) :
    a.rotated.length ≤ (deeds.foldl (Account.after r) a).rotated.length := by
  induction deeds generalizing a with
  | nil => exact le_rfl
  | cons deed deeds ih => exact (a.length_rotated_after r deed).trans (ih _)

/-- The log and its generations hold what an account says, as far as they are kept. -/
structure Holds (f : Files) (home : Place) (name : String) (keep : Nat) (a : Account) : Prop where
  log : f.node? (spotOf home name 0) = a.log.map .file
  generations : ∀ n, f.node? (spotOf home name (n + 1)) =
    if n < keep then a.rotated[n]?.map .file else none

theorem Holds.there_iff {a : Account} (ha : Holds f home name keep a) {n : Nat} (hn : n < keep) :
    f.node? (spotOf home name (n + 1)) ≠ none ↔ n < a.rotated.length := by
  rw [ha.generations, if_pos hn, ne_eq, Option.map_eq_none_iff, List.getElem?_eq_none_iff,
    Nat.not_le]

/-- What is there fits. -/
theorem Holds.fits {a : Account} (hl : Logs f log home name keep)
    (ha : Holds f home name keep a) : a.Fits log name keep := by
  intro n hn filled
  obtain ⟨node, hnode⟩ := Option.ne_none_iff_exists'.1 ((ha.there_iff hn).2 filled)
  exact (hl.held (n + 1) hn node hnode).2

/-- There is room to rotate a log if the account fits with it. -/
theorem Holds.room_iff {content : Bytes} {older : List Bytes}
    (ha : Holds f home name keep ⟨some content, older⟩) :
    Room f log home name keep ↔ Account.Fits ⟨none, content :: older⟩ log name keep := by
  refine forall₂_congr fun n hn => imp_congr_left ?_
  cases n with
  | zero => simp [ha.log]
  | succ n => rw [ha.there_iff (by omega), List.length_cons, Nat.succ_lt_succ_iff]

/-- What is written is what the log holds; its generations stay as they are. -/
theorem Holds.write {a : Account} (hl : Logs f log home name r.keep)
    (ha : Holds f home name r.keep a) (content : Bytes) :
    ∃ g, f.writeBytes log content = .ok g ∧ Logs g log home name r.keep ∧
      Holds g home name r.keep ⟨some content, a.rotated⟩ := by
  have hwrite := hl.filed_log.writeBytes content
  refine ⟨_, hwrite, hl.put (Nat.zero_le _) hl.fits content,
    Files.node?_put_self f (by simp) _, fun n => ?_⟩
  rw [← ha.generations n]
  exact Files.node?_put_of_ne f (spotOf_ne (Nat.succ_ne_zero n)) _

/-- A log that is rotated becomes the newest generation. -/
theorem Holds.rotated {content : Bytes} {older : List Bytes}
    (ha : Holds f home name keep ⟨some content, older⟩) (h : Rotated home name keep f g) :
    Holds g home name keep ⟨none, content :: older⟩ := by
  refine ⟨h.free, fun n => ?_⟩
  by_cases hn : n < keep
  · rw [h.moved n hn, if_pos hn]
    cases n with
    | zero => exact ha.log
    | succ n =>
      rw [ha.generations, if_pos (by omega)]
      rfl
  · rw [h.others _ fun m hm => spotOf_ne (by omega), ha.generations, if_neg hn, if_neg hn]

/-- One step of a run; a log that is to be rotated without room stops it. -/
theorem Holds.perform {a : Account} (hl : Logs f log home name r.keep)
    (ha : Holds f home name r.keep a) (deed : Deed) :
    ((a.after r deed).Fits log name r.keep → ∃ g, deed.perform r log f = .ok g ∧
      Logs g log home name r.keep ∧ Holds g home name r.keep (a.after r deed)) ∧
    (¬ (a.after r deed).Fits log name r.keep →
      deed.perform r log f = .error .nameTooLong) := by
  have fits := ha.fits hl
  cases deed with
  | write content => exact ⟨fun _ => ha.write hl content, absurd fits⟩
  | rotate =>
    obtain ⟨held, older⟩ := a
    have hlog := ha.log
    cases held with
    | none =>
      exact ⟨fun _ => ⟨f, by rw [Deed.perform, rotate_of_missing hl hlog], hl, ha⟩, absurd fits⟩
    | some content =>
      by_cases short : content.length < r.maxSize
      · have same : Account.after r ⟨some content, older⟩ .rotate = ⟨some content, older⟩ :=
          if_pos short
        rw [same]
        exact ⟨fun _ => ⟨f, by rw [Deed.perform, rotate_of_short hl hlog short], hl, ha⟩,
          absurd fits⟩
      · have next : Account.after r ⟨some content, older⟩ .rotate = ⟨none, content :: older⟩ :=
          if_neg short
        rw [next, ← ha.room_iff]
        constructor
        · intro room
          obtain ⟨g, hrotate, hg, hrotated⟩ := rotate_of_full hl room hlog (Nat.not_lt.1 short)
          exact ⟨g, by rw [Deed.perform, hrotate], hg, ha.rotated hrotated⟩
        · intro cramped
          rw [Deed.perform, rotate_of_cramped hl cramped hlog (Nat.not_lt.1 short)]

/-- Over a run, the generations hold the logs that were rotated last, the newest one first, as long
as they fit. -/
theorem Holds.run {a : Account} (hl : Logs f log home name r.keep)
    (ha : Holds f home name r.keep a) (deeds : List Deed) :
    ((deeds.foldl (Account.after r) a).Fits log name r.keep →
      ∃ g, deeds.foldlM (Deed.perform r log) f = .ok g ∧
        Holds g home name r.keep (deeds.foldl (Account.after r) a)) ∧
    (¬ (deeds.foldl (Account.after r) a).Fits log name r.keep →
      deeds.foldlM (Deed.perform r log) f = .error .nameTooLong) := by
  induction deeds generalizing f a with
  | nil => exact ⟨fun _ => ⟨f, rfl, ha⟩, absurd (ha.fits hl)⟩
  | cons deed deeds ih =>
    obtain ⟨goes, stops⟩ := ha.perform hl deed
    rw [List.foldl_cons, List.foldlM_cons]
    by_cases first : (a.after r deed).Fits log name r.keep
    · obtain ⟨g, hperform, hg, hholds⟩ := goes first
      rw [hperform]
      exact ih hg hholds
    · rw [stops first]
      refine ⟨fun fits => absurd (fun n hn filled => fits n hn ?_) first, fun _ => rfl⟩
      exact Nat.lt_of_lt_of_le filled (Account.length_rotated_foldl r _ deeds)

/-! ## Logs in the current directory -/

/-- A log in the current directory fits as far as its name does. -/
theorem fits_iff_of_name (hs : f.slot ⟨name⟩ = .ok ⟨home, some name, false⟩) (n : Nat) :
    Fits ⟨name⟩ name n ↔ (nameOf name n).utf8ByteSize ≤ Files.nameLimit := by
  have path : (pathOf ⟨name⟩ n).text = nameOf name n := by
    cases n with
    | zero => rfl
    | succ n =>
      obtain ⟨isName, plain, -⟩ := isName_of_slot hs 0
      rw [pathOf_succ_eq hs]
      exact Path.text_withFileName (Path.pieces_of_plain plain) isName.1 isName.2
        (isName_of_slot hs _).2.1
  constructor
  · intro h
    simpa [Files.isLong] using h.name
  · intro short
    refine ⟨by simpa [Files.isLong] using short, ?_⟩
    rw [path]
    exact Nat.lt_of_le_of_lt short (by decide)

theorem node?_empty_spotOf (n : Nat) : Files.empty.node? (spotOf home name n) = none := by
  simp [Files.node?, Files.empty, spotOf]

/-- A tree without files has room for a log. -/
theorem logs_empty (hs : Files.empty.slot log = .ok ⟨home, some name, false⟩)
    (fits : Fits log name 0) : Logs Files.empty log home name keep :=
  ⟨hs, fits, fun n _ _ hnode => nomatch (node?_empty_spotOf n).symm.trans hnode⟩

theorem slot_of_xs {k : Nat} (hk : k ≠ 0)
    (room : (String.ofList (List.replicate k 'x')).utf8ByteSize < Files.pathLimit) :
    Files.empty.slot ⟨String.ofList (List.replicate k 'x')⟩ =
      .ok ⟨[], some (String.ofList (List.replicate k 'x')), false⟩ := by
  have notMem {c : Char} (hc : c ≠ 'x') : c ∉ (String.ofList (List.replicate k 'x')).toList := by
    rw [String.toList_ofList]
    exact fun h => hc (List.eq_of_mem_replicate h)
  obtain ⟨k, rfl⟩ := Nat.exists_eq_succ_of_ne_zero hk
  refine Files.slot_of_name ?_ (notMem (by decide)) (notMem (by decide)) room rfl
  rw [String.toList_ofList, List.replicate_succ]
  exact ⟨by simp [Path.isVoid], by simp⟩

/-! ## All together -/

/-- What rotating a log does to it and its generations. A log that is missing or small is left alone
with everything else. Otherwise, if there is room, the log is free afterwards, every generation that
is kept holds what the one before it held, and nothing else changes; so only the last generation is
lost. Without room nothing changes at all. From a directory without generations, any run of writes
and rotations leaves the logs that were rotated last, the newest one first, and no further
generation, unless there are more of them than fit, which stops it. -/
theorem rotate_generations (hl : Logs f log home name r.keep) :
    ((f.node? (spotOf home name 0) = none ∨ ∃ content,
        f.node? (spotOf home name 0) = some (.file content) ∧ content.length < r.maxSize) →
      rotate r f log = (.ok false, f)) ∧
    (∀ content, f.node? (spotOf home name 0) = some (.file content) →
      r.maxSize ≤ content.length →
        (Room f log home name r.keep → ∃ g, rotate r f log = (.ok true, g) ∧
          g.node? (spotOf home name 0) = none ∧
          (∀ n, 1 ≤ n → n ≤ r.keep →
            g.node? (spotOf home name n) = f.node? (spotOf home name (n - 1))) ∧
          ∀ spot, (∀ n ≤ r.keep, spot ≠ spotOf home name n) → g.node? spot = f.node? spot) ∧
        (¬ Room f log home name r.keep → rotate r f log = (.error .nameTooLong, f))) ∧
    ∀ (deeds : List Deed) (content : Option Bytes),
      f.node? (spotOf home name 0) = content.map .file →
      (∀ n, 1 ≤ n → f.node? (spotOf home name n) = none) →
      let account := deeds.foldl (Account.after r) ⟨content, []⟩
      (account.Fits log name r.keep → ∃ g, deeds.foldlM (Deed.perform r log) f = .ok g ∧
        g.node? (spotOf home name 0) = account.log.map .file ∧
        ∀ n, 1 ≤ n → g.node? (spotOf home name n) =
          if n ≤ r.keep then account.rotated[n - 1]?.map .file else none) ∧
      (¬ account.Fits log name r.keep →
        deeds.foldlM (Deed.perform r log) f = .error .nameTooLong) := by
  refine ⟨?_, fun content hlog full => ⟨fun room => ?_, fun cramped => ?_⟩,
    fun deeds content hlog none => ?_⟩
  · rintro (missing | ⟨content, hlog, short⟩)
    · exact rotate_of_missing hl missing
    · exact rotate_of_short hl hlog short
  · obtain ⟨g, hrotate, -, hrotated⟩ := rotate_of_full hl room hlog full
    refine ⟨g, hrotate, hrotated.free, fun n hn hn' => ?_, hrotated.others⟩
    have hmoved := hrotated.moved (n - 1) (by omega)
    rwa [Nat.sub_add_cancel hn] at hmoved
  · exact rotate_of_cramped hl cramped hlog full
  · have start : Holds f home name r.keep ⟨content, []⟩ :=
      ⟨hlog, fun n => by rw [none (n + 1) (by omega)]; simp⟩
    obtain ⟨goes, stops⟩ := start.run hl deeds
    refine ⟨fun fits => ?_, stops⟩
    obtain ⟨g, hrun, hholds⟩ := goes fits
    refine ⟨g, hrun, hholds.log, fun n hn => ?_⟩
    have hgeneration := hholds.generations (n - 1)
    rw [Nat.sub_add_cancel hn] at hgeneration
    rw [hgeneration]
    exact if_congr (by omega) rfl rfl

/-- A log with a name of 253 characters. There is room for nine generations: ten may be kept as long
as the ninth of them is not there. -/
theorem rotate_generations_of_ten :
    let name := String.ofList (List.replicate 253 'x')
    let f := Files.empty.put [name] (.file [0])
    let g := f.put [nameOf name 9] (.file [1])
    (∃ h, rotate ⟨1, 10⟩ f ⟨name⟩ = (.ok true, h) ∧ h.node? [name] = none ∧
      h.node? [nameOf name 1] = some (.file [0])) ∧
    rotate ⟨1, 10⟩ g ⟨name⟩ = (.error .nameTooLong, g) := by
  intro name f g
  have hs : Files.empty.slot ⟨name⟩ = .ok ⟨[], some name, false⟩ :=
    slot_of_xs (by decide) (by decide +kernel)
  have fits := fits_iff_of_name hs
  have short : Fits ⟨name⟩ name 0 := (fits 0).2 (by decide +kernel)
  have hf : Logs f ⟨name⟩ [] name 10 := (logs_empty hs short).put (Nat.zero_le _) short [0]
  have hg : Logs g ⟨name⟩ [] name 10 := hf.put (by decide) ((fits 9).2 (by decide +kernel)) [1]
  have log : f.node? (spotOf [] name 0) = some (.file [0]) := Files.node?_put_self _ (by simp) _
  have others {n : Nat} (hn : n ≠ 0) : f.node? (spotOf [] name n) = none :=
    (Files.node?_put_of_ne Files.empty (spotOf_ne hn) _).trans (node?_empty_spotOf n)
  constructor
  · have room : Room f ⟨name⟩ [] name 10 := by
      intro n _ there
      obtain rfl : n = 0 := not_imp_comm.1 others there
      exact (fits 1).2 (by decide +kernel)
    obtain ⟨h, rotated, free, moved, -⟩ :=
      ((rotate_generations (r := ⟨1, 10⟩) hf).2.1 [0] log le_rfl).1 room
    exact ⟨h, rotated, free, (moved 1 le_rfl (by decide)).trans log⟩
  · have cramped : ¬ Room g ⟨name⟩ [] name 10 := fun room => by
      have long : ¬ (nameOf name 10).utf8ByteSize ≤ Files.nameLimit := by decide +kernel
      have there : g.node? (spotOf [] name 9) = some (.file [1]) :=
        Files.node?_put_self _ (by simp) _
      exact long ((fits 10).1 (room 9 (by decide) (by simp [there])))
    have apart : spotOf [] name 0 ≠ spotOf [] name 9 := spotOf_ne (by decide)
    have kept : g.node? (spotOf [] name 0) = f.node? (spotOf [] name 0) :=
      Files.node?_put_of_ne f apart _
    exact ((rotate_generations (r := ⟨1, 10⟩) hg).2.1 [0] (kept.trans log) le_rfl).2 cramped

/-- A name of 254 characters leaves no room for the number of a generation. -/
theorem rotate_without_room :
    let name := String.ofList (List.replicate 254 'x')
    let f := Files.empty.put [name] (.file [0])
    f.slot ⟨name⟩ = .ok ⟨[], some name, false⟩ ∧ f.node? [name] = some (.file [0]) ∧
      rotate ⟨1, 1⟩ f ⟨name⟩ = (.error .nameTooLong, f) := by
  intro name f
  have hs : Files.empty.slot ⟨name⟩ = .ok ⟨[], some name, false⟩ :=
    slot_of_xs (by decide) (by decide +kernel)
  have fits := fits_iff_of_name hs
  have short : Fits ⟨name⟩ name 0 := (fits 0).2 (by decide +kernel)
  have hl : Logs f ⟨name⟩ [] name 1 := (logs_empty hs short).put (Nat.zero_le _) short [0]
  have hlog : f.node? (spotOf [] name 0) = some (.file [0]) := Files.node?_put_self _ (by simp) _
  have cramped : ¬ Room f ⟨name⟩ [] name 1 := fun room => by
    have long : ¬ (nameOf name 1).utf8ByteSize ≤ Files.nameLimit := by decide +kernel
    exact long ((fits 1).1 (room 0 (by decide) (by simp [hlog])))
  exact ⟨hl.slot, hlog, rotate_of_cramped (r := ⟨1, 1⟩) hl cramped hlog le_rfl⟩

end CallDebugger.Rotation
