import CallDebugger.Files.Tree
import CallDebugger.Proofs.Files.Pieces

/-!
# Ways through a tree

A path leads along its pieces from directory to directory, so it leads to the same place in every
tree that has the same directories (`Files.Keeps`). The slot of a path is one name before the place
that it leads to; what is made or written there stands where the path leads afterwards.

Main facts: `Keeps.walk`, `exists_reaches_of_slot`, `find_of_writeBytes`, `Grown.makeChain`.
-/

namespace CallDebugger

/-- A piece that stands for a name. -/
def Path.IsName (piece : List Char) : Prop := Path.isVoid piece = false ∧ piece ≠ ['.', '.']

namespace Files

variable {f g h : Files} {spot here there directory : Place} {ps qs : List (List Char)} {p : Path}

/-! ## Walking -/

theorem walk_void {piece : List Char} (hd : f.node? spot = some .directory)
    (hv : Path.isVoid piece) : f.walk spot (piece :: ps) = f.walk spot ps := by
  simp [walk, hd, hv]

theorem walk_up (hd : f.node? spot = some .directory) :
    f.walk spot (['.', '.'] :: ps) = f.walk spot.dropLast ps := by
  simp [walk, hd, Path.isVoid]

theorem walk_name {piece : List Char} (hd : f.node? spot = some .directory)
    (hn : Path.IsName piece) (short : isLong (String.ofList piece) = false) :
    f.walk spot (piece :: ps) = f.walk (spot ++ [String.ofList piece]) ps := by
  simp [walk, hd, hn.1, hn.2, short]

/-- A piece that a way goes along: it starts at a directory, and it names nothing, or leads up, or
names an entry. -/
theorem walk_cons_cases {piece : List Char} (hw : f.walk spot (piece :: ps) = .ok there) :
    f.node? spot = some .directory ∧
      (Path.isVoid piece ∧ f.walk spot ps = .ok there ∨
        piece = ['.', '.'] ∧ f.walk spot.dropLast ps = .ok there ∨
        Path.IsName piece ∧ isLong (String.ofList piece) = false ∧
          f.walk (spot ++ [String.ofList piece]) ps = .ok there) := by
  unfold walk at hw
  split at hw
  · cases hw
  · next hd =>
    refine ⟨hd, ?_⟩
    split at hw
    · next hv => exact .inl ⟨hv, hw⟩
    · next hv =>
      split at hw
      · next hup => exact .inr (.inl ⟨hup, hw⟩)
      · next hup =>
        split at hw
        · cases hw
        · next short =>
          exact .inr (.inr ⟨⟨by simpa using hv, hup⟩, by simpa using short, hw⟩)
  · cases hw

theorem walk_append (hw : f.walk spot ps = .ok here) :
    f.walk spot (ps ++ qs) = f.walk here qs := by
  induction ps generalizing spot with
  | nil =>
    cases hw
    rfl
  | cons piece ps ih =>
    obtain ⟨hd, ⟨hv, next⟩ | ⟨rfl, next⟩ | ⟨hn, short, next⟩⟩ := walk_cons_cases hw
    · rw [List.cons_append, walk_void hd hv, ih next]
    · rw [List.cons_append, walk_up hd, ih next]
    · rw [List.cons_append, walk_name hd hn short, ih next]

/-- A way that goes on goes along its first part. -/
theorem exists_walk_of_append (hw : f.walk spot (ps ++ qs) = .ok there) :
    ∃ here, f.walk spot ps = .ok here ∧ f.walk here qs = .ok there := by
  induction ps generalizing spot with
  | nil => exact ⟨spot, rfl, hw⟩
  | cons piece ps ih =>
    rw [List.cons_append] at hw
    obtain ⟨hd, ⟨hv, next⟩ | ⟨rfl, next⟩ | ⟨hn, short, next⟩⟩ := walk_cons_cases hw
    · rw [walk_void hd hv]
      exact ih next
    · rw [walk_up hd]
      exact ih next
    · rw [walk_name hd hn short]
      exact ih next

/-- Pieces that name nothing lead nowhere, but they have to start at a directory. -/
theorem walk_voids (hd : f.node? spot = some .directory) (hv : ∀ piece ∈ ps, Path.isVoid piece) :
    f.walk spot ps = .ok spot := by
  induction ps with
  | nil => rfl
  | cons piece ps ih =>
    rw [walk_void hd (hv piece (.head _))]
    exact ih fun piece h => hv piece (.tail _ h)

theorem eq_of_walk_voids (hv : ∀ piece ∈ ps, Path.isVoid piece) (hw : f.walk spot ps = .ok there) :
    there = spot := by
  cases ps with
  | nil =>
    cases hw
    rfl
  | cons piece ps =>
    rw [walk_voids (walk_cons_cases hw).1 hv] at hw
    cases hw
    rfl

/-- What has to hold of the text of a path that starts somewhere. -/
theorem start_eq_ok_iff : f.start p = .ok spot ↔ p.text ≠ "" ∧ '\x00' ∉ p.text.toList ∧
    p.text.utf8ByteSize < pathLimit ∧ spot = if p.isAbsolute then [] else f.current := by
  unfold start
  split
  · next h => simp_all
  · next h =>
    split
    · next hnul => simp_all
    · next hnul =>
      have hne : p.text ≠ "" := by simpa using h
      have hnul : '\x00' ∉ p.text.toList := by simpa using hnul
      simp only [hne, hnul, ne_eq, not_false_eq_true, true_and]
      split
      · next hlong => simp [Nat.not_lt.2 hlong]
      · next hlong => simp only [Nat.not_le.1 hlong, true_and, Except.ok.injEq, eq_comm]

/-- Two trees with the same current directory, of which the second has the directories of the
first. -/
structure Keeps (f g : Files) : Prop where
  current : g.current = f.current
  directories : ∀ spot, f.node? spot = some .directory → g.node? spot = some .directory

namespace Keeps

theorem refl (f : Files) : Keeps f f := ⟨rfl, fun _ => id⟩

theorem trans (hfg : Keeps f g) (hgh : Keeps g h) : Keeps f h :=
  ⟨hgh.current.trans hfg.current, fun spot hd => hgh.directories spot (hfg.directories spot hd)⟩

theorem put {n : Node} (hs : spot ≠ []) (hd : f.node? spot ≠ some .directory ∨ n = .directory) :
    Keeps f (f.put spot n) := by
  refine ⟨rfl, fun other ho => ?_⟩
  by_cases h : other = spot
  · subst h
    obtain hd | rfl := hd
    · exact absurd ho hd
    · exact node?_put_self f hs .directory
  · rwa [node?_put_of_ne f h]

theorem walk (hk : Keeps f g) (hw : f.walk spot ps = .ok there) : g.walk spot ps = .ok there := by
  induction ps generalizing spot with
  | nil => exact hw
  | cons piece ps ih =>
    obtain ⟨hd, ⟨hv, next⟩ | ⟨rfl, next⟩ | ⟨hn, short, next⟩⟩ := walk_cons_cases hw
    · rw [walk_void (hk.directories _ hd) hv, ih next]
    · rw [walk_up (hk.directories _ hd), ih next]
    · rw [walk_name (hk.directories _ hd) hn short, ih next]

theorem start (hk : Keeps f g) (p : Path) : g.start p = f.start p := by
  simp only [Files.start, hk.current]

/-- A path leads to the same place in a tree that has the directories of the first one. -/
theorem place (hk : Keeps f g) (hp : f.place p = .ok there) : g.place p = .ok there := by
  unfold Files.place at hp ⊢
  rw [hk.start]
  split at hp
  · cases hp
  · exact hk.walk hp

end Keeps

/-- A tree in which everything stands in a directory. -/
def Rooted (f : Files) : Prop :=
  ∀ spot name, f.node? (spot ++ [name]) ≠ none → f.node? spot = some .directory

/-- Whatever is above something is a directory. -/
theorem Rooted.isDirectory (hf : f.Rooted) (ht : f.node? there ≠ none) (hp : here <+: there)
    (hne : here ≠ there) : f.node? here = some .directory := by
  induction there using List.reverseRecOn with
  | nil => exact absurd (List.prefix_nil.1 hp) hne
  | append_singleton there name ih =>
    have hd := hf there name ht
    obtain rfl | hp := List.prefix_concat_iff.1 hp
    · exact absurd rfl hne
    · by_cases h : here = there
      · exact h ▸ hd
      · exact ih (by simp [hd]) hp h

/-- A way that never leads up goes along places above its end, which were all there if the end was
there. -/
theorem Rooted.walk (hf : f.Rooted) (ht : f.node? there ≠ none)
    (hend : g.node? there ≠ some .directory) (hup : ['.', '.'] ∉ ps)
    (hw : g.walk spot ps = .ok there) : f.walk spot ps = .ok there ∧ spot <+: there := by
  induction ps generalizing spot with
  | nil =>
    cases hw
    exact ⟨rfl, List.prefix_rfl⟩
  | cons piece ps ih =>
    have hup' : ['.', '.'] ∉ ps := fun h => hup (.tail _ h)
    obtain ⟨hg, hnext⟩ := walk_cons_cases hw
    have hne : spot ≠ there := fun h => hend (h ▸ hg)
    obtain ⟨hv, next⟩ | ⟨rfl, -⟩ | ⟨hn, short, next⟩ := hnext
    · obtain ⟨next, hp⟩ := ih hup' next
      rw [walk_void (hf.isDirectory ht hp hne) hv]
      exact ⟨next, hp⟩
    · exact absurd (.head _) hup
    · obtain ⟨next, hp⟩ := ih hup' next
      have hp := (List.prefix_append spot _).trans hp
      rw [walk_name (hf.isDirectory ht hp hne) hn short]
      exact ⟨next, hp⟩

/-- A path that never leads up leads to the same place in a tree where that place was there
already. -/
theorem Rooted.place (hf : f.Rooted) (ht : f.node? there ≠ none)
    (hend : g.node? there ≠ some .directory) (hup : ['.', '.'] ∉ Path.pieces p.text.toList)
    (hk : Keeps f g) (hp : g.place p = .ok there) : f.place p = .ok there := by
  unfold Files.place at hp ⊢
  rw [← hk.start]
  split at hp
  · cases hp
  · exact (hf.walk ht hend hup hp).1

/-- A way that goes along directories which were there or were missing went on to its end, or
stopped for want of one of them. -/
theorem walk_eq_ok_or_notFound
    (was : ∀ spot, g.node? spot = some .directory →
      f.node? spot = some .directory ∨ f.node? spot = none)
    (hw : g.walk spot ps = .ok there) :
    f.walk spot ps = .ok there ∨ f.walk spot ps = .error .notFound := by
  induction ps generalizing spot with
  | nil => exact .inl hw
  | cons piece ps ih =>
    obtain ⟨hg, hnext⟩ := walk_cons_cases hw
    obtain hd | hnone := was spot hg
    · obtain ⟨hv, next⟩ | ⟨rfl, next⟩ | ⟨hn, short, next⟩ := hnext
      · rw [walk_void hd hv]
        exact ih next
      · rw [walk_up hd]
        exact ih next
      · rw [walk_name hd hn short]
        exact ih next
    · right
      simp only [walk, hnone]

/-- The same of the place that a path leads to. -/
theorem place_eq_ok_or_notFound (current : g.current = f.current)
    (was : ∀ spot, g.node? spot = some .directory →
      f.node? spot = some .directory ∨ f.node? spot = none)
    (hp : g.place p = .ok there) : f.place p = .ok there ∨ f.place p = .error .notFound := by
  have hstart : g.start p = f.start p := by simp only [Files.start, current]
  unfold Files.place at hp ⊢
  rw [hstart] at hp
  split at hp
  · cases hp
  · exact walk_eq_ok_or_notFound was hp

theorem place_of_find {n : Node} (h : f.find p = .ok (spot, n)) : f.place p = .ok spot := by
  unfold find at h
  split at h
  · cases h
  · split at h
    · cases h
    · cases h
      assumption

theorem find_of_place {n : Node} (hp : f.place p = .ok spot) (hn : f.node? spot = some n) :
    f.find p = .ok (spot, n) := by
  simp only [find, hp, hn]

/-! ## Slots -/

/-- What a slot tells: the path leads along its pieces to the directory of the slot, then there is
the name, and then nothing but slashes. -/
structure Reaches (f : Files) (p : Path) (spot : Place) (above : List (List Char))
    (directory : Place) (name : String) (tail : List (List Char)) : Prop where
  start : f.start p = .ok spot
  pieces : Path.pieces p.text.toList = above ++ name.toList :: tail
  way : f.walk spot above = .ok directory
  isDirectory : f.node? directory = some .directory
  isName : Path.IsName name.toList
  slashes : ∀ piece ∈ tail, piece = []

/-- The last piece that is not empty, with what stands on both its sides. -/
theorem exists_tail_of_dropWhile {last : List Char} {above : List (List Char)}
    (hp : ps.reverse.dropWhile (· = []) = last :: above) :
    ∃ tail, ps = above.reverse ++ last :: tail ∧ ∀ piece ∈ tail, piece = [] := by
  refine ⟨(ps.reverse.takeWhile (· = [])).reverse, List.reverse_injective ?_, fun piece h => ?_⟩
  · simpa [hp] using (List.takeWhile_append_dropWhile (p := (· = [])) (l := ps.reverse)).symm
  · simpa using List.mem_takeWhile_imp (List.mem_reverse.1 h)

theorem exists_reaches_of_slot {name : String} {isClosed : Bool}
    (hs : f.slot p = .ok ⟨directory, some name, isClosed⟩) : ∃ spot above tail,
      f.Reaches p spot above directory name tail ∧ (isClosed = false → tail = []) := by
  unfold slot at hs
  split at hs
  · cases hs
  · next spot hstart =>
    dsimp only at hs
    split at hs
    · cases hs
    · next last above hpieces =>
      split at hs
      · cases hs
      · next here hw =>
        obtain ⟨middle, way, hend⟩ := exists_walk_of_append hw
        obtain ⟨hd, ⟨-, hend⟩ | ⟨h, -⟩ | ⟨⟨h, -⟩, -⟩⟩ := walk_cons_cases hend
        · cases hend
          obtain ⟨tail, pieces, slashes⟩ := exists_tail_of_dropWhile hpieces
          rw [Except.ok.injEq, Slot.mk.injEq, Option.ite_none_right_eq_some,
            Option.some_inj] at hs
          obtain ⟨rfl, ⟨hname, rfl⟩, hclosed⟩ := hs
          have isName : Path.IsName last := by simpa [Path.IsName] using hname
          rw [← String.toList_ofList (l := last)] at pieces isName
          refine ⟨spot, above.reverse, tail, ⟨hstart, pieces, way, hd, isName, slashes⟩, ?_⟩
          rintro rfl
          have hlast : (Path.pieces p.text.toList).getLast? ≠ some [] := by simpa using hclosed
          by_contra htail
          refine hlast ?_
          rw [pieces, List.getLast?_append_of_ne_nil _ (by simp),
            List.getLast?_cons_of_ne_nil htail, List.getLast?_eq_some_getLast htail,
            slashes _ (List.getLast_mem htail)]
        · cases h
        · cases h

theorem entry_eq_ok_iff {name : String} :
    entry directory name = .ok spot ↔ isLong name = false ∧ spot = directory ++ [name] := by
  unfold entry
  cases isLong name <;> simp [eq_comm]

/-- Where the slot of a path is, the path leads once its last name is there; a slash behind the name
wants a directory. -/
theorem Reaches.place {above tail : List (List Char)} {name : String}
    (hr : f.Reaches p spot above directory name tail) (short : isLong name = false)
    (hk : Keeps f g) (hd : tail ≠ [] → g.node? (directory ++ [name]) = some .directory) :
    g.place p = .ok (directory ++ [name]) := by
  have short' : isLong (String.ofList name.toList) = false := by rwa [String.ofList_toList]
  unfold Files.place
  rw [hk.start, hr.start, hr.pieces]
  change g.walk spot (above ++ name.toList :: tail) = _
  rw [walk_append (hk.walk hr.way), walk_name (hk.directories _ hr.isDirectory) hr.isName short',
    String.ofList_toList]
  cases tail with
  | nil => rfl
  | cons piece tail =>
    refine walk_voids (hd (List.cons_ne_nil _ _)) fun piece h => ?_
    rw [hr.slashes piece h]
    rfl

/-- A path that ends in a name has the slot that its pieces tell. -/
theorem Reaches.slot {above : List (List Char)} {name : String}
    (hr : f.Reaches p spot above directory name []) :
    f.slot p = .ok ⟨directory, some name, false⟩ := by
  have hne : name.toList ≠ [] := by
    intro h
    simpa [h, Path.isVoid] using hr.isName.1
  have hend : (Path.pieces p.text.toList).reverse.dropWhile (· = []) =
      name.toList :: above.reverse := by
    rw [hr.pieces, List.reverse_append, List.reverse_singleton, List.singleton_append,
      List.dropWhile_cons_of_neg (by simpa using hne)]
  have hw : f.walk spot (above.reverse.reverse ++ [[]]) = .ok directory := by
    rw [List.reverse_reverse, walk_append hr.way]
    exact walk_voids hr.isDirectory (by simp [Path.isVoid])
  unfold Files.slot
  rw [hr.start]
  dsimp only
  rw [hend]
  dsimp only
  rw [hw]
  simp [hr.isName.1, hr.isName.2, hr.pieces, hne]

/-- A name alone has a slot in the current directory. -/
theorem slot_of_name {name : String} (isName : Path.IsName name.toList) (plain : '/' ∉ name.toList)
    (nul : '\x00' ∉ name.toList) (room : name.utf8ByteSize < pathLimit)
    (hd : f.node? f.current = some .directory) :
    f.slot ⟨name⟩ = .ok ⟨f.current, some name, false⟩ := by
  have hne : name ≠ "" := by
    rintro rfl
    cases isName.1
  have relative : (⟨name⟩ : Path).isAbsolute = false :=
    decide_eq_false fun h => plain (List.mem_of_mem_head? h)
  have hr : f.Reaches ⟨name⟩ f.current [] f.current name [] := {
    start := start_eq_ok_iff.2 ⟨hne, nul, room, by rw [relative]; rfl⟩
    pieces := Path.pieces_of_plain plain
    way := rfl
    isDirectory := hd
    isName
    slashes := by simp }
  exact hr.slot

/-- A path whose last name is too long leads to nothing. -/
theorem not_has_of_isLong {name : String} (hs : f.slot p = .ok ⟨directory, some name, false⟩)
    (long : isLong name) : f.has p = false := by
  obtain ⟨spot, above, tail, hr, closed⟩ := exists_reaches_of_slot hs
  obtain rfl := closed rfl
  have hplace : f.place p = .error .nameTooLong := by
    unfold Files.place
    rw [hr.start, hr.pieces]
    dsimp only
    rw [walk_append hr.way]
    simp [walk, hr.isDirectory, hr.isName.1, hr.isName.2, long]
  simp [has, find, hplace, Except.toOption]

theorem slot_of_start_error {e : FileError} (h : f.start p = .error e) : f.slot p = .error e := by
  rw [slot, h]

theorem not_has_of_start_error {e : FileError} (h : f.start p = .error e) : f.has p = false := by
  simp [has, find, Files.place, h, Except.toOption]

/-- A path with a slot for a name ends in this name. -/
theorem fileName?_of_slot {name : String} (hs : f.slot p = .ok ⟨directory, some name, false⟩) :
    p.fileName? = some name := by
  obtain ⟨spot, above, tail, hr, closed⟩ := exists_reaches_of_slot hs
  obtain rfl := closed rfl
  have hnone : '/' ∉ "".toList := by simp
  rw [(Path.pieces_withFileName hr.pieces hr.isName.1 hr.isName.2 hnone).1, String.ofList_toList]

section

variable {name other : String} (hs : f.slot p = .ok ⟨directory, some name, false⟩)
  (isName : Path.IsName other.toList) (plain : '/' ∉ other.toList) (nul : '\x00' ∉ other.toList)

include hs isName plain nul

/-- With another name in the same directory a path starts where it did, unless it is too long
then. -/
theorem start_withFileName : f.start (p.withFileName other) =
    if pathLimit ≤ (p.withFileName other).text.utf8ByteSize then .error .nameTooLong
    else f.start p := by
  obtain ⟨spot, above, tail, hr, closed⟩ := exists_reaches_of_slot hs
  obtain rfl := closed rfl
  obtain ⟨-, front, voids, rfl, -, hhead, hpieces⟩ :=
    Path.pieces_withFileName hr.pieces hr.isName.1 hr.isName.2 plain
  obtain ⟨-, hnul, -, hspot⟩ := start_eq_ok_iff.1 hr.start
  have named {piece : List Char} (h : Path.IsName piece) : piece ≠ [] := by
    rintro rfl
    cases h.1
  have hne : (p.withFileName other).text ≠ "" := by
    intro h
    rw [h] at hpieces
    have hmem : other.toList ∈ [[]] := by
      change other.toList ∈ Path.pieces "".toList
      rw [hpieces]
      exact List.mem_append_right _ (.head _)
    exact named isName (List.mem_singleton.1 hmem)
  have hnul' : '\x00' ∉ (p.withFileName other).text.toList := by
    intro h
    obtain ⟨piece, hpiece, hc⟩ := (Path.mem_iff_of_ne_slash (by decide)).1 h
    rw [hpieces] at hpiece
    obtain hpiece | hpiece := List.mem_append.1 hpiece
    · refine hnul ((Path.mem_iff_of_ne_slash (by decide)).2 ⟨piece, ?_, hc⟩)
      rw [hr.pieces, List.append_assoc]
      exact List.mem_append_left _ hpiece
    · exact nul (List.mem_singleton.1 hpiece ▸ hc)
  have habs : (p.withFileName other).isAbsolute = p.isAbsolute := by
    rw [Bool.eq_iff_iff, Path.isAbsolute_iff_of_pieces hr.pieces (named hr.isName),
      Path.isAbsolute_iff_of_pieces hpieces (named isName), hhead]
  rw [hr.start, start, if_neg (by simpa using hne), if_neg (by simpa using hnul'), habs, ← hspot]

/-- Another name in the same directory has a slot there, if the path is not too long with it. -/
theorem slot_withFileName (room : (p.withFileName other).text.utf8ByteSize < pathLimit) :
    f.slot (p.withFileName other) = .ok ⟨directory, some other, false⟩ := by
  have hstart := start_withFileName hs isName plain nul
  rw [if_neg (Nat.not_le.2 room)] at hstart
  obtain ⟨spot, above, tail, hr, closed⟩ := exists_reaches_of_slot hs
  obtain rfl := closed rfl
  obtain ⟨-, front, voids, rfl, void, -, hpieces⟩ :=
    Path.pieces_withFileName hr.pieces hr.isName.1 hr.isName.2 plain
  obtain ⟨here, hw, hv⟩ := exists_walk_of_append hr.way
  obtain rfl := eq_of_walk_voids void hv
  exact Reaches.slot ⟨hstart.trans hr.start, hpieces, hw, hr.isDirectory, isName, by simp⟩

end

/-! ## Writing -/

/-- What was written stands where the path leads. Nothing but a file can have been there, and nothing
else has changed. -/
theorem find_of_writeBytes {content : Bytes} (hw : f.writeBytes p content = .ok g) :
    ∃ spot, spot ≠ [] ∧ (∀ n, f.node? spot = some n → ∃ held, n = .file held) ∧
      g = f.put spot (.file content) ∧ g.find p = .ok (spot, .file content) := by
  unfold writeBytes placeForFile at hw
  split at hw
  · cases hw
  · next spot hplace =>
    split at hplace
    · cases hplace
    · next directory name hs =>
      obtain ⟨short, rfl⟩ := entry_eq_ok_iff.1 hplace
      obtain ⟨spot, above, tail, hr, closed⟩ := exists_reaches_of_slot hs
      obtain rfl := closed rfl
      have nonroot : directory ++ [name] ≠ [] := by simp
      have hg : (∀ n, f.node? (directory ++ [name]) = some n → ∃ held, n = .file held) ∧
          g = f.put (directory ++ [name]) (.file content) := by
        split at hw
        · cases hw
        · cases hw
        · next hd hs =>
          cases hw
          refine ⟨fun n hn => ?_, rfl⟩
          cases n with
          | file held => exact ⟨held, rfl⟩
          | directory => exact absurd hn hd
          | socket => exact absurd hn hs
      obtain ⟨plain, rfl⟩ := hg
      refine ⟨_, nonroot, plain, rfl, ?_⟩
      have hd : f.node? (directory ++ [name]) ≠ some .directory := fun h =>
        nomatch (plain _ h).choose_spec
      have keeps : Keeps f (f.put (directory ++ [name]) (.file content)) :=
        .put nonroot (.inl hd)
      have hplace := hr.place short keeps (absurd rfl)
      simp only [find, hplace, node?_put_self f nonroot]
    · cases hplace

/-- A directory that was made stands where the path leads, and nothing was there before. -/
theorem place_of_makeDirectory (hm : f.makeDirectory p = .ok g) :
    ∃ spot, spot ≠ [] ∧ f.node? spot = none ∧ g = f.put spot .directory ∧ g.place p = .ok spot := by
  unfold makeDirectory make at hm
  split at hm
  · cases hm
  · cases hm
  · next directory name isClosed hs =>
    split at hm
    · cases hm
    · next spot hentry =>
      obtain ⟨short, rfl⟩ := entry_eq_ok_iff.1 hentry
      obtain ⟨spot, above, tail, hr, -⟩ := exists_reaches_of_slot hs
      have nonroot : directory ++ [name] ≠ [] := by simp
      split at hm
      · cases hm
      · next hnone =>
        split at hm
        · cases hm
        · cases hm
          exact ⟨_, nonroot, by simpa using hnone, rfl,
            hr.place short (.put nonroot (.inr rfl)) fun _ => node?_put_self f nonroot _⟩

/-- A tree that has grown by directories, each of them where one of some paths leads. -/
structure Grown (ways : List Path) (f g : Files) : Prop where
  keeps : Keeps f g
  new : ∀ spot, g.node? spot = f.node? spot ∨
    f.node? spot = none ∧ g.node? spot = some .directory ∧ ∃ p ∈ ways, g.place p = .ok spot

namespace Grown

variable {ways more : List Path}

theorem refl (f : Files) : Grown ways f f := ⟨.refl f, fun _ => .inl rfl⟩

theorem trans (hfg : Grown ways f g) (hgh : Grown ways g h) : Grown ways f h := by
  refine ⟨hfg.keeps.trans hgh.keeps, fun spot => ?_⟩
  obtain hg | ⟨hf, hg, q, hq, hplace⟩ := hfg.new spot
  · rw [← hg]
    exact hgh.new spot
  · exact .inr ⟨hf, hgh.keeps.directories _ hg, q, hq, hgh.keeps.place hplace⟩

theorem mono (hfg : Grown ways f g) (hsub : ∀ p ∈ ways, p ∈ more) : Grown more f g :=
  ⟨hfg.keeps, fun spot => (hfg.new spot).imp_right fun ⟨hf, hg, q, hq, hplace⟩ =>
    ⟨hf, hg, q, hsub q hq, hplace⟩⟩

theorem makeDirectory (hm : f.makeDirectory p = .ok g) (hp : p ∈ ways) : Grown ways f g := by
  obtain ⟨spot, nonroot, hnone, rfl, hplace⟩ := place_of_makeDirectory hm
  refine ⟨.put nonroot (.inr rfl), fun other => ?_⟩
  by_cases h : other = spot
  · subst h
    exact .inr ⟨hnone, node?_put_self f nonroot _, p, hp, hplace⟩
  · exact .inl (node?_put_of_ne f h _)

/-- Making a chain of directories only adds directories, each where a path of the chain leads. -/
theorem makeChain {result : Except FileError Unit} (hm : f.makeChain ways = (result, g)) :
    Grown ways f g := by
  induction ways generalizing f g result with
  | nil =>
    cases hm
    exact .refl f
  | cons p above ih =>
    unfold Files.makeChain at hm
    split at hm
    · cases hm
      exact .refl f
    · dsimp only at hm
      split at hm
      · next hp =>
        cases hm
        exact makeDirectory hp (.head _)
      · split at hm
        · next hc =>
          cases hm
          exact (ih hc).mono fun q hq => .tail _ hq
        · next hc =>
          have first : Grown (p :: above) _ _ := (ih hc).mono fun q hq => .tail _ hq
          split at hm
          · next hp =>
            cases hm
            exact first.trans (makeDirectory hp (.head _))
          · cases hm
            exact first
      · cases hm
        exact .refl f

end Grown

end Files

end CallDebugger
