import CallDebugger.Proofs.Files.Ways

/-!
# Plain files in a directory

A path is `Filed` where it leads to a name in a directory that nothing but a plain file stands
under. What the operations on files do there is told by the place alone: removing drops it, writing
puts a file there, and moving to a free place (`Moved`) changes the two places and nothing else.

Main facts: `Filed.remove`, `Filed.writeBytes`, `Filed.rename`.
-/

namespace CallDebugger.Files

variable {f g : Files} {p q : Path} {home : Place} {name other : String}

theorem Keeps.slot {s : Slot} (hk : Keeps f g) (hs : f.slot p = .ok s) : g.slot p = .ok s := by
  unfold Files.slot at hs ⊢
  rw [hk.start]
  split at hs
  · cases hs
  · dsimp only at hs ⊢
    split at hs
    · exact hs
    · split at hs
      · cases hs
      · next hw =>
        rw [hk.walk hw]
        exact hs

theorem Keeps.drop {spot : Place} (hd : f.node? spot ≠ some .directory) :
    Keeps f (f.drop spot) := by
  refine ⟨rfl, fun there ht => ?_⟩
  by_cases h : there = spot
  · exact absurd (h ▸ ht) hd
  · rwa [node?_drop_of_ne f h]

/-- A path that leads to a name in a directory, under which nothing but a plain file may stand. -/
structure Filed (f : Files) (p : Path) (home : Place) (name : String) : Prop where
  slot : f.slot p = .ok ⟨home, some name, false⟩
  short : isLong name = false
  plain : ∀ n, f.node? (home ++ [name]) = some n → ∃ content, n = .file content

namespace Filed

theorem place (hp : f.Filed p home name) : f.place p = .ok (home ++ [name]) := by
  obtain ⟨spot, above, tail, hr, closed⟩ := exists_reaches_of_slot hp.slot
  obtain rfl := closed rfl
  exact hr.place hp.short (.refl f) (absurd rfl)

theorem ne_directory (hp : f.Filed p home name) : f.node? (home ++ [name]) ≠ some .directory := by
  intro h
  obtain ⟨content, hc⟩ := hp.plain _ h
  cases hc

theorem has_iff (hp : f.Filed p home name) : f.has p ↔ f.node? (home ++ [name]) ≠ none := by
  cases hn : f.node? (home ++ [name]) <;> simp [has, find, hp.place, hn, Except.toOption]

theorem size_of_none (hp : f.Filed p home name) (h : f.node? (home ++ [name]) = none) :
    f.size p = .error .notFound := by
  simp only [size, find, hp.place, h]

theorem size_of_file {content : Bytes} (hp : f.Filed p home name)
    (h : f.node? (home ++ [name]) = some (.file content)) : f.size p = .ok content.length := by
  simp only [size, find, hp.place, h]

theorem remove {content : Bytes} (hp : f.Filed p home name)
    (h : f.node? (home ++ [name]) = some (.file content)) :
    f.remove p = .ok (f.drop (home ++ [name])) := by
  simp only [Files.remove, find, hp.place, h]

theorem writeBytes (hp : f.Filed p home name) (content : Bytes) :
    f.writeBytes p content = .ok (f.put (home ++ [name]) (.file content)) := by
  cases hn : f.node? (home ++ [name]) with
  | none => simp [Files.writeBytes, placeForFile, hp.slot, entry, hp.short, hn]
  | some n =>
    obtain ⟨_, rfl⟩ := hp.plain n hn
    simp [Files.writeBytes, placeForFile, hp.slot, entry, hp.short, hn]

end Filed

/-- What stood at one place stands at another one, which was free, and nothing else changed. -/
structure Moved (old new : Place) (f g : Files) : Prop where
  keeps : Keeps f g
  source : g.node? old = none
  target : g.node? new = f.node? old
  others : ∀ spot, spot ≠ old → spot ≠ new → g.node? spot = f.node? spot

/-- What stands somewhere after a move stood there before, or where it was moved from. -/
theorem Moved.origin {old new spot : Place} {n : Node} (hm : Moved old new f g)
    (hn : g.node? spot = some n) :
    f.node? spot = some n ∨ spot = new ∧ f.node? old = some n := by
  by_cases hold : spot = old
  · rw [hold, hm.source] at hn
    cases hn
  · by_cases hnew : spot = new
    · rw [hnew, hm.target] at hn
      exact .inr ⟨hnew, hn⟩
    · rw [hm.others _ hold hnew] at hn
      exact .inl hn

/-- A plain file moves to a free name in its directory. -/
theorem Filed.rename {content : Bytes} (hp : f.Filed p home name) (hq : f.Filed q home other)
    (hne : name ≠ other) (h : f.node? (home ++ [name]) = some (.file content))
    (free : f.node? (home ++ [other]) = none) :
    ∃ g, f.rename p q = .ok g ∧ Moved (home ++ [name]) (home ++ [other]) f g := by
  have hspots : home ++ [name] ≠ home ++ [other] := by simpa using hne
  have hprefix {a b : String} (hab : home ++ [a] ≠ home ++ [b]) :
      (home ++ [a]).isPrefixOf (home ++ [b]) = false := by
    refine Bool.eq_false_iff.2 fun h => hab ?_
    exact (List.isPrefixOf_iff_prefix.1 h).eq_of_length (by simp)
  have keeps : Keeps f ((f.drop (home ++ [name])).put (home ++ [other]) (.file content)) := by
    refine (Keeps.drop hp.ne_directory).trans (.put (by simp) (.inl ?_))
    rw [node?_drop_of_ne f hspots.symm, free]
    simp
  refine ⟨(f.drop (home ++ [name])).put (home ++ [other]) (.file content), ?_, keeps, ?_, ?_, ?_⟩
  · simp [Files.rename, hp.slot, hq.slot, entry, hp.short, hq.short, h, move, hne,
      hprefix hspots, hprefix hspots.symm, free]
  · rw [node?_put_of_ne _ hspots, node?_drop_self f (by simp)]
  · rw [node?_put_self _ (by simp), h]
  · intro spot hold hnew
    rw [node?_put_of_ne _ hnew, node?_drop_of_ne f hold]

/-- A path that is too long takes no file. -/
theorem Filed.rename_of_slot_error {e : FileError} (hp : f.Filed p home name)
    (hq : f.slot q = .error e) : f.rename p q = .error e := by
  simp only [Files.rename, hp.slot, hq]

/-- A name that is too long takes no file. -/
theorem Filed.rename_of_isLong {content : Bytes} (hp : f.Filed p home name)
    (h : f.node? (home ++ [name]) = some (.file content))
    (hq : f.slot q = .ok ⟨home, some other, false⟩) (long : isLong other) :
    f.rename p q = .error .nameTooLong := by
  simp [Files.rename, hp.slot, hq, entry, hp.short, h, long]

end CallDebugger.Files
