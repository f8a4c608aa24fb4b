import CallDebugger.Files.Path
import CallDebugger.Proofs.Text.Parted
import Mathlib.Data.List.DropRight

/-!
# The pieces of a path

A text is its pieces with slashes between them (`Path.intercalate_pieces`), so a path may be told by
its pieces. A parent is shorter than its path; so the paths above a path, which are cut off after
as many as its text is long, are all there (`Path.firstAbove_find?`).

Main facts: `Path.pieces_intercalate`, `Path.length_lt_of_parent?`, `Path.firstAbove_find?`.
-/

namespace CallDebugger.Path

variable {ps qs : List (List Char)} {piece cs : List Char} {p up : Path}

/-! ## Texts and pieces -/

theorem intercalate_cons (hps : ps ≠ []) :
    List.intercalate ['/'] (piece :: ps) = piece ++ '/' :: List.intercalate ['/'] ps := by
  obtain ⟨q, qs, rfl⟩ := List.exists_cons_of_ne_nil hps
  simp [List.intercalate]

theorem intercalate_concat (hps : ps ≠ []) :
    List.intercalate ['/'] (ps ++ [piece]) = List.intercalate ['/'] ps ++ '/' :: piece := by
  induction ps with
  | nil => exact absurd rfl hps
  | cons q qs ih =>
    by_cases hqs : qs = []
    · subst hqs
      simp [List.intercalate]
    · rw [List.cons_append, intercalate_cons (by simp), ih hqs, intercalate_cons hqs]
      simp

theorem pieces_ne_nil (cs : List Char) : pieces cs ≠ [] := Blank.splitOn_ne_nil cs

theorem pieces_slash (cs : List Char) : pieces ('/' :: cs) = [] :: pieces cs :=
  Blank.splitOn_cons_of_cut rfl cs

theorem pieces_cons {c : Char} (hc : c ≠ '/') (h : pieces cs = piece :: ps) :
    pieces (c :: cs) = (c :: piece) :: ps :=
  Blank.splitOn_cons_of_not (by simpa using hc) h

/-- A text is its pieces with slashes between them. -/
theorem intercalate_pieces (cs : List Char) : List.intercalate ['/'] (pieces cs) = cs := by
  induction cs with
  | nil => rfl
  | cons c cs ih =>
    obtain ⟨piece, rest, h⟩ := List.exists_cons_of_ne_nil (pieces_ne_nil cs)
    by_cases hc : c = '/'
    · subst hc
      rw [pieces_slash, intercalate_cons (pieces_ne_nil cs), ih]
      rfl
    · rw [pieces_cons hc h]
      rw [h] at ih
      rw [← ih]
      cases rest <;> simp [List.intercalate]

/-- A text without slashes is its only piece. -/
theorem pieces_of_plain (plain : '/' ∉ cs) : pieces cs = [cs] :=
  Blank.splitOn_of_uncut fun _ hc => beq_eq_false_iff_ne.2 fun h => plain (h ▸ hc)

/-- No piece has a slash. -/
theorem slash_notMem_of_mem_pieces (h : piece ∈ pieces cs) : '/' ∉ piece := by
  intro hc
  simpa using Blank.uncut_of_mem_splitOn h '/' hc

/-- Pieces without slashes are the pieces of their text. -/
theorem pieces_intercalate (hps : ps ≠ []) (plain : ∀ piece ∈ ps, '/' ∉ piece) :
    pieces (List.intercalate ['/'] ps) = ps := by
  induction ps with
  | nil => exact absurd rfl hps
  | cons piece ps ih =>
    have uncut : ∀ c ∈ piece, (c == '/') = false := fun c hc =>
      beq_eq_false_iff_ne.2 fun h => plain piece (.head _) (h ▸ hc)
    by_cases hps : ps = []
    · subst hps
      simpa [List.intercalate, pieces] using Blank.splitOn_of_uncut uncut
    · rw [intercalate_cons hps, pieces, Blank.splitOn_append_cons uncut rfl]
      exact congrArg _ (ih hps fun q hq => plain q (.tail _ hq))

/-! ## Parents -/

theorem length_intercalate_le (h : ps <+: qs) :
    (List.intercalate ['/'] ps).length ≤ (List.intercalate ['/'] qs).length := by
  obtain ⟨rest, rfl⟩ := h
  induction rest using List.reverseRecOn with
  | nil => simp
  | append_singleton rest piece ih =>
    by_cases hps : ps ++ rest = []
    · simp_all [List.intercalate]
    · rw [← List.append_assoc, intercalate_concat hps, List.length_append]
      omega

theorem trimPieces_eq (ps : List (List Char)) : trimPieces ps = ps.rdropWhile isVoid := rfl

theorem isPrefix_trimPieces (ps : List (List Char)) : trimPieces ps <+: ps := by
  rw [trimPieces_eq]
  exact List.rdropWhile_prefix _ ps

/-- The ways in which a text can start. -/
theorem lead_cases (cs : List Char) :
    (∃ rest, cs = '/' :: rest ∧ lead cs = ['/']) ∨ cs = ['.'] ∨
      (∃ rest, cs = '.' :: '/' :: rest ∧ lead cs = ['.']) ∨ cs.head? ≠ some '/' ∧ lead cs = [] := by
  unfold lead
  split
  · next rest => exact .inl ⟨rest, rfl, rfl⟩
  · exact .inr (.inl rfl)
  · next rest => exact .inr (.inr (.inl ⟨rest, rfl, rfl⟩))
  · next hslash _ _ =>
    refine .inr (.inr (.inr ⟨fun h => ?_, rfl⟩))
    obtain ⟨rest, rfl⟩ := List.head?_eq_some_iff.1 h
    exact hslash rest rfl

theorem isPrefix_lead (cs : List Char) : lead cs <+: cs := by
  unfold lead
  split <;> simp

/-- The last piece that is left names something. -/
theorem not_isVoid_of_trimPieces (h : trimPieces ps = qs ++ [piece]) : isVoid piece = false := by
  have hne : ps.rdropWhile isVoid ≠ [] := by
    rw [← trimPieces_eq, h]
    simp
  have hlast := List.rdropWhile_last_not isVoid ps hne
  simp only [← trimPieces_eq, h, List.getLast_append_singleton] at hlast
  simpa using hlast

/-- A parent is shorter than its path. -/
theorem length_lt_of_parent? (h : p.parent? = some up) : up.text.length < p.text.length := by
  rw [← String.length_toList (s := p.text)]
  have hlead := (isPrefix_lead p.text.toList).length_le
  unfold parent? at h
  dsimp only at h
  split at h
  · split at h
    · next hdot =>
      cases h
      rw [hdot] at hlead
      exact hlead
    · cases h
  · next hbody =>
    cases h
    obtain ⟨above, last, hlast⟩ := p.body.eq_nil_or_concat'.resolve_left hbody
    have hshort := length_intercalate_le (isPrefix_trimPieces above)
    have hlong := length_intercalate_le
      (isPrefix_trimPieces (pieces (p.text.toList.drop (lead p.text.toList).length)))
    change (List.intercalate ['/'] p.body).length ≤ _ at hlong
    rw [hlast, intercalate_pieces, List.length_drop] at hlong
    have hstep : (List.intercalate ['/'] above).length <
        (List.intercalate ['/'] (above ++ [last])).length := by
      by_cases habove : above = []
      · have hne : last ≠ [] := by
          rintro rfl
          simpa [isVoid] using not_isVoid_of_trimPieces hlast
        subst habove
        simpa [List.intercalate] using List.length_pos_iff.2 hne
      · rw [intercalate_concat habove, List.length_append, List.length_cons]
        omega
    simp only [hlast, List.dropLast_concat, ofChars, String.length_ofList, List.length_append]
    omega

/-- The first path at or above another one that has a property, if there is one. -/
inductive FirstAbove (q : Path → Bool) : Path → Option Path → Prop
  | here {p : Path} (holds : q p) : FirstAbove q p (some p)
  | above {p up : Path} {r : Option Path} (fails : q p = false) (parent : p.parent? = some up)
    (first : FirstAbove q up r) : FirstAbove q p r
  | none {p : Path} (fails : q p = false) (top : p.parent? = none) : FirstAbove q p none

/-- Every path above a path is among its ancestors. -/
theorem firstAbove_find? (q : Path → Bool) (p : Path) : FirstAbove q p (p.ancestors.find? q) := by
  suffices enough : ∀ limit p, p.text.length ≤ limit →
      FirstAbove q p ((ancestorsUpTo limit p).find? q) from enough _ p le_rfl
  intro limit
  induction limit with
  | zero =>
    intro p hp
    have top : p.parent? = none := by
      refine Option.eq_none_iff_forall_ne_some.2 fun up hup => ?_
      have := length_lt_of_parent? hup
      omega
    cases hq : q p with
    | true => simpa [ancestorsUpTo, hq] using FirstAbove.here hq
    | false => simpa [ancestorsUpTo, hq] using FirstAbove.none hq top
  | succ limit ih =>
    intro p hp
    cases hq : q p with
    | true =>
      have hfind : (ancestorsUpTo (limit + 1) p).find? q = some p := by
        unfold ancestorsUpTo
        split <;> simp [hq]
      exact hfind ▸ .here hq
    | false =>
      cases hup : p.parent? with
      | none => simpa [ancestorsUpTo, hup, hq] using FirstAbove.none hq hup
      | some up =>
        have := length_lt_of_parent? hup
        simpa [ancestorsUpTo, hup, hq] using FirstAbove.above hq hup (ih up (by omega))

/-! ## Another last name -/

theorem isVoid_iff : isVoid piece ↔ piece = [] ∨ piece = ['.'] := by simp [isVoid]

/-- A text starts with a slash just if its first piece is empty and not the only one. -/
theorem head?_eq_slash_iff : cs.head? = some '/' ↔ ∃ ps, pieces cs = [] :: ps ∧ ps ≠ [] := by
  cases cs with
  | nil => simp [pieces, Blank.splitOn]
  | cons c cs =>
    by_cases hc : c = '/'
    · subst hc
      exact iff_of_true rfl ⟨pieces cs, pieces_slash cs, pieces_ne_nil cs⟩
    · obtain ⟨piece, rest, h⟩ := List.exists_cons_of_ne_nil (pieces_ne_nil cs)
      rw [pieces_cons hc h]
      simpa using hc

theorem getLast?_intercalate (hps : ps ≠ []) (hlast : ∀ piece ∈ ps.getLast?, piece ≠ []) :
    (List.intercalate ['/'] ps).getLast? = (ps.getLast hps).getLast? := by
  obtain ⟨qs, last, rfl⟩ := (List.eq_nil_or_concat' ps).resolve_left hps
  have hne : last ≠ [] := hlast last (by simp)
  rw [List.getLast_append_singleton]
  by_cases hqs : qs = []
  · subst hqs
    simp [List.intercalate]
  · rw [intercalate_concat hqs, List.getLast?_append_of_ne_nil _ (by simp),
      List.getLast?_cons_of_ne_nil hne]

/-- The name that one goes to from a directory becomes its last piece. -/
theorem join_name {name : String} (plain : '/' ∉ name.toList)
    (hlast : ∀ piece ∈ ps.getLast?, piece ≠ []) (slashless : ∀ piece ∈ ps, '/' ∉ piece) :
    ((ofChars (List.intercalate ['/'] ps)).join ⟨name⟩).text.toList =
      List.intercalate ['/'] (ps ++ [name.toList]) := by
  have relative : (⟨name⟩ : Path).isAbsolute = false := by
    refine decide_eq_false fun h => plain (List.mem_of_mem_head? h)
  unfold join
  rw [relative, if_neg Bool.false_ne_true]
  by_cases hps : ps = []
  · subst hps
    simp [ofChars, List.intercalate]
  · have hend := getLast?_intercalate hps hlast
    have hlast := hlast _ (List.getLast_mem_getLast? hps)
    have hnonempty : List.intercalate ['/'] ps ≠ [] := by
      intro h
      rw [h] at hend
      exact hlast (List.getLast?_eq_none_iff.1 hend.symm)
    have hopen : (ps.getLast hps).getLast? ≠ some '/' := fun h =>
      slashless _ (List.getLast_mem hps) (List.mem_of_mem_getLast? h)
    rw [if_neg, intercalate_concat hps]
    · simp [ofChars]
    · simp [ofChars, hend, hopen, hnonempty]

theorem trimPieces_cons (ps : List (List Char)) : trimPieces (piece :: ps) =
    if trimPieces ps = [] ∧ isVoid piece then [] else piece :: trimPieces ps := by
  induction ps using List.reverseRecOn with
  | nil =>
    simp only [trimPieces_eq, List.rdropWhile_singleton, List.rdropWhile_nil, true_and]
  | append_singleton ps last ih =>
    rw [← List.cons_append]
    by_cases hv : isVoid last
    · simp only [trimPieces_eq, List.rdropWhile_concat_pos _ _ _ hv] at ih ⊢
      exact ih
    · have hv' : isVoid last = false := by simpa using hv
      simp [trimPieces_eq, List.rdropWhile_concat_neg _ _ _ hv, hv']

theorem trimPieces_concat (hv : isVoid piece = false) :
    trimPieces (ps ++ [piece]) = ps ++ [piece] := by
  rw [trimPieces_eq, List.rdropWhile_concat_neg _ _ _ (by simp [hv])]

/-- What is cut off the end names nothing. -/
theorem exists_voids (ps : List (List Char)) :
    ∃ voids, ps = trimPieces ps ++ voids ∧ ∀ piece ∈ voids, isVoid piece :=
  ⟨ps.rtakeWhile isVoid, List.rdropWhile_append_rtakeWhile.symm,
    fun _ h => List.mem_rtakeWhile_imp h⟩

theorem ne_nil_of_mem_getLast?_trimPieces (h : piece ∈ (trimPieces ps).getLast?) :
    piece ≠ [] := by
  rintro rfl
  obtain hnil | ⟨qs, last, hlast⟩ := List.eq_nil_or_concat' (trimPieces ps)
  · simp [hnil] at h
  · have named := not_isVoid_of_trimPieces hlast
    rw [hlast, List.getLast?_concat, Option.mem_some] at h
    simp [h, isVoid] at named

/-- A path whose lead and whose pieces behind it are known, with another last name. -/
theorem withFileName_of_body (name : String) {middle : List (List Char)} {last : List Char}
    (hp : p.body = middle ++ [last]) (hup : last ≠ ['.', '.']) :
    p.fileName? = some (String.ofList last) ∧ p.withFileName name =
      (ofChars (lead p.text.toList ++ List.intercalate ['/'] (trimPieces middle))).join ⟨name⟩ := by
  have hname : p.fileName? = some (String.ofList last) := by
    simp [fileName?, hp, hup]
  have hparent : p.parent? = some (ofChars (lead p.text.toList ++
      List.intercalate ['/'] (trimPieces middle))) := by
    unfold parent?
    dsimp only
    split
    · next h => simp [hp] at h
    · rw [hp, List.dropLast_concat]
  refine ⟨hname, ?_⟩
  simp [withFileName, hname, hparent]

/-- What the name of a directory and another name in it come to as one text. -/
theorem join_root {name : String} (plain : '/' ∉ name.toList)
    (hlast : ∀ piece ∈ ps.getLast?, piece ≠ []) (slashless : ∀ piece ∈ ps, '/' ∉ piece) :
    ((ofChars ('/' :: List.intercalate ['/'] ps)).join ⟨name⟩).text.toList =
      List.intercalate ['/'] ([] :: ps ++ [name.toList]) := by
  by_cases hps : ps = []
  · have relative : (⟨name⟩ : Path).isAbsolute = false :=
      decide_eq_false fun h => plain (List.mem_of_mem_head? h)
    subst hps
    simp [join, relative, ofChars, List.intercalate]
  · rw [← join_name plain, intercalate_cons hps, List.nil_append]
    · simpa [List.getLast?_cons_of_ne_nil hps] using hlast
    · simpa using slashless

/-- Of two texts that end in a name, both or none start at the root if what is before the name
does. -/
theorem isAbsolute_iff_of_pieces (hp : pieces p.text.toList = ps ++ [piece]) (hne : piece ≠ []) :
    p.isAbsolute ↔ ps.head? = some [] := by
  rw [isAbsolute, decide_eq_true_iff, head?_eq_slash_iff, hp]
  cases ps with
  | nil => simp [hne]
  | cons q qs => simp

/-- The characters of a text are those of its pieces, slashes apart. -/
theorem mem_iff_of_ne_slash {c : Char} (hc : c ≠ '/') :
    c ∈ cs ↔ ∃ piece ∈ pieces cs, c ∈ piece := by
  conv_lhs => rw [← intercalate_pieces cs]
  generalize pieces cs = ps
  induction ps with
  | nil => simp [List.intercalate]
  | cons q qs ih =>
    by_cases hqs : qs = []
    · subst hqs
      simp [List.intercalate]
    · rw [intercalate_cons hqs]
      simp [ih, hc]

/-- A name behind pieces is the last piece of their text. -/
theorem pieces_of_concat {name : String} (slashless : ∀ piece ∈ ps, '/' ∉ piece)
    (plain : '/' ∉ name.toList) (h : cs = List.intercalate ['/'] (ps ++ [name.toList])) :
    pieces cs = ps ++ [name.toList] := by
  subst h
  refine pieces_intercalate (by simp) fun piece h => ?_
  obtain h | h := List.mem_append.1 h
  · exact slashless piece h
  · rwa [List.mem_singleton.1 h]

section

variable {name : String} {middle : List (List Char)} {last : List Char} {rest : List Char}

/-- A path that starts at the root, with another last name. -/
theorem withFileName_of_root (hcs : p.text.toList = '/' :: rest)
    (hlead : lead p.text.toList = ['/']) (hrest : pieces rest = middle ++ [last])
    (hv : isVoid last = false) (hup : last ≠ ['.', '.']) (plain : '/' ∉ name.toList)
    (slashless : ∀ piece ∈ middle, '/' ∉ piece) :
    p.fileName? = some (String.ofList last) ∧ pieces (p.withFileName name).text.toList =
      ([] :: trimPieces middle) ++ [name.toList] := by
  have hbody : p.body = middle ++ [last] := by
    rw [body, hlead, hcs]
    exact (congrArg trimPieces hrest).trans (trimPieces_concat hv)
  have hfront : ∀ piece ∈ trimPieces middle, '/' ∉ piece := fun piece h =>
    slashless piece ((isPrefix_trimPieces middle).subset h)
  obtain ⟨hname, hwith⟩ := withFileName_of_body name hbody hup
  refine ⟨hname, pieces_of_concat (by simpa using hfront) plain ?_⟩
  rw [hwith, hlead]
  exact join_root plain (fun _ => ne_nil_of_mem_getLast?_trimPieces) hfront

/-- A path that starts at a point, with another last name. -/
theorem withFileName_of_point (hcs : p.text.toList = '.' :: '/' :: rest)
    (hlead : lead p.text.toList = ['.']) (hrest : pieces rest = middle ++ [last])
    (hv : isVoid last = false) (hup : last ≠ ['.', '.']) (plain : '/' ∉ name.toList)
    (slashless : ∀ piece ∈ middle, '/' ∉ piece) :
    p.fileName? = some (String.ofList last) ∧ pieces (p.withFileName name).text.toList =
      (['.'] :: trimPieces middle) ++ [name.toList] := by
  have hbody : p.body = ([] :: middle) ++ [last] := by
    rw [body, hlead, hcs]
    change trimPieces (pieces ('/' :: rest)) = _
    rw [pieces_slash, hrest, ← List.cons_append]
    exact trimPieces_concat hv
  have hfront : ∀ piece ∈ ['.'] :: trimPieces middle, '/' ∉ piece := by
    simpa using fun piece h => slashless piece ((isPrefix_trimPieces middle).subset h)
  have htext : ['.'] ++ List.intercalate ['/'] (trimPieces ([] :: middle)) =
      List.intercalate ['/'] (['.'] :: trimPieces middle) := by
    rw [trimPieces_cons]
    by_cases h : trimPieces middle = []
    · simp [h, isVoid, List.intercalate]
    · simp [h, intercalate_cons h]
  obtain ⟨hname, hwith⟩ := withFileName_of_body name hbody hup
  refine ⟨hname, pieces_of_concat hfront plain ?_⟩
  rw [hwith, hlead, htext]
  refine join_name plain (fun piece h => ?_) hfront
  by_cases hmiddle : trimPieces middle = []
  · rw [hmiddle, List.getLast?_singleton, Option.mem_some] at h
    simp [← h]
  · rw [List.getLast?_cons_of_ne_nil hmiddle] at h
    exact ne_nil_of_mem_getLast?_trimPieces h

/-- A path that starts at a name, with another last name. -/
theorem withFileName_of_name (hlead : lead p.text.toList = [])
    (hp : pieces p.text.toList = middle ++ [last]) (hv : isVoid last = false)
    (hup : last ≠ ['.', '.']) (plain : '/' ∉ name.toList)
    (slashless : ∀ piece ∈ middle, '/' ∉ piece) :
    p.fileName? = some (String.ofList last) ∧ pieces (p.withFileName name).text.toList =
      trimPieces middle ++ [name.toList] := by
  have hbody : p.body = middle ++ [last] := by
    rw [body, hlead]
    exact (congrArg trimPieces hp).trans (trimPieces_concat hv)
  have hfront : ∀ piece ∈ trimPieces middle, '/' ∉ piece := fun piece h =>
    slashless piece ((isPrefix_trimPieces middle).subset h)
  obtain ⟨hname, hwith⟩ := withFileName_of_body name hbody hup
  refine ⟨hname, pieces_of_concat hfront plain ?_⟩
  rw [hwith, hlead, List.nil_append]
  exact join_name plain (fun _ => ne_nil_of_mem_getLast?_trimPieces) hfront

end

/-- What is behind the first of some pieces ends as they do. -/
theorem exists_concat_of_cons {first last : List Char} {above rest : List (List Char)}
    (hne : rest ≠ []) (h : first :: rest = above ++ [last]) :
    ∃ middle, above = first :: middle ∧ rest = middle ++ [last] := by
  cases above with
  | nil => exact absurd (List.cons.inj h).2 hne
  | cons a middle => exact ⟨middle, by rw [(List.cons.inj h).1], (List.cons.inj h).2⟩

/-- The pieces of a path with another last name: those of the path up to the last one before its
name that names something, and the other name. -/
theorem pieces_withFileName {name : String} {above : List (List Char)} {last : List Char}
    (hp : pieces p.text.toList = above ++ [last]) (hv : isVoid last = false)
    (hup : last ≠ ['.', '.']) (plain : '/' ∉ name.toList) :
    p.fileName? = some (String.ofList last) ∧ ∃ front voids, above = front ++ voids ∧
      (∀ piece ∈ voids, isVoid piece) ∧ (front.head? = some [] ↔ above.head? = some []) ∧
      pieces (p.withFileName name).text.toList = front ++ [name.toList] := by
  have slashless : ∀ piece ∈ above, '/' ∉ piece := by
    intro piece h
    have hmem : piece ∈ pieces p.text.toList := hp ▸ List.mem_append_left _ h
    exact slash_notMem_of_mem_pieces hmem
  obtain ⟨rest, hcs, hlead⟩ | hdot | ⟨rest, hcs, hlead⟩ | ⟨hcs, hlead⟩ := lead_cases p.text.toList
  · rw [hcs, pieces_slash] at hp
    obtain ⟨middle, rfl, hrest⟩ := exists_concat_of_cons (pieces_ne_nil rest) hp
    obtain ⟨voids, hvoids, void⟩ := exists_voids middle
    obtain ⟨hname, hpieces⟩ := withFileName_of_root hcs hlead hrest hv hup plain
      fun piece h => slashless piece (.tail _ h)
    exact ⟨hname, _, voids, by rw [List.cons_append, ← hvoids], void, by simp, hpieces⟩
  · rw [hdot] at hp
    have hlast : last ∈ [['.']] := by
      change last ∈ pieces ['.']
      simp [hp]
    rw [List.mem_singleton.1 hlast] at hv
    cases hv
  · rw [hcs, pieces_cons (by decide) (pieces_slash rest)] at hp
    obtain ⟨middle, rfl, hrest⟩ := exists_concat_of_cons (pieces_ne_nil rest) hp
    obtain ⟨voids, hvoids, void⟩ := exists_voids middle
    obtain ⟨hname, hpieces⟩ := withFileName_of_point hcs hlead hrest hv hup plain
      fun piece h => slashless piece (.tail _ h)
    exact ⟨hname, _, voids, by rw [List.cons_append, ← hvoids], void, by simp, hpieces⟩
  · obtain ⟨voids, hvoids, void⟩ := exists_voids above
    obtain ⟨hname, hpieces⟩ := withFileName_of_name hlead hp hv hup plain slashless
    have hopen : above.head? ≠ some [] := by
      intro h
      obtain ⟨rest, rfl⟩ := List.head?_eq_some_iff.1 h
      exact hcs (head?_eq_slash_iff.2 ⟨rest ++ [last], hp, by simp⟩)
    refine ⟨hname, _, voids, hvoids, void, iff_of_false (fun h => hopen ?_) hopen, hpieces⟩
    rw [hvoids, List.head?_append, h, Option.some_or]

/-- A name alone gives way to the other name. -/
theorem text_withFileName {name : String} {last : List Char} (hp : pieces p.text.toList = [last])
    (hv : isVoid last = false) (hup : last ≠ ['.', '.']) (plain : '/' ∉ name.toList) :
    (p.withFileName name).text = name := by
  have hp : pieces p.text.toList = [] ++ [last] := hp
  obtain ⟨-, front, voids, hnone, -, -, hpieces⟩ := pieces_withFileName hp hv hup plain
  obtain ⟨rfl, -⟩ := List.append_eq_nil_iff.1 hnone.symm
  refine String.toList_inj.1 ?_
  rw [← intercalate_pieces (p.withFileName name).text.toList, hpieces]
  simp [List.intercalate]

/-- Another last name is put behind the same text, whatever it is. -/
theorem exists_text_withFileName (p : Path) : ∃ front : String, ∀ name : String,
    '/' ∉ name.toList → (p.withFileName name).text = front ++ name := by
  have joined (dir : Path) : ∃ front : String, ∀ name : String,
      '/' ∉ name.toList → (dir.join ⟨name⟩).text = front ++ name := by
    refine ⟨if dir.text.isEmpty || dir.text.toList.getLast? = some '/' then dir.text
      else dir.text ++ "/", fun name plain => ?_⟩
    have relative : (⟨name⟩ : Path).isAbsolute = false :=
      decide_eq_false fun h => plain (List.mem_of_mem_head? h)
    rw [join, relative, if_neg Bool.false_ne_true]
    split <;> rfl
  unfold withFileName
  split <;> exact joined _

end CallDebugger.Path
