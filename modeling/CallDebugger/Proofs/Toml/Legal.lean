import CallDebugger.Toml.Marked
import Mathlib.Data.List.Nodup

/-!
# What documents amount to

The table that a document amounts to is `Legal`, and so is every table in it: no key is there twice,
and every integer is below `integerBound`. Statements keep this when they are carried out, and the
scanner gives only legal values.

Main facts: `Document.carryOut?_legal`, `Scan.value_yields`, `readLayer?_legal`.
-/

namespace CallDebugger.Toml

/-- A value whose integers are small enough, and in which no table has a key twice. -/
inductive Legal : Toml → Prop
  | string (text : String) : Legal (.string text)
  | integer {n : Int} (small : n < integerBound) : Legal (.integer n)
  | float (literal : String) : Legal (.float literal)
  | boolean (b : Bool) : Legal (.boolean b)
  | moment (text : String) : Legal (.moment text)
  | array {ofTables : Bool} {items : List Toml} (parts : ∀ v ∈ items, Legal v) :
      Legal (.array ofTables items)
  | table {standing : Standing} {entries : List (String × Toml)}
      (distinct : (entries.map Prod.fst).Nodup) (parts : ∀ e ∈ entries, Legal e.2) :
      Legal (.table standing entries)

namespace Table

/-- A table that has no key twice, and only legal values. -/
structure Legal (t : Table) : Prop where
  distinct : (t.map Prod.fst).Nodup
  parts : ∀ e ∈ t, e.2.Legal

variable {t t' : Table} {key : String} {v : Toml}

/-- A table as a value is legal just if it is one as a table. -/
theorem legal_table {standing : Standing} : (Toml.table standing t).Legal ↔ t.Legal := by
  constructor
  · rintro (_ | _ | _ | _ | _ | _ | ⟨distinct, parts⟩)
    exact ⟨distinct, parts⟩
  · rintro ⟨distinct, parts⟩
    exact .table distinct parts

/-- The items of a legal array are legal. -/
theorem legal_array {ofTables : Bool} {items : List Toml} :
    (Toml.array ofTables items).Legal ↔ ∀ v ∈ items, v.Legal := by
  constructor
  · rintro (_ | _ | _ | _ | _ | parts)
    exact parts
  · exact .array

theorem Legal.nil : Legal [] := ⟨.nil, by simp⟩

/-- A key that a table has a value for stands in it with this value. -/
theorem mem_of_lookup (h : t.lookup key = some v) : (key, v) ∈ t := by
  induction t with
  | nil => simp at h
  | cons e t ih =>
    obtain ⟨k, w⟩ := e
    rw [List.lookup_cons] at h
    split at h
    · next hk =>
      obtain rfl : key = k := by simpa using hk
      obtain rfl : w = v := by simpa using h
      exact .head _
    · exact .tail _ (ih h)

/-- A key that a table has no value for does not stand in it. -/
theorem notMem_of_lookup (h : t.lookup key = none) : key ∉ t.map Prod.fst := by
  intro hk
  obtain ⟨⟨k, w⟩, he, rfl⟩ := List.mem_map.1 hk
  have hne := List.lookup_eq_none_iff.1 h (k, w) he
  simp at hne

theorem Legal.of_lookup (ht : t.Legal) (h : t.lookup key = some v) : v.Legal :=
  ht.parts _ (mem_of_lookup h)

/-- The keys of a table once a key is set: nothing moves, and a new key comes last. -/
theorem map_set (t : Table) (key : String) (v : Toml) :
    (t.set key v).map Prod.fst =
      t.map Prod.fst ++ if key ∈ t.map Prod.fst then [] else [key] := by
  induction t with
  | nil => simp [set]
  | cons e t ih =>
    obtain ⟨k, w⟩ := e
    by_cases hk : k = key
    · simp [set, hk]
    · have hk' : key ∈ k :: t.map Prod.fst ↔ key ∈ t.map Prod.fst := by
        rw [List.mem_cons, or_iff_right fun h => hk h.symm]
      simp only [set, hk, if_false, hk', List.map_cons, ih, List.cons_append]

/-- What stands in a table once a key is set stood there before, or is the value. -/
theorem mem_set {e : String × Toml} (h : e ∈ t.set key v) : e ∈ t ∨ e.2 = v := by
  induction t with
  | nil => exact .inr (by simp_all [set])
  | cons d t ih =>
    obtain ⟨k, w⟩ := d
    by_cases hk : k = key
    · simp only [set, hk, if_true, List.mem_cons] at h
      obtain rfl | h := h
      · exact .inr rfl
      · exact .inl (.tail _ h)
    · simp only [set, hk, if_false, List.mem_cons] at h
      obtain rfl | h := h
      · exact .inl (.head _)
      · exact (ih h).imp_left (.tail _)

theorem Legal.set (ht : t.Legal) (hv : v.Legal) : (t.set key v).Legal where
  distinct := by
    rw [map_set]
    split
    · simpa using ht.distinct
    · next h => exact ht.distinct.append (by simp) (by simpa using h)
  parts e he := by
    obtain he | he := mem_set he
    · exact ht.parts e he
    · exact he ▸ hv

theorem Legal.concat (ht : t.Legal) (hv : v.Legal) (h : t.lookup key = none) :
    Legal (t ++ [(key, v)]) where
  distinct := by
    rw [List.map_append]
    exact ht.distinct.append (by simp) (by simpa using notMem_of_lookup h)
  parts e he := by
    obtain he | he := List.mem_append.1 he
    · exact ht.parts e he
    · simp_all

theorem Legal.filter (ht : t.Legal) (p : String × Toml → Bool) : Legal (t.filter p) where
  distinct := ht.distinct.sublist (List.filter_sublist.map _)
  parts e he := ht.parts e (List.mem_filter.1 he).1

/-- Changing a table on the way of a path keeps the whole legal, if the change itself does. -/
theorem change?_legal {dotted : Bool} {f : Standing → Table → Option (Standing × Table)}
    (hf : ∀ {s s' : Standing} {t t' : Table}, t.Legal → f s t = some (s', t') → t'.Legal)
    {path : List String} {s s' : Standing} (ht : t.Legal)
    (h : change? dotted f path s t = some (s', t')) : t'.Legal := by
  induction path generalizing s s' t t' with
  | nil => exact hf ht h
  | cons key path ih =>
    rw [change?] at h
    split at h
    · obtain ⟨⟨s₁, inner⟩, h₁, hs⟩ := Option.map_eq_some_iff.1 h
      cases hs
      exact ht.set (legal_table.2 (ih .nil h₁))
    · cases h
    · next hl =>
      split at h
      · cases h
      · obtain ⟨⟨s₁, inner⟩, h₁, hs⟩ := Option.map_eq_some_iff.1 h
        cases hs
        exact ht.set (legal_table.2 (ih (legal_table.1 (ht.of_lookup hl)) h₁))
    · next hl =>
      obtain ⟨⟨s₁, inner⟩, h₁, hs⟩ := Option.map_eq_some_iff.1 h
      cases hs
      have hitems := legal_array.1 (ht.of_lookup hl)
      refine ht.set (legal_array.2 fun v hv => ?_)
      obtain rfl | hv := List.mem_cons.1 hv
      · exact legal_table.2 (ih (legal_table.1 (hitems _ (.head _))) h₁)
      · exact hitems v (.tail _ hv)
    · cases h

theorem define?_legal {path : List String} {s s' : Standing} (hv : v.Legal) (ht : t.Legal)
    (h : define? path v s t = some (s', t')) : t'.Legal := by
  rw [define?] at h
  split at h
  · cases h
  · refine change?_legal (fun {s s' t t'} ht h => ?_) ht h
    split at h
    · cases h
    · split at h
      · cases h
      · next hl =>
        cases h
        exact ht.concat hv (Option.not_isSome_iff_eq_none.1 hl)

theorem openTable?_legal {path : List String} (ht : t.Legal) (h : openTable? path t = some t') :
    t'.Legal := by
  rw [openTable?] at h
  split at h
  · cases h
  · next key _ =>
    obtain ⟨⟨s, t₁⟩, h₁, rfl⟩ := Option.map_eq_some_iff.1 h
    refine change?_legal (fun {s s' t t'} ht h => ?_) ht h₁
    split at h
    · next hl =>
      cases h
      exact ht.concat (legal_table.2 .nil) hl
    · next hl =>
      cases h
      refine (ht.filter _).concat (legal_table.2 (legal_table.1 (ht.of_lookup hl))) ?_
      refine List.lookup_eq_none_iff.2 fun e he => ?_
      have hne : e.1 ≠ key := by simpa using (List.mem_filter.1 he).2
      exact bne_iff_ne.2 hne.symm
    · cases h

theorem openElement?_legal {path : List String} (ht : t.Legal)
    (h : openElement? path t = some t') : t'.Legal := by
  rw [openElement?] at h
  split at h
  · cases h
  · obtain ⟨⟨s, t₁⟩, h₁, rfl⟩ := Option.map_eq_some_iff.1 h
    refine change?_legal (fun {s s' t t'} ht h => ?_) ht h₁
    have fresh : (Toml.table .header []).Legal := legal_table.2 .nil
    split at h
    · next hl =>
      cases h
      exact ht.concat (legal_array.2 (by simpa using fresh)) hl
    · next hl =>
      cases h
      have hitems := legal_array.1 (ht.of_lookup hl)
      exact ht.set (legal_array.2 (by simpa using ⟨fresh, hitems⟩))
    · cases h

end Table

/-- A statement whose value, if it has one, is legal. -/
def Statement.Legal : Statement → Prop
  | .setting _ v => v.Legal
  | _ => True

namespace Document

theorem carryOut?_legal {d d' : Document} {s : Statement} (hs : s.Legal) (hd : d.root.Legal)
    (h : d.carryOut? s = some d') : d'.root.Legal := by
  cases s with
  | header path =>
    obtain ⟨t, ht, hd'⟩ := Option.bind_eq_some_iff.1 h
    cases hd'
    exact Table.openTable?_legal hd ht
  | element path =>
    obtain ⟨t, ht, hd'⟩ := Option.bind_eq_some_iff.1 h
    cases hd'
    exact Table.openElement?_legal hd ht
  | setting path v =>
    obtain ⟨⟨standing, t⟩, ht, hd'⟩ := Option.bind_eq_some_iff.1 h
    cases hd'
    exact Table.change?_legal (fun ht h => Table.define?_legal hs ht h) hd ht

theorem foldlM_legal {ss : List Statement} {d d' : Document} (hs : ∀ s ∈ ss, s.Legal)
    (hd : d.root.Legal) (h : ss.foldlM carryOut? d = some d') : d'.root.Legal := by
  induction ss generalizing d with
  | nil =>
    cases h
    exact hd
  | cons s ss ih =>
    rw [List.foldlM_cons] at h
    obtain ⟨d₁, h₁, h⟩ := Option.bind_eq_some_iff.1 h
    exact ih (fun s hs' => hs s (.tail _ hs')) (carryOut?_legal (hs s (.head _)) hd h₁) h

end Document

namespace Scan

/-- Everything that a scan takes has a property. -/
def Yields (P : α → Prop) (s : Scan α) : Prop := ∀ cs a rest, s cs = some (a, rest) → P a

section
variable {P : α → Prop} {Q : β → Prop} {s s' : Scan α}

theorem yields_true (s : Scan α) : s.Yields fun _ => True := fun _ _ _ _ => trivial

theorem Yields.pure {a : α} (h : P a) : Yields P (Pure.pure a : Scan α) := by
  rintro cs b rest ⟨⟩
  exact h

theorem Yields.failure : Yields P (failure : Scan α) := by
  rintro cs b rest ⟨⟩

theorem Yields.bind {k : α → Scan β} (hs : s.Yields P) (hk : ∀ a, P a → (k a).Yields Q) :
    (s >>= k).Yields Q := by
  intro cs b rest h
  obtain ⟨⟨a, cs'⟩, h₁, h₂⟩ := Option.bind_eq_some_iff.1 h
  exact hk a (hs cs a cs' h₁) cs' b rest h₂

/-- What a scan takes in the end may be told without what it took before. -/
theorem Yields.then {k : α → Scan β} (hk : ∀ a, (k a).Yields Q) : (s >>= k).Yields Q :=
  (yields_true s).bind fun a _ => hk a

theorem Yields.orElse {f : Unit → Scan α} (hs : s.Yields P) (hf : (f ()).Yields P) :
    (HOrElse.hOrElse s f).Yields P := by
  intro cs a rest h
  have h' : (match s cs with | some r => some r | none => f () cs) = some (a, rest) := by
    revert h
    change (HOrElse.hOrElse (s cs) fun _ => f () cs) = some (a, rest) → _
    cases s cs <;> exact id
  split at h'
  · next r hr =>
    cases h'
    exact hs cs a rest hr
  · exact hf cs a rest h'

end

theorem basedInteger_yields (mark : String) (base : Nat) :
    (basedInteger mark base).Yields Legal := by
  refine .then fun _ => .then fun ds => ?_
  split
  · exact .failure
  · split
    · next small => exact .pure (.integer small)
    · exact .failure

theorem decimalInteger_yields : decimalInteger.Yields Legal := by
  have last (value : Int) : Yields Legal (if -integerBound ≤ value && value < integerBound
      then pure (.integer value) else failure) := by
    split
    · next fits =>
      rw [Bool.and_eq_true] at fits
      exact .pure (.integer (of_decide_eq_true fits.2))
    · exact .failure
  refine .then fun negative => .then fun ds => ?_
  split
  · exact .failure
  · exact last _

theorem integer_yields : integer.Yields Legal :=
  (basedInteger_yields _ _).orElse ((basedInteger_yields _ _).orElse
    ((basedInteger_yields _ _).orElse decimalInteger_yields))

theorem float_yields : float.Yields Legal := by
  refine .orElse ?_ (.then fun negative => .orElse (.then fun _ => ?_) (.then fun _ => ?_))
  · refine .then fun negative => .then fun whole => .then fun part => .then fun power => ?_
    split
    · exact .failure
    · dsimp only
      split
      · exact .failure
      · exact .pure (.float _)
  · exact .pure (.float _)
  · exact .pure (.float _)

theorem moment_yields : moment.Yields Legal := .then fun text => .pure (.moment text)

theorem scalar_yields : scalar.Yields Legal := by
  refine .then fun c => ?_
  split
  · exact .then fun text => .pure (.string text)
  · exact .then fun text => .pure (.string text)
  · exact .then fun _ => .pure (.boolean true)
  · exact .then fun _ => .pure (.boolean false)
  · exact moment_yields.orElse (float_yields.orElse integer_yields)

theorem items_yields {item : Scan Toml} (h : item.Yields Legal) (limit : Nat) :
    (items item limit).Yields fun vs => ∀ v ∈ vs, v.Legal := by
  induction limit with
  | zero => exact .failure
  | succ limit ih =>
    refine .then fun _ => .then fun c => ?_
    split
    · exact .then fun _ => .pure (by simp)
    · refine h.bind fun v hv => .then fun _ => .then fun c => ?_
      split
      · exact ih.bind fun vs hvs => .pure (List.forall_mem_cons.2 ⟨hv, hvs⟩)
      · exact .pure (by simpa using hv)
      · exact .failure

theorem pair_yields {item : Scan Toml} (h : item.Yields Legal) :
    (pair item).Yields fun p => p.2.Legal :=
  .then fun _ => .then fun _ => .then fun _ => h.bind fun _ hv => .pure hv

theorem pairs_yields {item : Scan Toml} (h : item.Yields Legal) (limit : Nat) :
    (pairs item limit).Yields fun ps => ∀ p ∈ ps, p.2.Legal := by
  induction limit with
  | zero => exact .failure
  | succ limit ih =>
    refine (pair_yields h).bind fun p hp => .then fun _ => .then fun c => ?_
    split
    · exact ih.bind fun ps hps => .pure (List.forall_mem_cons.2 ⟨hp, hps⟩)
    · exact .pure (by simpa using hp)
    · exact .failure

/-- Defining the pairs of an inline table one after the other keeps it legal. -/
theorem foldlM_define?_legal {ps : List (List String × Toml)} {s s' : Standing} {t t' : Table}
    (hps : ∀ p ∈ ps, p.2.Legal) (ht : t.Legal)
    (h : ps.foldlM (fun (s, t) (path, value) => Table.define? path value s t) (s, t) =
      some (s', t')) : t'.Legal := by
  induction ps generalizing s t with
  | nil =>
    cases h
    exact ht
  | cons p ps ih =>
    rw [List.foldlM_cons] at h
    obtain ⟨⟨s₁, t₁⟩, h₁, h⟩ := Option.bind_eq_some_iff.1 h
    exact ih (fun p hp => hps p (.tail _ hp)) (Table.define?_legal (hps p (.head _)) ht h₁) h

theorem inlineTable_yields {item : Scan Toml} (h : item.Yields Legal) (limit : Nat) :
    (inlineTable limit item).Yields Legal := by
  refine .then fun _ => .then fun _ => .then fun c => ?_
  dsimp only
  split
  on_goal 1 =>
    refine .then fun _ =>
      (Yields.pure (P := fun ps => ∀ p ∈ ps, p.2.Legal) ?_).bind fun ps hps => ?_
    · simp
  on_goal 2 => refine (pairs_yields h limit).bind fun ps hps => ?_
  all_goals
    split
    · exact .failure
    · next ht => exact .pure (Table.legal_table.2 (foldlM_define?_legal hps .nil ht))

/-- The values that a scan takes are legal. -/
theorem value_yields (limit depth : Nat) : (value limit depth).Yields Legal := by
  induction depth with
  | zero => exact scalar_yields
  | succ depth ih =>
    refine .then fun c => ?_
    split
    · exact .then fun _ => (items_yields ih limit).bind fun vs hvs => .pure (.array hvs)
    · exact inlineTable_yields ih limit
    · exact scalar_yields

theorem statement_yields (limit : Nat) : (statement limit).Yields Statement.Legal := by
  have last (s : Statement) (hs : s.Legal) : Yields Statement.Legal (do lineRest; pure s) :=
    .then fun _ => .pure hs
  refine .then fun cs => ?_
  dsimp only
  split
  · exact .then fun _ => .then fun path => .then fun _ => (Yields.pure trivial).bind last
  · refine .then fun c => ?_
    split
    · exact .then fun _ => .then fun path => .then fun _ => (Yields.pure trivial).bind last
    · exact (pair_yields (value_yields limit depthLimit)).bind fun p hp =>
        (Yields.pure (P := Statement.Legal) (a := .setting p.1 p.2) hp).bind last

theorem statements_yields (limit lines : Nat) :
    (statements limit lines).Yields fun ss => ∀ s ∈ ss, s.Legal := by
  induction lines with
  | zero => exact .failure
  | succ lines ih =>
    refine .then fun _ => .then fun c => ?_
    split
    · exact .pure (by simp)
    · exact .then fun _ => .then fun _ => ih
    · exact .then fun _ => ih
    · exact .then fun _ => ih
    · exact (statement_yields limit).bind fun s hs =>
        ih.bind fun ss hss => .pure (List.forall_mem_cons.2 ⟨hs, hss⟩)

end Scan

theorem legal_of_all? {text : String} {ss : List Statement} (h : Statement.all? text = some ss) :
    ∀ s ∈ ss, s.Legal := by
  obtain ⟨⟨ss', rest⟩, hs, hss⟩ := Option.map_eq_some_iff.1 h
  cases hss
  exact Scan.statements_yields _ _ _ _ _ hs

/-- The table that a document amounts to is legal. -/
theorem read?_legal {text : String} {t : Table} (h : read? text = some t) : t.Legal := by
  obtain ⟨ss, hss, h⟩ := Option.bind_eq_some_iff.1 h
  obtain ⟨d, hd, h⟩ := Option.bind_eq_some_iff.1 h
  cases h
  exact Document.foldlM_legal (legal_of_all? hss) .nil hd

theorem marked?_legal {v m : Toml} (h : marked? v = some m) : m.Legal := by
  cases v with
  | string text =>
    change momentOfText? text = some m at h
    unfold momentOfText? at h
    split at h
    · next hm =>
      cases h
      exact Scan.moment_yields _ _ _ hm
    · cases h
  | _ => cases h

/-- The items that take the place of some items are legal, if what takes the place of each is. -/
theorem unmarkItems?_legal {vs vs' : List Toml}
    (each : ∀ v ∈ vs, ∀ v', unmark? v = some v' → v'.Legal) (h : unmarkItems? vs = some vs') :
    ∀ v ∈ vs', v.Legal := by
  induction vs generalizing vs' with
  | nil =>
    rw [unmarkItems?] at h
    cases h
    simp
  | cons v vs ih =>
    rw [unmarkItems?] at h
    obtain ⟨w, hw, h⟩ := Option.bind_eq_some_iff.1 h
    obtain ⟨ws, hws, h⟩ := Option.bind_eq_some_iff.1 h
    cases h
    exact List.forall_mem_cons.2
      ⟨each v (.head _) w hw, ih (fun v hv => each v (.tail _ hv)) hws⟩

@[inherit_doc unmarkItems?_legal] theorem unmarkEntries?_legal {t t' : Table}
    (distinct : (t.map Prod.fst).Nodup)
    (each : ∀ e ∈ t, ∀ v', unmark? e.2 = some v' → v'.Legal)
    (h : unmarkEntries? t = some t') : t'.Legal := by
  suffices hs : t'.map Prod.fst = t.map Prod.fst ∧ ∀ e ∈ t', e.2.Legal from
    ⟨hs.1 ▸ distinct, hs.2⟩
  clear distinct
  induction t generalizing t' with
  | nil =>
    rw [unmarkEntries?] at h
    cases h
    simp
  | cons e t ih =>
    obtain ⟨key, v⟩ := e
    rw [unmarkEntries?] at h
    obtain ⟨w, hw, h⟩ := Option.bind_eq_some_iff.1 h
    obtain ⟨ws, hws, h⟩ := Option.bind_eq_some_iff.1 h
    cases h
    obtain ⟨hkeys, hparts⟩ := ih (fun e he => each e (.tail _ he)) hws
    exact ⟨by simp [hkeys], List.forall_mem_cons.2 ⟨each _ (.head _) w hw, hparts⟩⟩

theorem unmark?_legal {v v' : Toml} (hv : v.Legal) (h : unmark? v = some v') : v'.Legal := by
  induction hv generalizing v' with
  | array _ ih =>
    rw [unmark?] at h
    obtain ⟨vs, hvs, rfl⟩ := Option.map_eq_some_iff.1 h
    exact .array (unmarkItems?_legal (fun v hv v' => ih v hv) hvs)
  | table distinct _ ih =>
    rw [unmark?] at h
    split at h
    · split at h
      · exact marked?_legal h
      · obtain ⟨t, ht, rfl⟩ := Option.map_eq_some_iff.1 h
        exact Table.legal_table.2 (unmarkEntries?_legal distinct (fun e he v' => ih e he) ht)
    · cases h
      exact Table.legal_table.2 .nil
  | integer small =>
    cases h
    exact .integer small
  | string | float | boolean | moment =>
    cases h
    constructor

/-- The table that a document amounts to as a layer is legal. -/
theorem readLayer?_legal {text : String} {t : Table} (h : readLayer? text = some t) :
    t.Legal := by
  obtain ⟨t₀, h₀, h⟩ := Option.bind_eq_some_iff.1 h
  have legal := read?_legal h₀
  exact unmarkEntries?_legal legal.distinct (fun e he v' => unmark?_legal (legal.parts e he)) h

end CallDebugger.Toml
