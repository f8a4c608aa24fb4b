import CallDebugger.Proofs.Config.Settings
import CallDebugger.Proofs.Toml.Legal

/-!
# Laying a text over a configuration

A text that is laid over a configuration decides the settings that it gives a value, and leaves the
other ones as they are. Everything else about layers follows from this: an empty one changes
nothing, one that is laid twice does no more than once, and two that say something about different
settings may change places.

Main facts: `Config.merge_eq_ok_iff`, `Config.merge_layers`.
-/

namespace CallDebugger

namespace Toml

variable {t base layer : Table}

/-- Only a table joins what is below it. -/
theorem laidOver_of_ne_table {below : Option Toml} {v : Toml}
    (h : ∀ standing entries, below ≠ some (.table standing entries)) : laidOver below v = v := by
  unfold laidOver
  split
  · split
    · next s' base => exact absurd rfl (h s' base)
    · rfl
  · rfl

/-- What a key has after a table was laid over another one. -/
theorem lookup_overlay (distinct : (layer.map Prod.fst).Nodup) (key : String) :
    (overlay base layer).lookup key =
      ((layer.lookup key).map (laidOver (base.lookup key))).or (base.lookup key) := by
  induction layer generalizing base with
  | nil => simp [overlay]
  | cons e layer ih =>
    obtain ⟨k, v⟩ := e
    obtain ⟨fresh, distinct⟩ := List.nodup_cons.1 distinct
    rw [overlay, ih distinct]
    by_cases hk : key = k
    · subst hk
      have absent : layer.lookup key = none := by
        refine List.lookup_eq_none_iff.2 fun e he => bne_iff_ne.2 ?_
        rintro rfl
        exact fresh (List.mem_map.2 ⟨e, he, rfl⟩)
      simp [absent]
    · have hb : (key == k) = false := beq_eq_false_iff_ne.2 hk
      rw [Table.lookup_set_of_ne _ _ hk, List.lookup_cons, hb]

end Toml

namespace Toml.Table

variable {t base layer : Table} {s : Setting} {v : Toml}

/-- What a section that is a table gives for a setting. -/
theorem at?_of_table {name : String} {keys : List String} {i : Nat} {standing : Standing}
    {entries : Table} (hs : s.place? = some (name, keys, i))
    (h : t.lookup name = some (.table standing entries)) :
    t.at? s = keys[i]?.bind (entries.lookup ·) := by
  simp only [at?, hs, h, Reading.parts?, Option.bind_some, List.getElem?_map]
  cases keys[i]? <;> rfl

theorem at?_of_missing {name : String} {keys : List String} {i : Nat}
    (hs : s.place? = some (name, keys, i)) (h : t.lookup name = none) : t.at? s = none := by
  simp only [at?, hs, h, Reading.parts?, Option.bind_some, List.getElem?_map]
  cases keys[i]? <;> rfl

theorem at?_congr {name : String} {keys : List String} {i : Nat} {t' : Table}
    (hs : s.place? = some (name, keys, i)) (h : t.lookup name = t'.lookup name) :
    t.at? s = t'.at? s := by
  simp only [at?, hs, h]

/-- A value that is laid over one that is no table takes its place. -/
theorem lookup_overlay_of_plain {key : String} (distinct : (layer.map Prod.fst).Nodup)
    (plain : ∀ standing entries, base.lookup key ≠ some (.table standing entries)) :
    (overlay base layer).lookup key = (layer.lookup key).or (base.lookup key) := by
  rw [lookup_overlay distinct]
  cases layer.lookup key with
  | none => rfl
  | some v => rw [Option.map_some, laidOver_of_ne_table plain]

/-- What a table that is laid over another one gives for a setting goes before what is below, unless
one of its sections is no table; such a section hides the one below. -/
theorem at?_overlay (legal : layer.Legal) (sectioned : base.Sectioned)
    (plain : ∀ s standing entries, base.at? s ≠ some (.table standing entries)) (s : Setting) :
    (overlay base layer).at? s = (layer.at? s).or (base.at? s) ∨
      ¬ layer.Sectioned ∧ (overlay base layer).at? s = layer.at? s := by
  cases hs : s.place? with
  | none =>
    have here (t : Table) : t.at? s = t.lookup "breakpoints" := by simp [at?, hs]
    have plain := plain s
    simp only [here] at plain ⊢
    exact .inl (lookup_overlay_of_plain legal.distinct plain)
  | some place =>
    obtain ⟨name, keys, i⟩ := place
    have hlookup := @lookup_overlay base _ legal.distinct name
    cases hl : layer.lookup name with
    | none =>
      rw [hl, Option.map_none, Option.none_or] at hlookup
      rw [at?_of_missing hs hl, at?_congr hs hlookup]
      exact .inl rfl
    | some v =>
      rw [hl, Option.map_some, Option.some_or] at hlookup
      by_cases table : v.IsTable
      · obtain ⟨standing, entries, rfl⟩ := isTable_iff.1 table
        cases hb : base.lookup name with
        | none =>
          have same : (overlay base layer).lookup name = layer.lookup name := by
            rw [hlookup, laidOver_of_ne_table (by simp [hb]), hl]
          rw [at?_congr hs same, at?_of_missing hs hb, Option.or_none]
          exact .inl rfl
        | some below =>
          obtain ⟨standing', entries', rfl⟩ := isTable_iff.1 (sectioned s _ hs below hb)
          rw [hb, laidOver] at hlookup
          have plain := plain s
          rw [at?_of_table hs hb] at plain
          rw [at?_of_table hs hl, at?_of_table hs hb, at?_of_table hs hlookup]
          cases hkey : keys[i]? with
          | none => exact .inl rfl
          | some key =>
            rw [hkey] at plain
            have distinct := (legal_table.1 (legal.of_lookup hl)).distinct
            exact .inl (lookup_overlay_of_plain distinct plain)
      · have same : (overlay base layer).lookup name = layer.lookup name := by
          have keep : laidOver (base.lookup name) v = v := by
            cases v <;> first | rfl | exact absurd trivial table
          rw [hlookup, keep, hl]
        exact .inr ⟨fun h => table (h s _ hs v hl), at?_congr hs same⟩

theorem sectioned_overlay (legal : layer.Legal) (hb : base.Sectioned) (hl : layer.Sectioned) :
    (overlay base layer).Sectioned := by
  intro s place hs v hv
  rw [lookup_overlay legal.distinct] at hv
  cases h : layer.lookup place.1 with
  | none =>
    rw [h] at hv
    exact hb s place hs v hv
  | some w =>
    obtain ⟨standing, entries, rfl⟩ := isTable_iff.1 (hl s place hs w h)
    rw [h, Option.map_some, Option.some_or, Option.mem_some] at hv
    unfold laidOver at hv
    split at hv <;> exact hv ▸ trivial

/-- What a legal table gives for a setting is legal. -/
theorem Legal.of_at? (legal : t.Legal) (h : t.at? s = some v) : v.Legal := by
  unfold at? at h
  split at h
  · exact legal.of_lookup h
  · next name keys i _ =>
    obtain ⟨parts, hparts, hv⟩ := Option.bind_eq_some_iff.1 h
    have hv : some v ∈ parts := List.mem_of_getElem? (Option.join_eq_some_iff.1 hv)
    unfold Reading.parts? at hparts
    split at hparts
    · cases hparts
      simp at hv
    · next hl =>
      cases hparts
      obtain ⟨key, -, hkey⟩ := List.mem_map.1 hv
      exact (legal_table.1 (legal.of_lookup hl)).of_lookup hkey
    · cases hparts
    · next w _ _ hl =>
      obtain ⟨items, hitems, hparts⟩ := Option.bind_eq_some_iff.1 hparts
      split at hparts
      · cases hparts
      · cases hparts
        obtain ⟨⟨key, j⟩, -, hj⟩ := List.mem_map.1 hv
        have hmem : v ∈ items := List.mem_of_getElem? hj
        have hw := legal.of_lookup hl
        cases w with
        | array ofTables vs =>
          cases hitems
          refine legal_array.1 hw v ?_
          cases ofTables <;> simpa using hmem
        | _ => cases hitems

end Toml.Table

/-- A number that a legal value stands for is small enough for TOML again. -/
theorem Setting.lt_of_read? {s : Setting} {v : Toml} {n : UInt64} (legal : v.Legal)
    (h : s.read? v = some (.number n)) : (n.toNat : Int) < Toml.integerBound := by
  have hn : v.uint64? = some n := by
    cases s <;> obtain ⟨_, h, hn⟩ := Option.map_eq_some_iff.1 h <;> cases hn
    all_goals exact h
  obtain ⟨m, hm, rfl⟩ := Option.map_eq_some_iff.1 hn
  cases legal with
  | integer small =>
    rw [Toml.below?, Option.ite_none_right_eq_some, Option.some_inj] at hm
    obtain ⟨bounds, rfl⟩ := hm
    rw [Bool.and_eq_true, decide_eq_true_iff, decide_eq_true_iff] at bounds
    rw [UInt64.toNat_ofNat_of_lt' (by omega), Int.toNat_of_nonneg bounds.1]
    exact small
  | _ => cases hm

namespace Config

open Toml (Table readLayer? overlay)

variable {base c : Config} {text : String} {layer t : Table} {s : Setting} {v : Toml}

theorem merge_eq_ok_iff_read : base.merge text = .ok c ↔ ∃ layer t, readLayer? text = some layer ∧
    base.toTable? = some t ∧ ofTable? .layered (overlay t layer) = some c := by
  unfold merge
  cases readLayer? text with
  | none => simp
  | some layer =>
    cases base.toTable? with
    | none => simp
    | some t => cases hc : ofTable? .layered (overlay t layer) <;> simp [hc]

/-- No value in the table of a configuration is a table itself. -/
theorem at?_toTable?_ne_table (ht : base.toTable? = some t) (s : Setting) (standing : Standing)
    (entries : Table) : t.at? s ≠ some (.table standing entries) := by
  rw [(at?_of_toTable? ht).2]
  cases base.value s with
  | file path => cases path <;> simp [Setting.Value.toToml?]
  | _ => simp [Setting.Value.toToml?]

/-- What a setting has after a merge is what the layer gives, or else what it had, or else the
standard value; the last one only under a section that is no table. -/
theorem at?_merged (legal : layer.Legal) (ht : base.toTable? = some t) (s : Setting) :
    (overlay t layer).at? s = (layer.at? s).or (base.value s).toToml? ∨
      ¬ layer.Sectioned ∧ (overlay t layer).at? s = layer.at? s := by
  obtain ⟨sectioned, values⟩ := at?_of_toTable? ht
  rw [← values s]
  exact Table.at?_overlay legal sectioned (at?_toTable?_ne_table ht) s

/-- A setting that a layer gives has the value of the layer afterwards. -/
theorem read?_of_merge (h : base.merge text = .ok c) (hl : readLayer? text = some layer)
    (hv : layer.at? s = some v) : s.read? v = some (c.value s) := by
  obtain ⟨layer', t, hl', ht, hc⟩ := merge_eq_ok_iff_read.1 h
  cases hl.symm.trans hl'
  have hs := (ofTable?_eq_some_iff.1 hc).2 s
  have hat : (overlay t layer).at? s = some v := by
    obtain h | ⟨-, h⟩ := at?_merged (Toml.readLayer?_legal hl) ht s
    · rw [h, hv, Option.some_or]
    · rw [h, hv]
  rwa [hat] at hs

/-- A text whose sections are tables decides the settings that it gives and keeps all other ones. -/
theorem merge_eq_ok_iff (fits : base.Fits) (hl : readLayer? text = some layer)
    (sectioned : layer.Sectioned) : base.merge text = .ok c ↔
      ∀ s, orStandard (base.value s) s.read? (layer.at? s) = some (c.value s) := by
  obtain ⟨t, ht⟩ := exists_toTable?_iff.2 fits
  have legal := Toml.readLayer?_legal hl
  have tables := Table.sectioned_overlay legal (at?_of_toTable? ht).1 sectioned
  have readable : Readable (overlay t layer) := by
    intro s name keys i hs
    cases h : (overlay t layer).lookup name with
    | none => simp [Reading.parts?]
    | some v =>
      obtain ⟨standing, entries, rfl⟩ := Toml.isTable_iff.1 (tables s _ hs v h)
      simp [Reading.parts?]
  have each (s : Setting) :
      orStandard (standard.value s) s.read? ((overlay t layer).at? s) = some (c.value s) ↔
        orStandard (base.value s) s.read? (layer.at? s) = some (c.value s) := by
    obtain hs | ⟨hs, -⟩ := at?_merged legal ht s
    · rw [hs]
      cases layer.at? s with
      | none => rw [Option.none_or, read_toToml?]; rfl
      | some v => rfl
    · exact absurd sectioned hs
  constructor
  · intro h s
    obtain ⟨layer', t', hl', ht', hc⟩ := merge_eq_ok_iff_read.1 h
    cases hl.symm.trans hl'
    cases ht.symm.trans ht'
    exact (each s).1 ((ofTable?_eq_some_iff.1 hc).2 s)
  · intro h
    refine merge_eq_ok_iff_read.2 ⟨layer, t, hl, ht, ofTable?_eq_some_iff.2 ⟨readable, ?_⟩⟩
    exact fun s => (each s).2 (h s)

theorem standard_fits : standard.Fits := by
  intro s n hn
  cases s <;> cases hn <;> decide

/-- A configuration that fits under a layer fits under a further one afterwards. -/
theorem Fits.merge (fits : base.Fits) (h : base.merge text = .ok c) : c.Fits := by
  obtain ⟨layer, t, hl, ht, hc⟩ := merge_eq_ok_iff_read.1 h
  have legal := Toml.readLayer?_legal hl
  intro s n hn
  cases hv : layer.at? s with
  | some v => exact Setting.lt_of_read? (legal.of_at? hv) (hn ▸ read?_of_merge h hl hv)
  | none =>
    have hs := (ofTable?_eq_some_iff.1 hc).2 s
    obtain hat | ⟨-, hat⟩ := at?_merged legal ht s
    · rw [hat, hv, Option.none_or, read_toToml?, hn] at hs
      exact fits s n (Option.some.inj hs)
    · rw [hat, hv, hn] at hs
      exact standard_fits s n (Option.some.inj hs)

/-- A text that is a layer says that a setting has a value. -/
def Says (text : String) (s : Setting) (v : Toml) : Prop :=
  ∃ layer ∈ readLayer? text, layer.at? s = some v

/-- A text that is a layer says something about a setting. -/
def Sets (text : String) (s : Setting) : Prop := ∃ layer ∈ readLayer? text, (layer.at? s).isSome

/-- A text is a layer, and every section that it mentions is a table. -/
def Tabular (text : String) : Prop := ∃ layer ∈ readLayer? text, layer.Sectioned

instance : DecidableRel Sets := fun text s => by
  unfold Sets
  infer_instance

instance : DecidablePred Tabular := fun text => by
  unfold Tabular
  infer_instance

theorem says_iff (hl : readLayer? text = some layer) : Says text s v ↔ layer.at? s = some v := by
  simp [Says, hl]

theorem not_sets_iff (hl : readLayer? text = some layer) :
    ¬ Sets text s ↔ layer.at? s = none := by
  simp [Sets, hl]

/-- The configuration with some settings of one configuration and the other ones of another. -/
def mix (first : Setting → Bool) (c d : Config) : Config where
  breakpoints := if first .breakpoints then c.breakpoints else d.breakpoints
  endpoint := if first .endpoint then c.endpoint else d.endpoint
  tick := if first .tick then c.tick else d.tick
  breaks :=
    { onError := if first .onError then c.breaks.onError else d.breaks.onError
      onDebugOutput := if first .onDebugOutput then c.breaks.onDebugOutput
        else d.breaks.onDebugOutput
      onCompilerError := if first .onCompilerError then c.breaks.onCompilerError
        else d.breaks.onCompilerError
      forceDebugContext := if first .forceDebugContext then c.breaks.forceDebugContext
        else d.breaks.forceDebugContext
      forceDebugContextEs := if first .forceDebugContextEs then c.breaks.forceDebugContextEs
        else d.breaks.forceDebugContextEs }
  pageSize := if first .pageSize then c.pageSize else d.pageSize
  historyLength := if first .historyLength then c.historyLength else d.historyLength
  logLevel := if first .logLevel then c.logLevel else d.logLevel
  logFile := if first .logFile then c.logFile else d.logFile

theorem value_mix (first : Setting → Bool) (c d : Config) (s : Setting) :
    (mix first c d).value s = if first s then c.value s else d.value s := by
  cases s <;> simp only [value, mix] <;> split <;> rfl

/-- A text that gives no setting a value changes nothing. -/
theorem merge_of_silent (fits : base.Fits) (tabular : Tabular text)
    (silent : ∀ s, ¬ Sets text s) : base.merge text = .ok base := by
  obtain ⟨layer, hl, sectioned⟩ := tabular
  refine (merge_eq_ok_iff fits hl sectioned).2 fun s => ?_
  rw [(not_sets_iff hl).1 (silent s)]
  rfl

theorem merge_empty (fits : base.Fits) : base.merge "" = .ok base :=
  merge_of_silent fits (by decide +kernel) (by decide +kernel)

/-- Two texts that give different settings a value may change places. -/
theorem merge_comm {text₁ text₂ : String} {c₁ c₂ : Config} (fits : base.Fits)
    (tabular₁ : Tabular text₁) (tabular₂ : Tabular text₂) (h₁ : base.merge text₁ = .ok c₁)
    (h₂ : base.merge text₂ = .ok c₂) (disjoint : ∀ s, Sets text₁ s → ¬ Sets text₂ s) :
    ∃ c, c₁.merge text₂ = .ok c ∧ c₂.merge text₁ = .ok c := by
  obtain ⟨layer₁, hl₁, sectioned₁⟩ := tabular₁
  obtain ⟨layer₂, hl₂, sectioned₂⟩ := tabular₂
  have value₁ := (merge_eq_ok_iff fits hl₁ sectioned₁).1 h₁
  have value₂ := (merge_eq_ok_iff fits hl₂ sectioned₂).1 h₂
  refine ⟨mix (fun s => (layer₂.at? s).isSome) c₂ c₁,
    (merge_eq_ok_iff (fits.merge h₁) hl₂ sectioned₂).2 fun s => ?_,
    (merge_eq_ok_iff (fits.merge h₂) hl₁ sectioned₁).2 fun s => ?_⟩
  · have hs := value₂ s
    rw [value_mix]
    cases hat : layer₂.at? s with
    | none => rfl
    | some v => rwa [hat] at hs
  · have hs₁ := value₁ s
    have hs₂ := value₂ s
    rw [value_mix]
    cases hat₁ : layer₁.at? s with
    | none =>
      cases hat₂ : layer₂.at? s with
      | none =>
        rw [hat₁] at hs₁
        rw [hat₂] at hs₂
        exact hs₂.symm.trans hs₁
      | some w => rfl
    | some v =>
      have hat₂ : layer₂.at? s = none :=
        (not_sets_iff hl₂).1 (disjoint s ⟨layer₁, hl₁, hat₁ ▸ rfl⟩)
      rw [hat₁] at hs₁
      rw [hat₂]
      exact hs₁

/-- A text that is laid over a configuration gives each setting that it says something about the
value that it says, and keeps the other ones; what else it says does not matter. So a text that says
nothing leaves the configuration as it is, a text changes nothing when it is laid over the result
again, and two texts that say something about different settings may change places. -/
theorem merge_layers {base : Config} (fits : base.Fits) :
    (∀ text c, Tabular text → base.merge text = .ok c →
      (∀ s v, Says text s v → s.read? v = some (c.value s)) ∧
      (∀ s, ¬ Sets text s → c.value s = base.value s) ∧
      (∀ text', Tabular text' → (∀ s v, Says text' s v ↔ Says text s v) →
        base.merge text' = .ok c) ∧
      c.merge text = .ok c) ∧
    (∀ text, Tabular text → (∀ s, ¬ Sets text s) → base.merge text = .ok base) ∧
    base.merge "" = .ok base ∧
    ∀ text₁ text₂ c₁ c₂, Tabular text₁ → Tabular text₂ →
      base.merge text₁ = .ok c₁ → base.merge text₂ = .ok c₂ →
      (∀ s, Sets text₁ s → ¬ Sets text₂ s) →
      ∃ c, c₁.merge text₂ = .ok c ∧ c₂.merge text₁ = .ok c := by
  refine ⟨fun text c tabular h => ?_, fun _ => merge_of_silent fits, merge_empty fits,
    fun _ _ _ _ => merge_comm fits⟩
  obtain ⟨layer, hl, sectioned⟩ := tabular
  have values := (merge_eq_ok_iff fits hl sectioned).1 h
  refine ⟨fun s v hv => read?_of_merge h hl ((says_iff hl).1 hv), fun s silent => ?_,
    fun text' tabular' same => ?_, (merge_eq_ok_iff (fits.merge h) hl sectioned).2 fun s => ?_⟩
  · have hs := values s
    rw [(not_sets_iff hl).1 silent] at hs
    exact (Option.some.inj hs).symm
  · obtain ⟨layer', hl', sectioned'⟩ := tabular'
    refine (merge_eq_ok_iff fits hl' sectioned').2 fun s => ?_
    have hat : layer'.at? s = layer.at? s :=
      Option.ext fun v => by rw [← says_iff hl', ← says_iff hl, same s v]
    rw [hat]
    exact values s
  · have hs := values s
    cases hat : layer.at? s with
    | none => rfl
    | some v => rwa [hat] at hs

/-- An entrypoint and a log level, laid over the standard configuration in either order. -/
theorem merge_layers_entrypoint_level :
    let breaking : Config := { standard with breakpoints := [7] }
    let talking : Config := { standard with logLevel := .debug }
    standard.Fits ∧ standard.merge "breakpoints = [7]" = .ok breaking ∧
      standard.merge "[log]\nlevel = \"debug\"" = .ok talking ∧
      ∃ c, breaking.merge "[log]\nlevel = \"debug\"" = .ok c ∧
        talking.merge "breakpoints = [7]" = .ok c :=
  have breaks : standard.merge "breakpoints = [7]" = .ok { standard with breakpoints := [7] } := by
    decide +kernel
  have talks : standard.merge "[log]\nlevel = \"debug\"" =
      .ok { standard with logLevel := .debug } := by decide +kernel
  ⟨standard_fits, breaks, talks, (merge_layers standard_fits).2.2.2 _ _ _ _ (by decide +kernel)
    (by decide +kernel) breaks talks (by decide +kernel)⟩

end Config

end CallDebugger
