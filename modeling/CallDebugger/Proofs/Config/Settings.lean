import CallDebugger.Config.Layer
import Mathlib.Data.List.Basic

/-!
# The settings of a configuration

A configuration is one value for each `Setting`, and a table gives a setting what stands at its
place (`Toml.Table.at?`). Reading a table as a layer takes each setting from its place and nothing
else, and the table of a configuration has the value of each setting there.

Main facts: `Config.ofTable?_eq_some_iff`, `Config.at?_of_toTable?`, `Config.read_toToml?`.
-/

namespace CallDebugger

/-- What a configuration has a value for. -/
inductive Setting where
  | breakpoints
  | endpoint
  | tick
  | onError
  | onDebugOutput
  | onCompilerError
  | forceDebugContext
  | forceDebugContextEs
  | pageSize
  | historyLength
  | logLevel
  | logFile
deriving Repr, DecidableEq

namespace Setting

/-- Every setting. -/
def all : List Setting :=
  [breakpoints, endpoint, tick, onError, onDebugOutput, onCompilerError, forceDebugContext,
    forceDebugContextEs, pageSize, historyLength, logLevel, logFile]

theorem mem_all (s : Setting) : s ∈ all := by cases s <;> decide

instance {p : Setting → Prop} [DecidablePred p] : Decidable (∀ s, p s) :=
  decidable_of_iff (∀ s ∈ all, p s) ⟨fun h s => h s (mem_all s), fun h s _ => h s⟩

/-- The value of a setting. -/
inductive Value where
  | entrypoints (es : List Entrypoint)
  | text (s : String)
  | number (n : UInt64)
  | flag (b : Bool)
  | level (l : LogLevel)
  | file (path : Option String)
deriving Repr, DecidableEq

/-- The value as TOML; a file that is not set is nothing there. -/
def Value.toToml? : Value → Option Toml
  | entrypoints es => some (.array false (es.map fun e => .integer e.toNat))
  | text s => some (.string s)
  | number n => some (.integer n.toNat)
  | flag b => some (.boolean b)
  | level l => some (.string l.name)
  | file path => path.map .string

/-- The value of a setting that a TOML value stands for; `none` if it does not fit. -/
def read? : Setting → Toml → Option Value
  | breakpoints, v => v.entrypoints?.map .entrypoints
  | endpoint, v => (Reading.layered.text? v).map .text
  | tick, v | pageSize, v | historyLength, v => v.uint64?.map .number
  | onError, v | onDebugOutput, v | onCompilerError, v | forceDebugContext, v
  | forceDebugContextEs, v => v.bool?.map .flag
  | logLevel, v => v.level?.map .level
  | logFile, v => ((Reading.layered.text? v).map some).map .file

/-- The section that a setting stands in, the keys of this section, and which of them it is. -/
def place? : Setting → Option (String × List String × Nat)
  | breakpoints => none
  | endpoint => some ("connection", Config.connectionKeys, 0)
  | tick => some ("connection", Config.connectionKeys, 1)
  | onError => some ("breaks", Config.breaksKeys, 0)
  | onDebugOutput => some ("breaks", Config.breaksKeys, 1)
  | onCompilerError => some ("breaks", Config.breaksKeys, 2)
  | forceDebugContext => some ("breaks", Config.breaksKeys, 3)
  | forceDebugContextEs => some ("breaks", Config.breaksKeys, 4)
  | pageSize => some ("trace", ["page_size"], 0)
  | historyLength => some ("peer", ["history_len"], 0)
  | logLevel => some ("log", Config.logKeys, 0)
  | logFile => some ("log", Config.logKeys, 1)

end Setting

/-- A table. -/
def Toml.IsTable : Toml → Prop
  | .table _ _ => True
  | _ => False

instance : DecidablePred Toml.IsTable
  | .table _ _ => isTrue trivial
  | .string _ | .integer _ | .float _ | .boolean _ | .moment _ | .array _ _ => isFalse id

theorem Toml.isTable_iff {v : Toml} :
    v.IsTable ↔ ∃ standing entries, v = .table standing entries := by
  cases v <;> simp [Toml.IsTable]

namespace Toml.Table

/-- What a table gives for a setting. -/
def at? (t : Table) (s : Setting) : Option Toml :=
  match s.place? with
  | none => t.lookup "breakpoints"
  | some (name, keys, i) =>
    (Reading.layered.parts? keys (t.lookup name)).bind fun parts => parts[i]?.join

/-- The section of every setting may be missing, but it is nothing else than a table. -/
def Sectioned (t : Table) : Prop :=
  ∀ s : Setting, ∀ place ∈ s.place?, ∀ v ∈ t.lookup place.1, v.IsTable

instance (t : Table) : Decidable t.Sectioned := by
  unfold Sectioned
  infer_instance

end Toml.Table

namespace Config

/-- The value of a setting in a configuration. -/
def value (c : Config) : Setting → Setting.Value
  | .breakpoints => .entrypoints c.breakpoints
  | .endpoint => .text c.endpoint
  | .tick => .number c.tick
  | .onError => .flag c.breaks.onError
  | .onDebugOutput => .flag c.breaks.onDebugOutput
  | .onCompilerError => .flag c.breaks.onCompilerError
  | .forceDebugContext => .flag c.breaks.forceDebugContext
  | .forceDebugContextEs => .flag c.breaks.forceDebugContextEs
  | .pageSize => .number c.pageSize
  | .historyLength => .number c.historyLength
  | .logLevel => .level c.logLevel
  | .logFile => .file c.logFile

/-- A configuration is its values: the settings leave no part of it out. -/
theorem ext_value {c d : Config} (h : ∀ s, c.value s = d.value s) : c = d := by
  have breakpoints := h .breakpoints
  have endpoint := h .endpoint
  have tick := h .tick
  have onError := h .onError
  have onDebugOutput := h .onDebugOutput
  have onCompilerError := h .onCompilerError
  have forced := h .forceDebugContext
  have forcedEs := h .forceDebugContextEs
  have pageSize := h .pageSize
  have historyLength := h .historyLength
  have logLevel := h .logLevel
  have logFile := h .logFile
  obtain ⟨_, _, _, ⟨_, _, _, _, _⟩, _, _, _, _⟩ := c
  obtain ⟨_, _, _, ⟨_, _, _, _, _⟩, _, _, _, _⟩ := d
  simp_all [value]

end Config

/-- Reading a value in another guise, and its standard value with it. -/
theorem orStandard_map_eq_some_iff {f : α → β} (hf : Function.Injective f) {standard a : α}
    {read? : Toml → Option α} {v : Option Toml} :
    orStandard (f standard) (fun v => (read? v).map f) v = some (f a) ↔
      orStandard standard read? v = some a := by
  cases v with
  | none => simp [orStandard, hf.eq_iff]
  | some v => simp [orStandard, hf.eq_iff]

/-- A section says something, or nothing, about each of its settings. -/
theorem Reading.length_of_parts? {r : Reading} {names : List String} {v : Option Toml}
    {parts : List (Option Toml)} (h : r.parts? names v = some parts) :
    parts.length = names.length := by
  unfold Reading.parts? at h
  split at h
  · cases h
    simp
  · cases h
    simp
  · split at h
    · cases h
    · cases h
      simp
  · obtain ⟨items, -, h⟩ := Option.bind_eq_some_iff.1 h
    split at h
    · cases h
    · cases h
      simp

namespace Config

open Toml (Table)

variable {t : Table} {c : Config}

section
variable {r : Reading} {v : Option Toml}

theorem connectionOf?_eq_some_iff {endpoint : String} {tick : UInt64} :
    connectionOf? r v = some (endpoint, tick) ↔ ∃ a b, r.parts? connectionKeys v = some [a, b] ∧
      orStandard standard.endpoint r.text? a = some endpoint ∧
      orStandard standard.tick Toml.uint64? b = some tick := by
  constructor
  · intro h
    obtain ⟨parts, hp, h⟩ := Option.bind_eq_some_iff.1 h
    split at h
    · obtain ⟨_, ha, h⟩ := Option.bind_eq_some_iff.1 h
      obtain ⟨_, hb, h⟩ := Option.bind_eq_some_iff.1 h
      cases h
      exact ⟨_, _, hp, ha, hb⟩
    · cases h
  · rintro ⟨a, b, hp, ha, hb⟩
    simp [connectionOf?, hp, ha, hb]

theorem breaksOf?_eq_some_iff {breaks : BreakSettings} :
    breaksOf? r v = some breaks ↔ ∃ a b c d e, r.parts? breaksKeys v = some [a, b, c, d, e] ∧
      orStandard standard.breaks.onError Toml.bool? a = some breaks.onError ∧
      orStandard standard.breaks.onDebugOutput Toml.bool? b = some breaks.onDebugOutput ∧
      orStandard standard.breaks.onCompilerError Toml.bool? c = some breaks.onCompilerError ∧
      orStandard standard.breaks.forceDebugContext Toml.bool? d = some breaks.forceDebugContext ∧
      orStandard standard.breaks.forceDebugContextEs Toml.bool? e =
        some breaks.forceDebugContextEs := by
  constructor
  · intro h
    obtain ⟨parts, hp, h⟩ := Option.bind_eq_some_iff.1 h
    split at h
    · obtain ⟨_, ha, h⟩ := Option.bind_eq_some_iff.1 h
      obtain ⟨_, hb, h⟩ := Option.bind_eq_some_iff.1 h
      obtain ⟨_, hc, h⟩ := Option.bind_eq_some_iff.1 h
      obtain ⟨_, hd, h⟩ := Option.bind_eq_some_iff.1 h
      obtain ⟨_, he, h⟩ := Option.bind_eq_some_iff.1 h
      cases h
      exact ⟨_, _, _, _, _, hp, ha, hb, hc, hd, he⟩
    · cases h
  · rintro ⟨a, b, c, d, e, hp, ha, hb, hc, hd, he⟩
    simp [breaksOf?, hp, ha, hb, hc, hd, he]

theorem numberOf?_eq_some_iff {name : String} {standard n : UInt64} :
    numberOf? r name standard v = some n ↔ ∃ a, r.parts? [name] v = some [a] ∧
      orStandard standard Toml.uint64? a = some n := by
  constructor
  · intro h
    obtain ⟨parts, hp, h⟩ := Option.bind_eq_some_iff.1 h
    split at h
    · exact ⟨_, hp, h⟩
    · cases h
  · rintro ⟨a, hp, ha⟩
    simp [numberOf?, hp, ha]

theorem logOf?_eq_some_iff {level : LogLevel} {file : Option String} :
    logOf? r v = some (level, file) ↔ ∃ a b, r.parts? logKeys v = some [a, b] ∧
      orStandard standard.logLevel Toml.level? a = some level ∧
      orStandard none (fun v => (r.text? v).map some) b = some file := by
  constructor
  · intro h
    obtain ⟨parts, hp, h⟩ := Option.bind_eq_some_iff.1 h
    split at h
    · obtain ⟨_, ha, h⟩ := Option.bind_eq_some_iff.1 h
      obtain ⟨_, hb, h⟩ := Option.bind_eq_some_iff.1 h
      cases h
      exact ⟨_, _, hp, ha, hb⟩
    · cases h
  · rintro ⟨a, b, hp, ha, hb⟩
    simp [logOf?, hp, ha, hb]

end

theorem ofTable?_eq_some_iff_sections {r : Reading} : ofTable? r t = some c ↔
    orStandard [] Toml.entrypoints? (t.lookup "breakpoints") = some c.breakpoints ∧
    connectionOf? r (t.lookup "connection") = some (c.endpoint, c.tick) ∧
    breaksOf? r (t.lookup "breaks") = some c.breaks ∧
    numberOf? r "page_size" standard.pageSize (t.lookup "trace") = some c.pageSize ∧
    numberOf? r "history_len" standard.historyLength (t.lookup "peer") = some c.historyLength ∧
    logOf? r (t.lookup "log") = some (c.logLevel, c.logFile) := by
  constructor
  · intro h
    obtain ⟨_, h₁, h⟩ := Option.bind_eq_some_iff.1 h
    obtain ⟨_, h₂, h⟩ := Option.bind_eq_some_iff.1 h
    obtain ⟨_, h₃, h⟩ := Option.bind_eq_some_iff.1 h
    obtain ⟨_, h₄, h⟩ := Option.bind_eq_some_iff.1 h
    obtain ⟨_, h₅, h⟩ := Option.bind_eq_some_iff.1 h
    obtain ⟨_, h₆, h⟩ := Option.bind_eq_some_iff.1 h
    cases h
    exact ⟨h₁, h₂, h₃, h₄, h₅, h₆⟩
  · rintro ⟨h₁, h₂, h₃, h₄, h₅, h₆⟩
    simp [ofTable?, h₁, h₂, h₃, h₄, h₅, h₆]

/-- Every section of a table can be read. -/
def Readable (t : Table) : Prop :=
  ∀ (s : Setting) name keys i, s.place? = some (name, keys, i) →
    (Reading.layered.parts? keys (t.lookup name)).isSome

/-- What stands at the place of a setting in its section. -/
theorem at?_of_parts {s : Setting} {name : String} {keys : List String} {i : Nat}
    {parts : List (Option Toml)} (hs : s.place? = some (name, keys, i))
    (h : Reading.layered.parts? keys (t.lookup name) = some parts) : t.at? s = parts[i]?.join := by
  simp [Toml.Table.at?, hs, h]

/-- Reading a layer takes the value of each setting from its place, and nothing else. -/
theorem ofTable?_eq_some_iff : ofTable? .layered t = some c ↔
    Readable t ∧ ∀ s, orStandard (standard.value s) s.read? (t.at? s) = some (c.value s) := by
  have entrypoints {x a v} := @orStandard_map_eq_some_iff _ _ _
    (fun _ _ => Setting.Value.entrypoints.inj) x a Toml.entrypoints? v
  have text {x a v} := @orStandard_map_eq_some_iff _ _ _ (fun _ _ => Setting.Value.text.inj) x a
    Reading.layered.text? v
  have number {x a v} := @orStandard_map_eq_some_iff _ _ _ (fun _ _ => Setting.Value.number.inj) x a
    Toml.uint64? v
  have flag {x a v} := @orStandard_map_eq_some_iff _ _ _ (fun _ _ => Setting.Value.flag.inj) x a
    Toml.bool? v
  have level {x a v} := @orStandard_map_eq_some_iff _ _ _ (fun _ _ => Setting.Value.level.inj) x a
    Toml.level? v
  have file {x a v} := @orStandard_map_eq_some_iff _ _ _ (fun _ _ => Setting.Value.file.inj) x a
    (fun v => (Reading.layered.text? v).map some) v
  rw [ofTable?_eq_some_iff_sections]
  constructor
  · rintro ⟨h, hconnection, hbreaks, htrace, hpeer, hlog⟩
    obtain ⟨_, _, hconnection, h₀, h₁⟩ := connectionOf?_eq_some_iff.1 hconnection
    obtain ⟨_, _, _, _, _, hbreaks, h₂, h₃, h₄, h₅, h₆⟩ := breaksOf?_eq_some_iff.1 hbreaks
    obtain ⟨_, htrace, h₇⟩ := numberOf?_eq_some_iff.1 htrace
    obtain ⟨_, hpeer, h₈⟩ := numberOf?_eq_some_iff.1 hpeer
    obtain ⟨_, _, hlog, h₉, h₁₀⟩ := logOf?_eq_some_iff.1 hlog
    refine ⟨fun s name keys i hs => ?_, fun s => ?_⟩
    · cases s <;> cases hs <;> simp [hconnection, hbreaks, htrace, hpeer, hlog]
    · cases s with
      | breakpoints => exact entrypoints.2 h
      | endpoint => rw [at?_of_parts rfl hconnection]; exact text.2 h₀
      | tick => rw [at?_of_parts rfl hconnection]; exact number.2 h₁
      | onError => rw [at?_of_parts rfl hbreaks]; exact flag.2 h₂
      | onDebugOutput => rw [at?_of_parts rfl hbreaks]; exact flag.2 h₃
      | onCompilerError => rw [at?_of_parts rfl hbreaks]; exact flag.2 h₄
      | forceDebugContext => rw [at?_of_parts rfl hbreaks]; exact flag.2 h₅
      | forceDebugContextEs => rw [at?_of_parts rfl hbreaks]; exact flag.2 h₆
      | pageSize => rw [at?_of_parts rfl htrace]; exact number.2 h₇
      | historyLength => rw [at?_of_parts rfl hpeer]; exact number.2 h₈
      | logLevel => rw [at?_of_parts rfl hlog]; exact level.2 h₉
      | logFile => rw [at?_of_parts rfl hlog]; exact file.2 h₁₀
  · rintro ⟨readable, h⟩
    have parts {s : Setting} {name keys i} (hs : s.place? = some (name, keys, i)) :
        ∃ parts : List (Option Toml), Reading.layered.parts? keys (t.lookup name) = some parts ∧
          parts.length = keys.length :=
      have ⟨parts, hp⟩ := Option.isSome_iff_exists.1 (readable s name keys i hs)
      ⟨parts, hp, Reading.length_of_parts? hp⟩
    have here {s : Setting} {name keys i parts} (hs : s.place? = some (name, keys, i))
        (hp : Reading.layered.parts? keys (t.lookup name) = some parts) :
        orStandard (standard.value s) s.read? parts[i]?.join = some (c.value s) :=
      at?_of_parts hs hp ▸ h s
    refine ⟨entrypoints.1 (h .breakpoints), connectionOf?_eq_some_iff.2 ?_,
      breaksOf?_eq_some_iff.2 ?_, numberOf?_eq_some_iff.2 ?_, numberOf?_eq_some_iff.2 ?_,
      logOf?_eq_some_iff.2 ?_⟩
    · obtain ⟨_, hp, hlength⟩ := parts (s := .endpoint) rfl
      obtain ⟨a, b, rfl⟩ := List.length_eq_two.1 hlength
      exact ⟨a, b, hp, text.1 (here (s := .endpoint) rfl hp), number.1 (here (s := .tick) rfl hp)⟩
    · obtain ⟨ps, hp, hlength⟩ := parts (s := .onError) rfl
      obtain ⟨a, b, c, d, e, rfl⟩ : ∃ a b c d e, ps = [a, b, c, d, e] := by
        rcases ps with _ | ⟨a, _ | ⟨b, _ | ⟨c, _ | ⟨d, _ | ⟨e, _ | _⟩⟩⟩⟩⟩ <;> cases hlength
        exact ⟨a, b, c, d, e, rfl⟩
      exact ⟨a, b, c, d, e, hp, flag.1 (here (s := .onError) rfl hp),
        flag.1 (here (s := .onDebugOutput) rfl hp), flag.1 (here (s := .onCompilerError) rfl hp),
        flag.1 (here (s := .forceDebugContext) rfl hp),
        flag.1 (here (s := .forceDebugContextEs) rfl hp)⟩
    · obtain ⟨_, hp, hlength⟩ := parts (s := .pageSize) rfl
      obtain ⟨a, rfl⟩ := List.length_eq_one_iff.1 hlength
      exact ⟨a, hp, number.1 (here (s := .pageSize) rfl hp)⟩
    · obtain ⟨_, hp, hlength⟩ := parts (s := .historyLength) rfl
      obtain ⟨a, rfl⟩ := List.length_eq_one_iff.1 hlength
      exact ⟨a, hp, number.1 (here (s := .historyLength) rfl hp)⟩
    · obtain ⟨_, hp, hlength⟩ := parts (s := .logLevel) rfl
      obtain ⟨a, b, rfl⟩ := List.length_eq_two.1 hlength
      exact ⟨a, b, hp, level.1 (here (s := .logLevel) rfl hp), file.1 (here (s := .logFile) rfl hp)⟩

/-- Every number of a configuration is small enough for TOML. -/
def Fits (c : Config) : Prop :=
  ∀ s n, c.value s = .number n → (n.toNat : Int) < Toml.integerBound

theorem numberValue?_eq_some_iff {n : UInt64} {v : Toml} :
    numberValue? n = some v ↔ (n.toNat : Int) < Toml.integerBound ∧ v = .integer n.toNat := by
  rw [numberValue?, Option.ite_none_right_eq_some, Option.some_inj, eq_comm (b := v)]

/-- A configuration has a table just if its numbers fit. -/
theorem exists_toTable?_iff : (∃ t, c.toTable? = some t) ↔ c.Fits := by
  constructor
  · rintro ⟨t, h⟩ s n hn
    unfold toTable? at h
    obtain ⟨_, h₁, h⟩ := Option.bind_eq_some_iff.1 h
    obtain ⟨_, h₂, h⟩ := Option.bind_eq_some_iff.1 h
    obtain ⟨_, h₃, h⟩ := Option.bind_eq_some_iff.1 h
    cases s <;> cases hn
    · exact (numberValue?_eq_some_iff.1 h₁).1
    · exact (numberValue?_eq_some_iff.1 h₂).1
    · exact (numberValue?_eq_some_iff.1 h₃).1
  · intro fits
    have tick := numberValue?_eq_some_iff.2 ⟨fits .tick _ rfl, rfl⟩
    have pageSize := numberValue?_eq_some_iff.2 ⟨fits .pageSize _ rfl, rfl⟩
    have historyLength := numberValue?_eq_some_iff.2 ⟨fits .historyLength _ rfl, rfl⟩
    simp [toTable?, tick, pageSize, historyLength]

/-- The table of a configuration has the value of each setting at its place, and its sections are
tables. -/
theorem at?_of_toTable? (h : c.toTable? = some t) :
    t.Sectioned ∧ ∀ s, t.at? s = (c.value s).toToml? := by
  unfold toTable? at h
  obtain ⟨_, h₁, h⟩ := Option.bind_eq_some_iff.1 h
  obtain ⟨_, h₂, h⟩ := Option.bind_eq_some_iff.1 h
  obtain ⟨_, h₃, h⟩ := Option.bind_eq_some_iff.1 h
  obtain ⟨-, rfl⟩ := numberValue?_eq_some_iff.1 h₁
  obtain ⟨-, rfl⟩ := numberValue?_eq_some_iff.1 h₂
  obtain ⟨-, rfl⟩ := numberValue?_eq_some_iff.1 h₃
  cases h
  refine ⟨fun s place hs v hv => ?_, fun s => ?_⟩
  · cases s <;> cases hs <;> simp [List.lookup_cons, sectionOf] at hv <;> exact hv ▸ trivial
  · cases s with
    | logFile => cases hfile : c.logFile <;>
        simp [Toml.Table.at?, Setting.place?, Reading.parts?, sectionOf, List.lookup_cons, value,
          Setting.Value.toToml?, logKeys, hfile]
    | _ => simp [Toml.Table.at?, Setting.place?, Reading.parts?, sectionOf, List.lookup_cons, value,
        Setting.Value.toToml?, logKeys, breaksKeys, connectionKeys]

theorem below?_integer {n bound : Nat} (h : n < bound) :
    (Toml.integer n).below? bound = some n := by
  simp [Toml.below?, h]

theorem uint64?_integer (n : UInt64) : (Toml.integer n.toNat).uint64? = some n := by
  simp [Toml.uint64?, below?_integer n.toNat_lt_size]

theorem entrypoints?_array (es : List Entrypoint) :
    (Toml.array false (es.map fun e => .integer e.toNat)).entrypoints? = some es := by
  change (es.map _).mapM _ = some es
  induction es with
  | nil => rfl
  | cons e es ih => simp [below?_integer e.toNat_lt_size, ih]

/-- Reading a value in another guise. -/
theorem orStandard_map_some {f : α → β} {standard : β} {read? : Toml → Option α} {v : Toml} {a : α}
    (h : read? v = some a) :
    orStandard standard (fun v => (read? v).map f) (some v) = some (f a) := by
  simp [orStandard, h]

/-- What a configuration says of a setting is read as its value. -/
theorem read_toToml? (c : Config) (s : Setting) :
    orStandard (standard.value s) s.read? (c.value s).toToml? = some (c.value s) := by
  cases s with
  | breakpoints => exact orStandard_map_some (entrypoints?_array c.breakpoints)
  | tick => exact orStandard_map_some (uint64?_integer c.tick)
  | pageSize => exact orStandard_map_some (uint64?_integer c.pageSize)
  | historyLength => exact orStandard_map_some (uint64?_integer c.historyLength)
  | logLevel => cases h : c.logLevel <;> simp [value, h] <;> rfl
  | logFile => cases h : c.logFile <;> simp [value, h] <;> rfl
  | _ => rfl

end Config

end CallDebugger
