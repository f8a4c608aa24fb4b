import CallDebugger.Text.Blank
import CallDebugger.Text.Numeral
import Mathlib.Data.List.Induction
import Mathlib.Tactic.IntervalCases

/-!
# What numerals spell

`Numeral.Spells` says what the digits of a number look like, with any zeros in front. A numeral is
read just if it is such a row of digits after an optional plus sign, and its number is below the
bound (`Numeral.read?_eq_some_iff`).
-/

namespace CallDebugger

/-! ## Decimal digits -/

theorem bounds_of_isDigit {c : Char} (h : c.isDigit) : 48 ≤ c.toNat ∧ c.toNat ≤ 57 := by
  simp only [Char.isDigit, Bool.and_eq_true, decide_eq_true_eq] at h
  exact h

theorem not_isBlank_of_isAlphanum {c : Char} (h : c.isAlphanum) : isBlank c = false := by
  have bounds : 48 ≤ c.toNat ∧ c.toNat ≤ 57 ∨ 65 ≤ c.toNat ∧ c.toNat ≤ 90 ∨
      97 ≤ c.toNat ∧ c.toNat ≤ 122 := by
    unfold Char.isAlphanum Char.isAlpha Char.isUpper Char.isLower Char.isDigit at h
    simp only [Bool.or_eq_true, Bool.and_eq_true, decide_eq_true_eq] at h
    rcases h with (upper | lower) | digit
    · exact Or.inr (Or.inl upper)
    · exact Or.inr (Or.inr lower)
    · exact Or.inl digit
  simp only [isBlank, Bool.or_eq_false_iff, Bool.and_eq_false_iff, decide_eq_false_iff_not,
    beq_eq_false_iff_ne]
  omega

theorem not_isBlank_of_isDigit {c : Char} (h : c.isDigit) : isBlank c = false :=
  not_isBlank_of_isAlphanum (by simp [Char.isAlphanum, h])

/-- A character among some that follow one another is one of them. -/
theorem eq_ofNat_of_bounds {c : Char} (low high : Nat) (h : low ≤ c.toNat ∧ c.toNat ≤ high) :
    ∃ k, k ≤ high - low ∧ c = Char.ofNat (low + k) :=
  ⟨c.toNat - low, by omega, by rw [Nat.add_sub_cancel' h.1, Char.ofNat_toNat]⟩

namespace Numeral

theorem digit?_of_isDigit {c : Char} (h : c.isDigit) :
    digit? 10 c = some (c.toNat - '0'.toNat) := by
  obtain ⟨low, high⟩ := bounds_of_isDigit h
  have decimal : '0' ≤ c ∧ c ≤ '9' := ⟨low, high⟩
  have below : c.toNat - 48 < 10 := by omega
  simp [digit?, decimal, below]

/-- Digits are worth what they spell. -/
theorem digits?_of_isDigit {cs : List Char} (h : ∀ c ∈ cs, c.isDigit) (acc : Nat) :
    digits? 10 acc cs = some (Nat.ofDigitChars 10 cs acc) := by
  induction cs generalizing acc with
  | nil => rfl
  | cons c cs ih =>
    have first := digit?_of_isDigit (h c List.mem_cons_self)
    have later := ih fun d hd => h d (List.mem_cons_of_mem c hd)
    rw [Nat.ofDigitChars_cons, Nat.mul_comm]
    simp only [digits?, first, Option.bind_eq_bind, Option.bind_some, later]

/-- A row with a character that is no digit is worth nothing. -/
theorem digits?_eq_none {base : Nat} {c : Char} {cs : List Char} (h : c ∈ cs)
    (alien : digit? base c = none) (acc : Nat) : digits? base acc cs = none := by
  induction cs generalizing acc with
  | nil => exact absurd h List.not_mem_nil
  | cons d cs ih =>
    rcases List.mem_cons.1 h with rfl | later
    · simp [digits?, alien]
    · cases value : digit? base d with
      | none => simp [digits?, value]
      | some n => simp [digits?, value, ih later]

theorem unsigned_of_ne {c : Char} (h : c ≠ '+') (cs : List Char) :
    unsigned (c :: cs) = c :: cs := by
  unfold unsigned
  split
  · cases ‹c :: cs = _›
    exact absurd rfl h
  · rfl

/-- All but a plus sign at the front counts. -/
theorem mem_unsigned {c : Char} {cs : List Char} (h : c ∈ cs) (digit : c ≠ '+') :
    c ∈ unsigned cs := by
  unfold unsigned
  split
  · exact (List.mem_cons.1 h).resolve_left digit
  · exact h

/-- Digits of any base are letters and decimal digits. -/
theorem isAlphanum_of_digit? {base d : Nat} {c : Char} (h : digit? base c = some d) :
    c.isAlphanum := by
  unfold digit? at h
  obtain ⟨worth, -⟩ := Option.filter_eq_some_iff.1 h
  split_ifs at worth with decimal lower upper
  · obtain ⟨k, small, rfl⟩ := eq_ofNat_of_bounds 48 57 decimal
    interval_cases k <;> rfl
  · obtain ⟨k, small, rfl⟩ := eq_ofNat_of_bounds 97 102 lower
    interval_cases k <;> rfl
  · obtain ⟨k, small, rfl⟩ := eq_ofNat_of_bounds 65 70 upper
    interval_cases k <;> rfl

/-! ## What digits spell -/

/-- The digits of a number in a base: any zeros in front, and letters in either case. -/
def Spells (base n : Nat) (cs : List Char) : Prop :=
  ∃ zeros, cs.map Char.toLower = List.replicate zeros '0' ++ Nat.toDigits base n

theorem Spells.ne_nil {base n : Nat} {cs : List Char} (h : Spells base n cs) : cs ≠ [] := by
  rintro rfl
  obtain ⟨_, row⟩ := h
  exact Nat.toDigits_ne_nil (List.append_eq_nil_iff.1 row.symm).2

/-! ## Single digits -/

theorem eq_of_toLower_eq {c d : Char} (h : c.toLower = d) :
    c = d ∨ (65 ≤ c.toNat ∧ c.toNat ≤ 90 ∧ c.toNat + 32 = d.toNat) := by
  subst h
  unfold Char.toLower
  split
  · next upper =>
    have low : 65 ≤ c.toNat := upper.1
    have high : c.toNat ≤ 90 := upper.2
    refine Or.inr ⟨low, high, ?_⟩
    have small : (c.val + ('a'.val - 'A'.val)).toNat = (c.val.toNat + 32) % UInt32.size := by
      simp [UInt32.toNat_add]
    rw [Nat.mod_eq_of_lt (by change c.toNat + 32 < 4294967296; omega)] at small
    exact small.symm
  · exact Or.inl rfl

/-- What a digit in base sixteen is worth. -/
theorem toLower_of_digit {c : Char} {d : Nat} (h : digit? 16 c = some d) :
    c.toLower = Nat.digitChar d := by
  unfold digit? at h
  obtain ⟨worth, -⟩ := Option.filter_eq_some_iff.1 h
  split_ifs at worth with decimal lower upper
  · obtain ⟨k, small, rfl⟩ := eq_ofNat_of_bounds 48 57 decimal
    cases worth
    interval_cases k <;> rfl
  · obtain ⟨k, small, rfl⟩ := eq_ofNat_of_bounds 97 102 lower
    cases worth
    interval_cases k <;> rfl
  · obtain ⟨k, small, rfl⟩ := eq_ofNat_of_bounds 65 70 upper
    cases worth
    interval_cases k <;> rfl

theorem digit?_of_toLower {c : Char} {d : Nat} (below : d < 16)
    (h : c.toLower = Nat.digitChar d) : digit? 16 c = some d := by
  rcases eq_of_toLower_eq h with rfl | ⟨low, high, upper⟩
  · interval_cases d <;> rfl
  · have letter : 10 ≤ d := by
      by_contra decimal
      rw [Nat.toNat_digitChar_of_lt_ten (by omega)] at upper
      omega
    obtain rfl : c = Char.ofNat ((Nat.digitChar d).toNat - 32) := by
      rw [← upper, Nat.add_sub_cancel, Char.ofNat_toNat]
    interval_cases d <;> rfl

/-- A digit is worth what it spells, whatever its case. -/
theorem digit?_eq_some_iff {base : Nat} (most : base ≤ 16) {c : Char} {d : Nat} :
    digit? base c = some d ↔ d < base ∧ c.toLower = Nat.digitChar d := by
  have narrow : (fun n : Nat => decide (n < 16) && decide (n < base)) =
      fun n => decide (n < base) := by
    funext n
    rw [← Bool.decide_and]
    exact decide_eq_decide.2 (by omega)
  have whole : digit? base c = (digit? 16 c).filter (· < base) := by
    unfold digit?
    simp only [Option.filter_filter, narrow]
  rw [whole, Option.filter_eq_some_iff, decide_eq_true_iff, and_comm]
  exact and_congr_right fun small =>
    ⟨toLower_of_digit, digit?_of_toLower (Nat.lt_of_lt_of_le small most)⟩

/-! ## Rows of digits -/

theorem digits?_append (base acc : Nat) (cs ds : List Char) :
    digits? base acc (cs ++ ds) = (digits? base acc cs).bind (digits? base · ds) := by
  induction cs generalizing acc with
  | nil => rfl
  | cons c cs ih =>
    cases worth : digit? base c with
    | none => simp [digits?, worth]
    | some d => simp [digits?, worth, ih]

theorem digits?_concat_eq_some_iff {base acc n : Nat} {cs : List Char} {c : Char} :
    digits? base acc (cs ++ [c]) = some n ↔
      ∃ m d, digits? base acc cs = some m ∧ digit? base c = some d ∧ n = m * base + d := by
  rw [digits?_append]
  cases digits? base acc cs with
  | none => simp
  | some m =>
    cases worth : digit? base c with
    | none => simp [digits?, worth]
    | some d => simp [digits?, worth, eq_comm]

/-- The last digit of a row, and what stands before it. -/
theorem spells_concat_iff {base n : Nat} (least : 1 < base) {cs : List Char} {c : Char} :
    Spells base n (cs ++ [c]) ↔
      (cs = [] ∧ n / base = 0 ∨ Spells base (n / base) cs) ∧
        c.toLower = Nat.digitChar (n % base) := by
  have join (ds : List Char) : (cs ++ [c]).map Char.toLower = ds ++ [Nat.digitChar (n % base)] ↔
      cs.map Char.toLower = ds ∧ c.toLower = Nat.digitChar (n % base) := by
    rw [List.map_append]
    constructor
    · intro same
      obtain ⟨front, last⟩ := List.append_inj' same rfl
      exact ⟨front, List.head_eq_of_cons_eq last⟩
    · rintro ⟨rfl, last⟩
      rw [← last]
      rfl
  rcases Nat.lt_or_ge n base with small | large
  · have digits : Nat.toDigits base n = [Nat.digitChar (n % base)] := by
      rw [Nat.toDigits_of_lt_base small, Nat.mod_eq_of_lt small]
    have zero : n / base = 0 := Nat.div_eq_of_lt small
    have zeros (k : Nat) : cs.map Char.toLower = List.replicate k '0' ↔
        cs = [] ∧ k = 0 ∨ ∃ j, k = j + 1 ∧ cs.map Char.toLower = List.replicate j '0' ++ ['0'] := by
      cases k with
      | zero => simp
      | succ j => simp [List.replicate_succ']
    simp only [Spells, digits, join, zero, Nat.toDigits_zero, exists_and_right]
    refine and_congr_left fun _ => ?_
    constructor
    · rintro ⟨k, row⟩
      rcases (zeros k).1 row with ⟨none, -⟩ | ⟨j, -, row⟩
      · exact Or.inl ⟨none, trivial⟩
      · exact Or.inr ⟨j, row⟩
    · rintro (⟨none, -⟩ | ⟨j, row⟩)
      · exact ⟨0, (zeros 0).2 (Or.inl ⟨none, rfl⟩)⟩
      · exact ⟨j + 1, (zeros _).2 (Or.inr ⟨j, rfl, row⟩)⟩
  · have zero : n / base ≠ 0 := (Nat.div_pos large (by omega)).ne'
    simp only [Spells, Nat.toDigits_of_base_le least large, ← List.append_assoc, join, zero,
      and_false, false_or, exists_and_right]

/-- A row of digits is worth the number that it spells. -/
theorem digits?_eq_some_iff {base n : Nat} (least : 1 < base) (most : base ≤ 16) {cs : List Char}
    (some : cs ≠ []) : digits? base 0 cs = .some n ↔ Spells base n cs := by
  induction cs using List.reverseRecOn generalizing n with
  | nil => exact absurd rfl some
  | append_singleton cs c ih =>
    have front (m : Nat) : digits? base 0 cs = .some m ↔ cs = [] ∧ m = 0 ∨ Spells base m cs := by
      rcases eq_or_ne cs [] with rfl | some
      · have nothing : ¬ Spells base m [] := fun h => h.ne_nil rfl
        simp only [digits?, nothing, or_false, true_and, Option.some.injEq, eq_comm (a := 0)]
      · simp only [ih some, some, false_and, false_or]
    rw [digits?_concat_eq_some_iff, spells_concat_iff least, ← front]
    simp only [digit?_eq_some_iff most]
    constructor
    · rintro ⟨m, d, worth, ⟨below, last⟩, rfl⟩
      rw [Nat.mul_comm, Nat.mul_add_div (by omega), Nat.mul_add_mod, Nat.mod_eq_of_lt below,
        Nat.div_eq_of_lt below]
      exact ⟨worth, last⟩
    · rintro ⟨worth, last⟩
      exact ⟨n / base, n % base, worth, ⟨Nat.mod_lt _ (by omega), last⟩,
        (Nat.div_add_mod' n base).symm⟩

/-! ## Numerals -/

/-- A numeral of a base: the digits of a number, which a plus sign may precede. -/
inductive Writes (base n : Nat) : List Char → Prop
  | plain {digits : List Char} (spelled : Spells base n digits) : Writes base n digits
  | plus {digits : List Char} (spelled : Spells base n digits) : Writes base n ('+' :: digits)

theorem Spells.digits? {base n : Nat} (least : 1 < base) (most : base ≤ 16) {cs : List Char}
    (h : Spells base n cs) : Numeral.digits? base 0 cs = some n :=
  (digits?_eq_some_iff least most h.ne_nil).2 h

theorem Spells.unsigned {base n : Nat} (least : 1 < base) (most : base ≤ 16) {cs : List Char}
    (h : Spells base n cs) : Numeral.unsigned cs = cs := by
  unfold Numeral.unsigned
  split
  · have worth := h.digits? least most
    have none : digit? base '+' = none := rfl
    simp [Numeral.digits?, none] at worth
  · rfl

theorem writes_iff {base n : Nat} (least : 1 < base) (most : base ≤ 16) {cs : List Char} :
    Writes base n cs ↔ Spells base n (unsigned cs) := by
  constructor
  · rintro (spelled | spelled)
    · rwa [spelled.unsigned least most]
    · exact spelled
  · intro spelled
    unfold unsigned at spelled
    split at spelled
    · exact .plus spelled
    · exact .plain spelled

/-- What is read is a numeral whose number is below the bound. -/
theorem read?_eq_some_iff {base bound n : Nat} (least : 1 < base) (most : base ≤ 16)
    {cs : List Char} : read? base bound cs = some n ↔ n < bound ∧ Writes base n cs := by
  rw [writes_iff least most]
  unfold read?
  cases row : unsigned cs with
  | nil => simp [show ¬ Spells base n [] from fun h => h.ne_nil rfl]
  | cons c rest =>
    rw [← digits?_eq_some_iff least most (List.cons_ne_nil c rest)]
    simp [Option.filter_eq_some_iff, and_comm]

theorem writes_toDigits (n : Nat) : Writes 10 n (Nat.toDigits 10 n) := by
  refine .plain ⟨0, (List.map_congr_left fun c digit => ?_).trans (List.map_id _)⟩
  have bounds := bounds_of_isDigit (Nat.isDigit_of_mem_toDigits (by decide) (by decide) digit)
  rcases eq_of_toLower_eq (rfl : c.toLower = _) with lower | ⟨upper, -⟩
  · exact lower.symm
  · omega

theorem Spells.isAlphanum {base n : Nat} (least : 1 < base) (most : base ≤ 16) {cs : List Char}
    (h : Spells base n cs) {c : Char} (mem : c ∈ cs) : c.isAlphanum := by
  cases worth : digit? base c with
  | none =>
    have row := h.digits? least most
    rw [digits?_eq_none mem worth] at row
    cases row
  | some d => exact isAlphanum_of_digit? worth

theorem Writes.ne_nil {base n : Nat} {cs : List Char} (h : Writes base n cs) : cs ≠ [] := by
  cases h with
  | plain spelled => exact spelled.ne_nil
  | plus => exact List.cons_ne_nil _ _

/-- Numerals are made of letters, digits and plus signs. -/
theorem Writes.isAlphanum_or {base n : Nat} (least : 1 < base) (most : base ≤ 16) {cs : List Char}
    (h : Writes base n cs) {c : Char} (mem : c ∈ cs) : c.isAlphanum ∨ c = '+' := by
  cases h with
  | plain spelled => exact Or.inl (spelled.isAlphanum least most mem)
  | plus spelled =>
    rcases List.mem_cons.1 mem with rfl | mem
    · exact Or.inr rfl
    · exact Or.inl (spelled.isAlphanum least most mem)

end Numeral

end CallDebugger
