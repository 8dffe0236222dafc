import Mathlib.Data.Int.Log
import Mathlib.Data.List.DropRight
import Mathlib.Data.NNRat.Floor
import Mathlib.Tactic.IntervalCases
import Mathlib.Tactic.Linarith
import Mathlib.Tactic.NormNum

/-!
# Printing a number with six significant digits

The text C and C++ give a floating-point number by default (`%g`): the number is rounded to six
significant decimal digits, then written in fixed or in exponent notation, without trailing zeros
and without a point that nothing follows.

* `Rounded` — zero, or six digits and the exponent of the first; `round6` rounds a number to it;
* `defaultFormat` — the text;
* `isDecimal_defaultFormat` — when the text is digits, a point, and digits;
* `defaultFormat_chars` — the characters that occur in it.
-/

namespace Decimal

/-! ### Rounding -/

/-- The nearest natural number, the even one of two. -/
def roundHalfEven (q : ℚ≥0) : ℕ :=
  let n := ⌊q⌋₊
  if 2 * q < 2 * n + 1 then n
  else if (2 * n + 1 : ℚ≥0) < 2 * q then n + 1
  else if n % 2 = 0 then n else n + 1

theorem floor_le_roundHalfEven (q : ℚ≥0) : ⌊q⌋₊ ≤ roundHalfEven q := by
  rw [roundHalfEven]
  split_ifs <;> omega

theorem roundHalfEven_le (q : ℚ≥0) : roundHalfEven q ≤ ⌊q⌋₊ + 1 := by
  rw [roundHalfEven]
  split_ifs <;> omega

/-- A number rounded to six significant digits: `sig` holds them, `exp` is the exponent of the
first. -/
inductive Rounded
  | zero
  | normal (sig : ℕ) (exp : ℤ) (lower : 10 ^ 5 ≤ sig) (upper : sig < 10 ^ 6)

/-- The six digits of `x` in front of the point, before they are rounded. -/
def scaled (x : ℚ≥0) : ℚ≥0 := x / 10 ^ (Int.log 10 x - 5)

theorem scaled_lower {x : ℚ≥0} (hx : 0 < x) : 10 ^ 5 ≤ ⌊scaled x⌋₊ := by
  apply Nat.le_floor
  rw [scaled, le_div_iff₀ (zpow_pos (by norm_num) _)]
  have hlog := Int.zpow_log_le_self (b := 10) (by decide) hx
  calc ((10 ^ 5 : ℕ) : ℚ≥0) * 10 ^ (Int.log 10 x - 5)
      = 10 ^ (5 : ℤ) * 10 ^ (Int.log 10 x - 5) := by norm_num
    _ = 10 ^ (5 + (Int.log 10 x - 5)) := (zpow_add₀ (by norm_num) _ _).symm
    _ = ((10 : ℕ) : ℚ≥0) ^ Int.log 10 x := by rw [add_sub_cancel]; norm_num
    _ ≤ x := hlog

theorem scaled_upper (x : ℚ≥0) : ⌊scaled x⌋₊ < 10 ^ 6 := by
  apply (Nat.floor_lt zero_le).mpr
  rw [scaled, div_lt_iff₀ (zpow_pos (by norm_num) _)]
  have hlog := Int.lt_zpow_succ_log_self (b := 10) (by decide) x
  calc x < ((10 : ℕ) : ℚ≥0) ^ (Int.log 10 x + 1) := hlog
    _ = 10 ^ (6 + (Int.log 10 x - 5)) := by
        rw [show 6 + (Int.log 10 x - 5) = Int.log 10 x + 1 by omega, Nat.cast_ofNat]
    _ = 10 ^ (6 : ℤ) * 10 ^ (Int.log 10 x - 5) := zpow_add₀ (by norm_num) _ _
    _ = ((10 ^ 6 : ℕ) : ℚ≥0) * 10 ^ (Int.log 10 x - 5) := by norm_num

/-- Six significant digits of `x`.  Rounding `999999.5` up gives a digit more, and the last one of
the seven is a zero. -/
def round6 (x : ℚ≥0) : Rounded :=
  let n := roundHalfEven (scaled x)
  if hx : 0 < x then
    have hlow : 10 ^ 5 ≤ n := (scaled_lower hx).trans (floor_le_roundHalfEven _)
    if h : n < 10 ^ 6 then .normal n (Int.log 10 x) hlow h
    else
      have hupper : n ≤ 10 ^ 6 := (roundHalfEven_le _).trans (scaled_upper x)
      .normal (n / 10) (Int.log 10 x + 1) (by omega) (by omega)
  else .zero

/-- The number the digits stand for. -/
def Rounded.value : Rounded → ℚ≥0
  | .zero => 0
  | .normal sig exp _ _ => sig * 10 ^ (exp - 5)

/-! ### The text -/

/-- The last `k` digits of `n`. -/
def padDigits : ℕ → ℕ → List Char
  | 0, _ => []
  | k + 1, n => padDigits k (n / 10) ++ [Nat.digitChar (n % 10)]

/-- The point and the digits behind it, less the trailing zeros; nothing where only zeros stand. -/
def fraction (ds : List Char) : List Char :=
  if ds.rdropWhile (· == '0') = [] then [] else '.' :: ds.rdropWhile (· == '0')

/-- Style `f` with `k` digits behind the point. -/
def fixed (sig k : ℕ) : List Char :=
  Nat.toDigits 10 (sig / 10 ^ k) ++ fraction (padDigits k (sig % 10 ^ k))

/-- Style `e` with five digits behind the point and at least two in the exponent. -/
def scientific (sig : ℕ) (exp : ℤ) : List Char :=
  fixed sig 5 ++ 'e' :: (if exp < 0 then '-' else '+') ::
    (if exp.natAbs < 10 then '0' :: Nat.toDigits 10 exp.natAbs else Nat.toDigits 10 exp.natAbs)

/-- The default text of a number. -/
def defaultFormat : Rounded → List Char
  | .zero => ['0']
  | .normal sig exp _ _ =>
      if -4 ≤ exp ∧ exp < 6 then fixed sig (5 - exp).toNat else scientific sig exp

example : defaultFormat (.normal 123457 5 (by decide) (by decide)) = "123457".toList := by decide
example : defaultFormat (.normal 123400 1 (by decide) (by decide)) = "12.34".toList := by decide
example : defaultFormat (.normal 100000 (-4) (by decide) (by decide)) = "0.0001".toList := by decide
example : defaultFormat (.normal 120000 6 (by decide) (by decide)) = "1.2e+06".toList := by decide

/-! ### Decimal fractions -/

/-- Digits only, at least one. -/
def IsDigits (t : List Char) : Prop := t ≠ [] ∧ ∀ c ∈ t, c.isDigit = true

/-- Digits, a point, digits. -/
def IsDecimal (t : List Char) : Prop := ∃ x y, IsDigits x ∧ IsDigits y ∧ t = x ++ '.' :: y

/-- The rounded number is at least `0.0001`, less than `1000000`, and no whole number. -/
def Rounded.Fractional (r : Rounded) : Prop :=
  (10 ^ (-4 : ℤ) ≤ r.value ∧ r.value < 10 ^ (6 : ℤ)) ∧ ∀ n : ℕ, r.value ≠ n

theorem isDigits_toDigits (n : ℕ) : IsDigits (Nat.toDigits 10 n) :=
  ⟨Nat.toDigits_ne_nil, fun _ hc => Nat.isDigit_of_mem_toDigits (by decide) le_rfl hc⟩

theorem isDigit_digitChar {d : ℕ} (hd : d < 10) : (Nat.digitChar d).isDigit = true := by
  interval_cases d <;> rfl

theorem digitChar_eq_zero {d : ℕ} (hd : d < 10) : Nat.digitChar d = '0' ↔ d = 0 := by
  interval_cases d <;> decide

theorem isDigit_of_mem_padDigits {c : Char} :
    ∀ (k n : ℕ), c ∈ padDigits k n → c.isDigit = true := by
  intro k
  induction k with
  | zero => intro n hc; cases hc
  | succ k ih =>
      intro n hc
      rcases List.mem_append.mp hc with hc | hc
      · exact ih _ hc
      · rw [List.mem_singleton.mp hc]
        exact isDigit_digitChar (Nat.mod_lt _ (by decide))

/-- Only zeros among the last `k` digits. -/
theorem padDigits_zeros (k n : ℕ) : (∀ c ∈ padDigits k n, c = '0') ↔ n % 10 ^ k = 0 := by
  induction k generalizing n with
  | zero => simp [padDigits, Nat.mod_one]
  | succ k ih =>
      have hlast := digitChar_eq_zero (Nat.mod_lt n (show 0 < 10 by decide))
      have hmod : n % 10 ^ (k + 1) = n % 10 + 10 * (n / 10 % 10 ^ k) := by
        rw [Nat.pow_succ', Nat.mod_mul]
      rw [padDigits, List.forall_mem_append, ih, List.forall_mem_singleton, hlast, hmod]
      omega

theorem fraction_eq_nil {ds : List Char} : fraction ds = [] ↔ ∀ c ∈ ds, c = '0' := by
  rw [fraction]
  have hnil : ds.rdropWhile (· == '0') = [] ↔ ∀ c ∈ ds, c = '0' := by
    rw [List.rdropWhile_eq_nil_iff]
    simp only [beq_iff_eq]
  split_ifs with h
  · exact ⟨fun _ => hnil.mp h, fun _ => rfl⟩
  · exact ⟨fun he => absurd he (by simp), fun hz => absurd (hnil.mpr hz) h⟩

/-- What stands behind the point, when anything does. -/
theorem fraction_cases (ds : List Char) (hds : ∀ c ∈ ds, c.isDigit = true) :
    fraction ds = [] ∨ ∃ y, IsDigits y ∧ fraction ds = '.' :: y := by
  rw [fraction]
  split_ifs with h
  · exact Or.inl rfl
  · refine Or.inr ⟨_, ⟨h, fun c hc => hds c ?_⟩, rfl⟩
    exact (List.rdropWhile_prefix _ _).subset hc

theorem not_isDecimal_of_isDigits {t : List Char} (ht : ∀ c ∈ t, c.isDigit = true) :
    ¬ IsDecimal t := by
  rintro ⟨x, y, -, -, rfl⟩
  exact absurd (ht '.' (by simp)) (by decide)

/-- Style `f` gives a decimal fraction exactly when a digit other than zero is behind the point. -/
theorem isDecimal_fixed (sig k : ℕ) : IsDecimal (fixed sig k) ↔ sig % 10 ^ k ≠ 0 := by
  have hpad := fun c => isDigit_of_mem_padDigits (c := c) k (sig % 10 ^ k)
  have hzero : fraction (padDigits k (sig % 10 ^ k)) = [] ↔ sig % 10 ^ k = 0 := by
    rw [fraction_eq_nil, padDigits_zeros, Nat.mod_mod]
  rcases fraction_cases _ hpad with hnil | ⟨y, hy, hcons⟩
  · rw [fixed, hnil, List.append_nil]
    refine ⟨fun h => absurd h (not_isDecimal_of_isDigits (isDigits_toDigits _).2), fun h => ?_⟩
    exact absurd (hzero.mp hnil) h
  · rw [fixed, hcons]
    refine ⟨fun _ hz => ?_, fun _ => ⟨_, y, isDigits_toDigits _, hy, rfl⟩⟩
    rw [hzero.mpr hz] at hcons
    cases hcons

theorem mem_isDecimal {t : List Char} (ht : IsDecimal t) {c : Char} (hc : c ∈ t) :
    c.isDigit = true ∨ c = '.' := by
  obtain ⟨x, y, hx, hy, rfl⟩ := ht
  rcases List.mem_append.mp hc with hc | hc
  · exact Or.inl (hx.2 c hc)
  · rcases List.mem_cons.mp hc with rfl | hc
    · exact Or.inr rfl
    · exact Or.inl (hy.2 c hc)

/-- The exponent says between which powers of ten the number lies. -/
theorem value_bounds {sig : ℕ} (exp : ℤ) (lower : 10 ^ 5 ≤ sig) (upper : sig < 10 ^ 6) :
    (10 : ℚ≥0) ^ exp ≤ sig * 10 ^ (exp - 5) ∧ (sig * 10 ^ (exp - 5) : ℚ≥0) < 10 ^ (exp + 1) := by
  have hpos : (0 : ℚ≥0) < 10 ^ (exp - 5) := zpow_pos (by norm_num) _
  constructor
  · calc (10 : ℚ≥0) ^ exp = 10 ^ (5 : ℤ) * 10 ^ (exp - 5) := by
          rw [← zpow_add₀ (by norm_num), add_sub_cancel]
      _ ≤ sig * 10 ^ (exp - 5) := by
          apply mul_le_mul_of_nonneg_right _ hpos.le
          exact_mod_cast lower
  · calc (sig * 10 ^ (exp - 5) : ℚ≥0) < 10 ^ (6 : ℤ) * 10 ^ (exp - 5) := by
          apply mul_lt_mul_of_pos_right _ hpos
          exact_mod_cast upper
      _ = 10 ^ (exp + 1) := by
          rw [← zpow_add₀ (by norm_num), show 6 + (exp - 5) = exp + 1 by omega]

/-- A number in fixed notation is whole exactly when only zeros are behind its point. -/
theorem value_whole {sig : ℕ} {exp : ℤ} (hexp : exp < 6) :
    (∀ n : ℕ, (sig * 10 ^ (exp - 5) : ℚ≥0) ≠ n) ↔ sig % 10 ^ (5 - exp).toNat ≠ 0 := by
  obtain ⟨k, hk⟩ : ∃ k : ℕ, exp - 5 = -(k : ℤ) := ⟨(5 - exp).toNat, by omega⟩
  have hk' : (5 - exp).toNat = k := by omega
  have hten : (10 : ℚ≥0) ^ k ≠ 0 := pow_ne_zero _ (by norm_num)
  have hiff : ∀ n : ℕ, (sig * 10 ^ (exp - 5) : ℚ≥0) = n ↔ sig = n * 10 ^ k := by
    intro n
    rw [hk, zpow_neg, zpow_natCast, ← div_eq_mul_inv, div_eq_iff hten]
    exact_mod_cast Iff.rfl
  rw [hk', ne_eq, ← Nat.dvd_iff_mod_eq_zero]
  simp only [ne_eq, hiff]
  rw [← not_exists, not_iff_not]
  constructor
  · rintro ⟨n, hn⟩
    exact ⟨n, by rw [hn, mul_comm]⟩
  · rintro ⟨n, hn⟩
    exact ⟨n, by rw [hn, mul_comm]⟩

theorem fractional_normal {sig : ℕ} {exp : ℤ} (lower : 10 ^ 5 ≤ sig) (upper : sig < 10 ^ 6) :
    (Rounded.normal sig exp lower upper).Fractional ↔
      (-4 ≤ exp ∧ exp < 6) ∧ sig % 10 ^ (5 - exp).toNat ≠ 0 := by
  obtain ⟨hlow, hhigh⟩ := value_bounds exp lower upper
  have hfour : (10 : ℚ≥0) ^ (-4 : ℤ) ≤ sig * 10 ^ (exp - 5) ↔ -4 ≤ exp := by
    constructor
    · intro h
      have := (zpow_lt_zpow_iff_right₀ (by norm_num : (1 : ℚ≥0) < 10)).mp (h.trans_lt hhigh)
      omega
    · intro h
      exact (zpow_le_zpow_right₀ (by norm_num) h).trans hlow
  have hsix : (sig * 10 ^ (exp - 5) : ℚ≥0) < 10 ^ (6 : ℤ) ↔ exp < 6 := by
    constructor
    · intro h
      exact (zpow_lt_zpow_iff_right₀ (by norm_num : (1 : ℚ≥0) < 10)).mp (hlow.trans_lt h)
    · intro h
      exact hhigh.trans_le (zpow_le_zpow_right₀ (by norm_num) (by omega))
  rw [Rounded.Fractional, Rounded.value, hfour, hsix]
  exact and_congr_right fun h => value_whole h.2

/-- **When the default text is digits, a point, and digits.** -/
theorem isDecimal_defaultFormat (r : Rounded) : IsDecimal (defaultFormat r) ↔ r.Fractional := by
  cases r with
  | zero =>
      refine ⟨fun h => absurd h (not_isDecimal_of_isDigits (by simp [defaultFormat])), fun h => ?_⟩
      exact absurd Nat.cast_zero.symm (h.2 0)
  | normal sig exp lower upper =>
      rw [fractional_normal, defaultFormat]
      split_ifs with h
      · rw [isDecimal_fixed, and_iff_right h]
      · refine ⟨fun hdec => ?_, fun hf => absurd hf.1 h⟩
        have he : 'e' ∈ scientific sig exp := by simp [scientific]
        rcases mem_isDecimal hdec he with hd | hd <;> exact absurd hd (by decide)

/-! ### The characters -/

/-- The characters of a printed number. -/
def NumChar (c : Char) : Prop := c.isDigit = true ∨ c ∈ ['.', 'e', '+', '-']

theorem numChar_fraction {ds : List Char} (hds : ∀ c ∈ ds, c.isDigit = true) :
    ∀ c ∈ fraction ds, NumChar c := by
  intro c hc
  rcases fraction_cases ds hds with hnil | ⟨y, hy, hcons⟩
  · rw [hnil] at hc
    cases hc
  · rw [hcons] at hc
    rcases List.mem_cons.mp hc with rfl | hc
    · exact Or.inr (by decide)
    · exact Or.inl (hy.2 c hc)

theorem numChar_fixed (sig k : ℕ) : ∀ c ∈ fixed sig k, NumChar c := by
  intro c hc
  rcases List.mem_append.mp hc with hc | hc
  · exact Or.inl ((isDigits_toDigits _).2 c hc)
  · exact numChar_fraction (fun c => isDigit_of_mem_padDigits _ _) c hc

theorem defaultFormat_chars (r : Rounded) : ∀ c ∈ defaultFormat r, NumChar c := by
  cases r with
  | zero =>
      intro c hc
      rw [List.mem_singleton.mp hc]
      exact Or.inl (by decide)
  | normal sig exp lower upper =>
      rw [defaultFormat]
      split_ifs with h
      · exact numChar_fixed _ _
      · intro c hc
        have hexp : ∀ c ∈ (if exp.natAbs < 10 then '0' :: Nat.toDigits 10 exp.natAbs
            else Nat.toDigits 10 exp.natAbs), c.isDigit = true := by
          split_ifs
          · exact List.forall_mem_cons.mpr ⟨by decide, (isDigits_toDigits _).2⟩
          · exact (isDigits_toDigits _).2
        simp only [scientific, List.mem_append, List.mem_cons] at hc
        rcases hc with hc | rfl | rfl | hc
        · exact numChar_fixed _ _ c hc
        · exact Or.inr (by decide)
        · exact Or.inr (by split <;> decide)
        · exact Or.inl (hexp c hc)

end Decimal
