import Mathlib.Algebra.Order.Field.Basic
import Mathlib.Data.Int.Cast.Lemmas
import Mathlib.Algebra.Order.Ring.Cast
import Mathlib.Tactic.Linarith

/-!
# Clocks of the same rate, nested measurements and truncated corrections

A clock reads an integer at every instant and never goes back.  Clocks of the same rate agree on
every difference of readings, whatever their origins.

* `Fits` — a measurement under way on one clock lies inside one under way on another;
  `Fits.start`, `Fits.later` and `Fits.stop` follow it from its start to its end;
* `Corrects` — what is left of an elapsed time when a counted part of it, known up to a unit, is
  taken off;
* `corrects_truncated` — taking off the counted part truncated to units is such a correction;
* `Corrects.cast_div` — the same in any linearly ordered field, on any scale.
-/

namespace Clocks

variable {T : Type*} [LE T]

/-- A monotone clock. -/
structure Clock (T : Type*) [LE T] where
  read : T → ℤ
  mono : ∀ {s t : T}, s ≤ t → read s ≤ read t

/-- The two clocks agree on the time between any two instants. -/
def SameRate (c d : Clock T) : Prop := ∀ s t, d.read t - d.read s = c.read t - c.read s

/-- A clock with its origin moved. -/
def Clock.shift (c : Clock T) (k : ℤ) : Clock T where
  read := fun t => c.read t + k
  mono := fun h => Int.add_le_add_right (c.mono h) k

theorem sameRate_shift (c : Clock T) (k : ℤ) : SameRate c (c.shift k) := by
  intro s t
  show c.read t + k - (c.read s + k) = c.read t - c.read s
  omega

/-! ### Nested measurements -/

variable {c d : Clock T} {a b : ℤ} {t t' : T}

/-- At the instant `t`, the measurement begun on `d` at the reading `b` lies inside the one begun on
`c` at the reading `a`. -/
structure Fits (c d : Clock T) (a b : ℤ) (t : T) : Prop where
  nonneg : 0 ≤ d.read t - b
  le : d.read t - b ≤ c.read t - a

theorem Fits.start (d : Clock T) (h : a ≤ c.read t) : Fits c d a (d.read t) t where
  nonneg := by omega
  le := by omega

theorem Fits.later (hrate : SameRate c d) (h : Fits c d a b t) (ht : t ≤ t') :
    Fits c d a b t' where
  nonneg := by
    have hmono := d.mono ht
    have hstart := h.nonneg
    omega
  le := by
    have hdiff := hrate t t'
    have hle := h.le
    omega

/-- The measurement on `d` is over, and lasted `n`: `n` still fits at every later instant. -/
theorem Clock.le_later {n : ℤ} (h : n ≤ c.read t - a) (ht : t ≤ t') : n ≤ c.read t' - a := by
  have hmono := c.mono ht
  omega

/-! ### Corrections -/

section Corrects

variable {D : Type*}

/-- `x` is the time `elapsed` without the part `counted` of it, up to less than one `unit`: never
negative, never more than `elapsed`, never less than the exact difference. -/
structure Corrects [LE D] [LT D] [Sub D] [Zero D] (x elapsed counted unit : D) : Prop where
  nonneg : 0 ≤ x
  le_elapsed : x ≤ elapsed
  exact_le : elapsed - counted ≤ x
  excess_lt : x - (elapsed - counted) < unit

/-- **Truncation towards zero.**  Only the whole units of the counted part are taken off. -/
theorem corrects_truncated {elapsed counted unit : ℤ} (hcounted : 0 ≤ counted)
    (hle : counted ≤ elapsed) (hunit : 0 < unit) :
    Corrects (elapsed - unit * counted.tdiv unit) elapsed counted unit := by
  rw [Int.tdiv_eq_ediv_of_nonneg hcounted]
  have hsplit := Int.mul_ediv_add_emod counted unit
  have hrest := Int.emod_nonneg counted hunit.ne'
  have hlt := Int.emod_lt_of_pos counted hunit
  have hwhole : 0 ≤ unit * (counted / unit) :=
    Int.mul_nonneg hunit.le (Int.ediv_nonneg hcounted hunit.le)
  exact ⟨by omega, by omega, by omega, by omega⟩

variable [Field D] [LinearOrder D] [IsStrictOrderedRing D]

theorem Corrects.cast_div {x elapsed counted unit : ℤ} (h : Corrects x elapsed counted unit)
    {k : D} (hk : 0 < k) :
    Corrects ((x : D) / k) ((elapsed : D) / k) ((counted : D) / k) ((unit : D) / k) where
  nonneg := div_nonneg (Int.cast_nonneg h.nonneg) hk.le
  le_elapsed := by
    rw [div_le_div_iff_of_pos_right hk]
    exact Int.cast_le.mpr h.le_elapsed
  exact_le := by
    rw [← sub_div, div_le_div_iff_of_pos_right hk, ← Int.cast_sub]
    exact Int.cast_le.mpr h.exact_le
  excess_lt := by
    rw [← sub_div, ← sub_div, div_lt_div_iff_of_pos_right hk, ← Int.cast_sub, ← Int.cast_sub]
    exact Int.cast_lt.mpr h.excess_lt

end Corrects

end Clocks
