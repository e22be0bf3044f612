import Polyphony.Proofs.Binary64.Nearest
import Polyphony.Proofs.Timeline.Length

/-! A code `-n` divides by `2^n`, and the divisor is infinite from `2^1024` on. Up to there the
length is the number nearest to the exact quotient; from there on it is zero, although the quotient
need not be. -/
namespace Polyphony

namespace Binary64

variable {exact : ℚ} {n : Nat}

theorem value_twoPow (below : n < 1024) : (twoPow n).value = 2 ^ n := by
  rw [value_of_position (isFinite_twoPow below) (position?_twoPow below), Int.cast_natCast,
    Nat.cast_mul, Nat.pow_eq, Nat.cast_pow, Nat.cast_ofNat,
    mul_div_cancel_right₀ _ unitsPerOne_cast_pos.ne']

theorem half_unit : (1 / 2 ^ 1075 : ℚ) = 1 / unitsPerOne / 2 := by
  unfold unitsPerOne
  generalize exponent : 1074 = unit
  rw [show 1075 = unit + 1 by omega, Nat.pow_eq, Nat.cast_pow, Nat.cast_ofNat, pow_succ, div_div]

/-- Zero is nearest up to half a unit, which lies as near to the first unit but goes to the even
significand. -/
theorem zero_nearest_iff (nonneg : 0 ≤ exact) :
    (zero false).Nearest exact ↔ exact ≤ 1 / 2 ^ 1075 := by
  have unit_pos : (0 : ℚ) < 1 / unitsPerOne := one_div_pos.mpr unitsPerOne_cast_pos
  have away : |(zero false).value - exact| = exact := by
    rw [value_zero, zero_sub, abs_neg, abs_of_nonneg nonneg]
  rw [half_unit]
  constructor
  · intro nearest
    have unit : Representable 1 := representable_two_pow (n := 0) (by unfold limitExponent; omega)
    have unit_value : (finite false 1 unit).value = 1 / unitsPerOne := by
      rw [value, signed, if_neg Bool.false_ne_true, Int.cast_natCast, Nat.cast_one]
    have near := nearest.closest (finite false 1 unit) rfl
    rw [away, unit_value] at near
    rcases abs_cases (1 / (unitsPerOne : ℚ) - exact) with ⟨same, _⟩ | ⟨same, _⟩
    · rw [same] at near
      linarith
    · rw [same] at near
      linarith
  · intro small
    refine ⟨rfl, ?_, ?_⟩
    · intro y finite
      rw [away]
      rcases value_neg_or_units finite with negative | ⟨units, _, same⟩
      · rw [abs_sub_comm]
        exact le_abs.mpr (.inl (by linarith))
      · rcases Nat.eq_zero_or_pos units with rfl | positive
        · rw [same, Nat.cast_zero, zero_div, zero_sub, abs_neg, abs_of_nonneg nonneg]
        · have least : 1 / (unitsPerOne : ℚ) ≤ y.value := by
            rw [same]
            exact div_le_div_of_nonneg_right (Nat.one_le_cast.mpr positive) unitsPerOne_cast_pos.le
          exact le_abs.mpr (.inl (by linarith))
    · intro y _ _ _
      rw [zero, significand, leadingBits, Nat.zero_div]

end Binary64

namespace Timeline

open Score (Token)
open Score.Directive (Usable)

variable {base : Binary64} {n : Nat}

theorem sounding_neg (usable : Usable base) (n : Nat) :
    sounding base (-n) = base / .twoPow n := by
  rw [sounding_of_nonpos usable (by omega), Int.natAbs_neg, Int.natAbs_natCast]

theorem sounding_neg_isFinite (usable : Usable base) (n : Nat) :
    (sounding base (-n)).isFinite := by
  have undivided : sounding base 0 = base := rfl
  have le : sounding base (-n) ≤ sounding base 0 := sounding_mono usable (by omega)
  rw [undivided] at le
  exact Binary64.isFinite_of_le (sounding_nonneg usable _) le usable.1

/-- From the power on that is infinite nothing is left. -/
theorem sounding_neg_of_le (usable : Usable base) (beyond : 1024 ≤ n) :
    sounding base (-n) = .zero false := by
  rw [sounding_neg usable, Binary64.twoPow, if_neg (Nat.not_lt.mpr beyond),
    Binary64.div_infinite usable.1 (Binary64.unsigned_of_pos usable.2)]

theorem sounding_neg_nearest (usable : Usable base) (below : n < 1024) :
    (sounding base (-n)).Nearest (base.value / 2 ^ n) := by
  have finite := sounding_neg_isFinite usable n
  rw [sounding_neg usable] at finite ⊢
  rw [← Binary64.value_twoPow below]
  exact Binary64.div_nearest usable.1 (Binary64.isFinite_twoPow below)
    (Binary64.le_of_lt usable.2) (Binary64.twoPow_pos n) finite

/-- A length with `n` halvings is the number nearest to the exact one just when the power of two is
finite or the exact length is no more than half the least positive number. So a length that there is
a number for is met up to 1023 halvings, and any is lost from 1024 on. -/
theorem sounding_neg_nearest_iff (base : Binary64) (usable : Usable base) (n : Nat) :
    ((sounding base (-n)).Nearest (base.value / 2 ^ n) ↔
      n < 1024 ∨ base.value / 2 ^ n ≤ 1 / 2 ^ 1075) ∧
    (1024 ≤ n → sounding base (-n) = .zero false) ∧
    ∀ y : Binary64, y.isFinite → 0 < y → y.value = base.value / 2 ^ n →
      (sounding base (-n) = y ↔ n < 1024) := by
  have exact_nonneg : 0 ≤ base.value / 2 ^ n :=
    div_nonneg (Binary64.value_pos usable.1 usable.2).le (pow_pos two_pos n).le
  refine ⟨?_, sounding_neg_of_le usable, ?_⟩
  · rcases Nat.lt_or_ge n 1024 with below | beyond
    · exact iff_of_true (sounding_neg_nearest usable below) (.inl below)
    · rw [sounding_neg_of_le usable beyond, Binary64.zero_nearest_iff exact_nonneg,
        or_iff_right (Nat.not_lt.mpr beyond)]
  · intro y finite positive same
    constructor
    · rintro rfl
      by_contra beyond
      rw [sounding_neg_of_le usable (Nat.not_lt.mp beyond), ← Binary64.ofNat_zero] at positive
      exact absurd positive (by decide +kernel)
    · intro below
      have nearest := sounding_neg_nearest usable below
      have met := (nearest.value_eq finite same).trans same.symm
      exact (Binary64.eq_of_value (Binary64.value_pos finite positive) met.symm).symm

/-- Three quarters, by two halvings of three. -/
theorem sounding_three_quarters :
    (sounding 3 (-2)).Nearest ((3 : Binary64).value / 2 ^ 2) ∧ sounding 3 (-2) = 3 / 4 := by
  have usable : Usable (3 : Binary64) := by
    constructor <;> decide +kernel
  obtain ⟨near, _, exact⟩ := sounding_neg_nearest_iff 3 usable 2
  have quarters : (3 / 4 : Binary64).value = (3 : Binary64).value / 2 ^ 2 := by decide +kernel
  refine ⟨near.mpr (.inl (by omega)), ?_⟩
  exact (exact (3 / 4) (by decide +kernel) (by decide +kernel) quarters).mpr (by omega)

/-- There is a number for a second halved 1024 times, and the length is zero all the same. -/
theorem sounding_one_1024_halvings :
    Usable 1 ∧ sounding 1 (-1024) = .zero false ∧
      (∃ y : Binary64, y.isFinite ∧ 0 < y ∧ y.value = (1 : Binary64).value / 2 ^ 1024) ∧
      ¬ (sounding 1 (-1024)).Nearest ((1 : Binary64).value / 2 ^ 1024) := by
  have usable : Usable (1 : Binary64) := ⟨Binary64.isFinite_one, Binary64.one_pos⟩
  have lost : sounding 1 (-1024) = .zero false := sounding_neg_of_le usable (Nat.le_refl 1024)
  have one : (1 : Binary64).value = 1 := by
    rw [← Binary64.twoPow_zero, Binary64.value_twoPow (by omega), pow_zero]
  rw [lost, one]
  refine ⟨usable, rfl, ?_, ?_⟩
  · refine ⟨1 / .twoPow 1023 / 2, by decide +kernel, by decide +kernel, ?_⟩
    decide +kernel
  · rw [Binary64.zero_nearest_iff (by positivity), not_le]
    exact one_div_lt_one_div_of_lt (pow_pos two_pos 1024) (pow_lt_pow_right₀ one_lt_two (by omega))

end Timeline
end Polyphony
