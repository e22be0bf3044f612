import Mathlib.Algebra.Order.Field.Rat
import Mathlib.Tactic.FieldSimp
import Mathlib.Tactic.Linarith
import Mathlib.Tactic.Positivity
import Polyphony.Proofs.Binary64.Order

/-! Rounding moves a quotient by at most half of the spacing around it. Where the result has all of
its 53 bits, that is at most a `2^53`-rd of the result. Products and quotients have them from
`2^-1022` on; a sum below that is a whole number of units and is not rounded at all. -/
namespace Polyphony

/-- What is rounded lies within half a step. -/
theorem roundDiv_within_half (num : Nat) {den : Nat} (den_pos : 0 < den) :
    2 * num ≤ 2 * (roundDiv num den * den) + den ∧
      2 * (roundDiv num den * den) ≤ 2 * num + den := by
  have parts : num / den * den + num % den = num := Nat.div_add_mod' num den
  have rest : num % den < den := Nat.mod_lt num den_pos
  have up : (num / den + 1) * den = num / den * den + den := Nat.succ_mul _ _
  unfold roundDiv
  dsimp only
  split
  · omega
  · split
    · omega
    · rcases Nat.mod_two_eq_zero_or_one (num / den) with even | odd
      · rw [even, Nat.add_zero]
        omega
      · rw [odd]
        omega

namespace Binary64

variable {x y : Binary64}

/-- A result with all of its 53 bits, or one that was a whole number of units. -/
theorem roundUnits_within {num den : Nat} (den_pos : 0 < den)
    (full : den = 1 ∨ 2 ^ 52 ≤ roundUnits num den) :
    2 ^ 53 * num ≤ 2 ^ 53 * (roundUnits num den * den) + roundUnits num den * den ∧
      2 ^ 53 * (roundUnits num den * den) ≤ 2 ^ 53 * num + roundUnits num den * den := by
  have step_pos : 0 < den * spacing num den := Nat.mul_pos den_pos (spacing_pos num den)
  obtain ⟨above, below⟩ := roundDiv_within_half num step_pos
  have spread : roundDiv num (den * spacing num den) * (den * spacing num den) =
      roundUnits num den * den := by
    rw [roundUnits]
    ring
  rw [spread] at above below
  rcases Nat.lt_or_ge 52 (num / den).log2 with wide | narrow
  · have bits := le_roundUnits_of_spacing wide
    rw [two_pow_log2_eq wide] at bits
    have scaled := Nat.mul_le_mul_right den bits
    rw [Nat.mul_assoc, Nat.mul_comm (spacing num den)] at scaled
    omega
  · have whole : spacing num den = 1 := by
      rw [spacing, Nat.sub_eq_zero_of_le narrow]
    rw [whole, Nat.mul_one] at above below
    rcases full with rfl | bits
    · omega
    · have scaled := Nat.mul_le_mul_right den bits
      omega

/-- The number that a finite value stands for, and zero for the others. -/
def value : Binary64 → ℚ
  | .finite negative units _ => signed negative units / unitsPerOne
  | _ => 0

theorem unitsPerOne_cast_pos : (0 : ℚ) < unitsPerOne := Nat.cast_pos.mpr unitsPerOne_pos

theorem value_of_position {a : Int} (finite : x.isFinite) (stands : x.position? = some a) :
    x.value = a / unitsPerOne := by
  cases x with
  | nan => cases finite
  | infinite negative => cases finite
  | finite negative units representable =>
      cases stands
      rfl

theorem value_nonneg (finite : x.isFinite) (nonneg : 0 ≤ x) : 0 ≤ x.value := by
  obtain ⟨a, stands, nonneg⟩ := nonneg_iff.mp nonneg
  rw [value_of_position finite stands]
  have unit := unitsPerOne_pos
  positivity

theorem value_pos (finite : x.isFinite) (positive : 0 < x) : 0 < x.value := by
  obtain ⟨a, stands, positive⟩ := pos_iff.mp positive
  rw [value_of_position finite stands]
  exact div_pos (Int.cast_pos.mpr positive) unitsPerOne_cast_pos

theorem value_finite_pos_iff {negative : Bool} {units : Nat}
    {representable : Representable units} :
    0 < (finite negative units representable).value ↔ negative = false ∧ 0 < units := by
  rw [value, div_pos_iff_of_pos_right unitsPerOne_cast_pos, Int.cast_pos]
  cases negative with
  | false => simp [signed]
  | true => simp [signed]

/-- Above zero there is one value for a number. -/
theorem eq_of_value (positive : 0 < x.value) (same : x.value = y.value) : x = y := by
  have y_positive : 0 < y.value := same ▸ positive
  cases x with
  | nan => exact absurd positive (lt_irrefl _)
  | infinite m => exact absurd positive (lt_irrefl _)
  | finite m u hu =>
      cases y with
      | nan => exact absurd y_positive (lt_irrefl _)
      | infinite n => exact absurd y_positive (lt_irrefl _)
      | finite n v hv =>
          obtain ⟨rfl, _⟩ := value_finite_pos_iff.mp positive
          obtain ⟨rfl, _⟩ := value_finite_pos_iff.mp y_positive
          have units := (div_left_inj' unitsPerOne_cast_pos.ne').mp same
          obtain rfl : u = v := Int.ofNat_inj.mp (Int.cast_injective units)
          rfl

/-- The larger of two numbers that compare the other way is the first one up to the sign of zero. -/
theorem value_max_of_le (finite : x.isFinite) (le : y ≤ x) :
    (max x y).isFinite ∧ (max x y).value = x.value := by
  unfold max
  split
  · exact ⟨finite, rfl⟩
  · split
    · exact ⟨finite, rfl⟩
    · next notBelow =>
        obtain ⟨b, a, right, left, le⟩ := le_iff.mp le
        obtain rfl : b = a := by
          refine Int.le_antisymm le (Int.not_lt.mp fun lt => notBelow ?_)
          exact lt_iff.mpr ⟨b, a, right, left, lt⟩
        obtain ⟨a, found, representable⟩ := exists_position_of_isFinite finite
        obtain rfl := Option.some.inj (left.symm.trans found)
        have y_finite := isFinite_of_position right representable.1
        refine ⟨y_finite, ?_⟩
        rw [value_of_position y_finite right, value_of_position finite left]

/-- At most a `2^53`-rd of the result away from the exact number. -/
def Approximates (x : Binary64) (exact : ℚ) : Prop := |x.value - exact| ≤ x.value / 2 ^ 53

theorem cast_two_pow_add (m n : Nat) : ((Nat.pow 2 (m + n) : Nat) : ℚ) = 2 ^ m * 2 ^ n := by
  rw [Nat.pow_eq, Nat.cast_pow, pow_add, Nat.cast_ofNat]

theorem unitsPerOne_cast : (unitsPerOne : ℚ) = 2 ^ 52 * 2 ^ 1022 := by
  unfold unitsPerOne
  generalize exponent : 1074 = n
  rw [show n = 52 + 1022 by omega]
  exact cast_two_pow_add 52 1022

theorem bits_of_normal {units : Nat} (normal : 1 / 2 ^ 1022 ≤ (units : ℚ) / unitsPerOne) :
    2 ^ 52 ≤ units := by
  have scale_pos : (0 : ℚ) < 2 ^ 1022 := pow_pos two_pos 1022
  rw [div_le_div_iff₀ scale_pos unitsPerOne_cast_pos, unitsPerOne_cast, one_mul] at normal
  exact_mod_cast le_of_mul_le_mul_right normal scale_pos

/-- An error of a quotient's numerator, as an error in units. -/
theorem abs_div_sub_eq {result num den unit : ℚ} (den_pos : 0 < den) (unit_pos : 0 < unit) :
    |result / unit - num / den / unit| = |result * den - num| / (den * unit) := by
  calc |result / unit - num / den / unit|
      = |(result * den - num) / (den * unit)| := by
        congr 1
        field_simp
    _ = |result * den - num| / (den * unit) := by
        rw [abs_div, abs_of_pos (mul_pos den_pos unit_pos)]

/-- An error that is relative to a quotient's numerator, as an error in units. -/
theorem abs_div_sub_le {result num den unit part : ℚ} (den_pos : 0 < den) (unit_pos : 0 < unit)
    (near : |result * den - num| ≤ result * den / part) :
    |result / unit - num / den / unit| ≤ result / unit / part := by
  calc |result / unit - num / den / unit|
      = |result * den - num| / (den * unit) := abs_div_sub_eq den_pos unit_pos
    _ ≤ result * den / part / (den * unit) := by gcongr
    _ = result / unit / part := by field_simp

theorem value_of_rounded {num den : Nat} (finite : x.isFinite)
    (stands : x.position? = some (rounded num den)) :
    x.value = roundUnits num den / unitsPerOne := by
  rw [rounded_of_nonneg (Int.natCast_nonneg num), Int.natAbs_natCast] at stands
  obtain ⟨a, found, below, _⟩ := exists_position_of_isFinite finite
  obtain rfl := Option.some.inj (stands.symm.trans found)
  rw [Int.natAbs_natCast] at below
  rw [value_of_position finite stands, clamp_eq_of_clamp_lt below, Int.cast_natCast]

theorem approximates_of_rounded {num den : Nat} (finite : x.isFinite) (den_pos : 0 < den)
    (stands : x.position? = some (rounded num den))
    (full : den = 1 ∨ 1 / 2 ^ 1022 ≤ x.value) : x.Approximates (num / den / unitsPerOne) := by
  have units := value_of_rounded finite stands
  rw [units] at full
  obtain ⟨above, below⟩ := roundUnits_within den_pos (full.imp_right bits_of_normal)
  have den_cast : (0 : ℚ) < den := Nat.cast_pos.mpr den_pos
  have above : (2 ^ 53 * num : ℚ) ≤
      2 ^ 53 * (roundUnits num den * den) + roundUnits num den * den := by
    exact_mod_cast above
  have below : (2 ^ 53 * (roundUnits num den * den) : ℚ) ≤
      2 ^ 53 * num + roundUnits num den * den := by
    exact_mod_cast below
  have apart : |(roundUnits num den * den : ℚ) - num| ≤ roundUnits num den * den / 2 ^ 53 := by
    rw [abs_le]
    constructor <;> linarith
  rw [Approximates, units]
  exact abs_div_sub_le den_cast unitsPerOne_cast_pos apart

theorem exists_units_of_nonneg (finite : x.isFinite) (nonneg : 0 ≤ x) :
    ∃ units : Nat, x.position? = some (units : Int) ∧ x.value = units / unitsPerOne := by
  obtain ⟨a, stands, nonneg⟩ := nonneg_iff.mp nonneg
  obtain ⟨units, rfl⟩ := Int.eq_ofNat_of_zero_le nonneg
  refine ⟨units, stands, ?_⟩
  rw [value_of_position finite stands, Int.cast_natCast]

theorem add_approximates (x_nonneg : 0 ≤ x) (y_nonneg : 0 ≤ y) (finite : (x + y).isFinite) :
    (x + y).Approximates (x.value + y.value) := by
  obtain ⟨x_finite, y_finite⟩ := isFinite_of_add finite
  obtain ⟨u, left, x_value⟩ := exists_units_of_nonneg x_finite x_nonneg
  obtain ⟨v, right, y_value⟩ := exists_units_of_nonneg y_finite y_nonneg
  have stands := position?_add x_finite y_finite left right
  rw [← Int.natCast_add] at stands
  have near := approximates_of_rounded finite Nat.one_pos stands (.inl rfl)
  rwa [Nat.cast_one, div_one, Nat.cast_add, add_div, ← x_value, ← y_value] at near

/-- A product is near the exact one unless it underflows, which a zero does not. -/
theorem mul_approximates (x_finite : x.isFinite) (y_finite : y.isFinite) (x_nonneg : 0 ≤ x)
    (y_nonneg : 0 ≤ y) (finite : (x * y).isFinite)
    (normal : x.value = 0 ∨ 1 / 2 ^ 1022 ≤ (x * y).value) :
    (x * y).Approximates (x.value * y.value) := by
  obtain ⟨u, left, x_value⟩ := exists_units_of_nonneg x_finite x_nonneg
  obtain ⟨v, right, y_value⟩ := exists_units_of_nonneg y_finite y_nonneg
  have stands := position?_mul x_finite y_finite left right
  rw [← Int.natCast_mul] at stands
  rcases normal with none | normal
  · have zero : u = 0 := by
      rw [x_value, div_eq_zero_iff, or_iff_left unitsPerOne_cast_pos.ne'] at none
      exact Nat.cast_eq_zero.mp none
    rw [zero, Nat.zero_mul, Int.natCast_zero, rounded_zero] at stands
    have product := value_of_position finite stands
    rw [Int.cast_zero, zero_div] at product
    rw [Approximates, product, none, zero_mul, sub_zero, abs_zero, zero_div]
  · have near := approximates_of_rounded finite unitsPerOne_pos stands (.inr normal)
    rwa [Nat.cast_mul, div_div, mul_div_mul_comm, ← x_value, ← y_value] at near

/-- A quotient is that of two naturals, rounded once. -/
theorem exists_rounded_div (x_finite : x.isFinite) (y_finite : y.isFinite) (x_nonneg : 0 ≤ x)
    (y_pos : 0 < y) : ∃ num den : Nat, 0 < den ∧ (x / y).position? = some (rounded num den) ∧
      (num / den / unitsPerOne : ℚ) = x.value / y.value := by
  obtain ⟨u, left, x_value⟩ := exists_units_of_nonneg x_finite x_nonneg
  obtain ⟨v, right, y_value⟩ := exists_units_of_nonneg y_finite (le_of_lt y_pos)
  have v_pos : 0 < v := by
    obtain ⟨_, stands, positive⟩ := pos_iff.mp y_pos
    rw [← Option.some.inj (right.symm.trans stands)] at positive
    exact Int.natCast_pos.mp positive
  have stands := position?_div x_finite y_finite left right (Int.natCast_pos.mpr v_pos)
  rw [← Int.natCast_mul, Int.natAbs_natCast] at stands
  refine ⟨_, _, v_pos, stands, ?_⟩
  have unit_pos := unitsPerOne_cast_pos
  rw [x_value, y_value, Nat.cast_mul, div_div_div_cancel_right₀ unit_pos.ne', div_right_comm,
    mul_div_cancel_right₀ _ unit_pos.ne']

theorem div_approximates (x_finite : x.isFinite) (y_finite : y.isFinite) (x_nonneg : 0 ≤ x)
    (y_pos : 0 < y) (finite : (x / y).isFinite) (normal : 1 / 2 ^ 1022 ≤ (x / y).value) :
    (x / y).Approximates (x.value / y.value) := by
  obtain ⟨num, den, den_pos, stands, exact⟩ :=
    exists_rounded_div x_finite y_finite x_nonneg y_pos
  rw [← exact]
  exact approximates_of_rounded finite den_pos stands (.inr normal)

end Binary64
end Polyphony
