import Mathlib.Data.Nat.Dist
import Polyphony.Proofs.Binary64.Accuracy

/-! Rounding gives the number that is nearest to a quotient, and of two that are equally near the
one with an even significand. Multiples of the spacing around the quotient are compared with each
other; any other number lies below the binade of the quotient, whose first number is nearer. -/
namespace Polyphony

theorem two_mul_dist_roundDiv_le (num : Nat) {den : Nat} (den_pos : 0 < den) :
    2 * num.dist (roundDiv num den * den) ≤ den := by
  obtain ⟨above, below⟩ := roundDiv_within_half num den_pos
  unfold Nat.dist
  omega

/-- Two multiples are a step apart, whatever lies between them. -/
theorem le_dist_add_dist {k m : Nat} (apart : k ≠ m) (num den : Nat) :
    den ≤ num.dist (k * den) + num.dist (m * den) :=
  calc den ≤ k.dist m * den := Nat.le_mul_of_pos_left den (Nat.dist_pos_of_ne apart)
    _ = (k * den).dist (m * den) := (Nat.dist_mul_right k den m).symm
    _ ≤ (k * den).dist num + num.dist (m * den) := Nat.dist.triangle_inequality _ _ _
    _ = num.dist (k * den) + num.dist (m * den) := by rw [Nat.dist_comm]

theorem roundDiv_nearest (num k : Nat) {den : Nat} (den_pos : 0 < den) :
    num.dist (roundDiv num den * den) ≤ num.dist (k * den) := by
  have half := two_mul_dist_roundDiv_le num den_pos
  by_cases same : k = roundDiv num den
  · rw [same]
  · have step := le_dist_add_dist same num den
    omega

/-- Half way between two multiples the even one is taken. -/
theorem even_roundDiv_of_half {num den : Nat} (den_pos : 0 < den)
    (half : 2 * num.dist (roundDiv num den * den) = den) : roundDiv num den % 2 = 0 := by
  have parts : num / den * den + num % den = num := Nat.div_add_mod' num den
  have rest : num % den < den := Nat.mod_lt num den_pos
  have up : (num / den + 1) * den = num / den * den + den := Nat.succ_mul _ _
  unfold roundDiv Nat.dist at half
  unfold roundDiv
  dsimp only at half ⊢
  split
  · next down =>
      rw [if_pos down] at half
      omega
  · next notDown =>
      rw [if_neg notDown] at half
      split
      · next beyond =>
          rw [if_pos beyond, up] at half
          omega
      · omega

theorem even_roundDiv_of_tie {num k den : Nat} (den_pos : 0 < den) (other : k ≠ roundDiv num den)
    (tie : num.dist (k * den) = num.dist (roundDiv num den * den)) : roundDiv num den % 2 = 0 := by
  have half := two_mul_dist_roundDiv_le num den_pos
  have step := le_dist_add_dist other num den
  exact even_roundDiv_of_half den_pos (by omega)

namespace Binary64

variable {x y : Binary64} {num den units : Nat}

/-- The leading 53 bits of a magnitude, or all of them where it has fewer. -/
def leadingBits (units : Nat) : Nat := units / 2 ^ (units.log2 - 52)

/-- Carrying to a 54th bit leaves the significand even, and so does dropping leading zeros. -/
theorem even_leadingBits {m : Nat} (bits : m ≤ 2 ^ 53) (even : m % 2 = 0) (e : Nat) :
    leadingBits (m * 2 ^ e) % 2 = 0 := by
  have doubled : 2 ^ ((m * 2 ^ e).log2 - 52) * 2 ∣ m * 2 ^ e := by
    rw [← Nat.pow_succ]
    rcases Nat.lt_or_eq_of_le bits with few | rfl
    · have halves : 2 ^ (e + 1) ∣ m * 2 ^ e := by
        rw [Nat.pow_succ, Nat.mul_comm m]
        exact Nat.mul_dvd_mul_left _ (Nat.dvd_of_mod_eq_zero even)
      refine Nat.dvd_trans (Nat.pow_dvd_pow 2 ?_) halves
      rcases Nat.eq_zero_or_pos m with rfl | positive
      · rw [Nat.zero_mul, Nat.log2_zero]
        omega
      · have bound : (m * 2 ^ e).log2 < 53 + e := by
          refine (Nat.log2_lt (Nat.ne_of_gt (Nat.mul_pos positive (Nat.two_pow_pos e)))).mpr ?_
          rw [Nat.pow_add]
          exact Nat.mul_lt_mul_of_pos_right few (Nat.two_pow_pos e)
        omega
    · rw [← Nat.pow_add, Nat.log2_two_pow]
      exact Nat.pow_dvd_pow 2 (by omega)
  exact Nat.mod_eq_zero_of_dvd (Nat.dvd_div_of_mul_dvd doubled)

/-- A number that is no multiple of the spacing lies below the binade of the quotient. -/
theorem dvd_or_below_binade (num : Nat) (den_pos : 0 < den)
    (whole : Nat.pow 2 (units.log2 - 52) ∣ units) :
    spacing num den ∣ units ∨
      units * den < 2 ^ 52 * (den * spacing num den) ∧ 2 ^ 52 * (den * spacing num den) ≤ num := by
  rcases Nat.lt_or_ge units.log2 (num / den).log2 with below | within
  · rcases Nat.lt_or_ge 52 (num / den).log2 with wide | narrow
    · right
      have nonzero : num / den ≠ 0 := by
        intro none
        rw [none, Nat.log2_zero] at wide
        omega
      have binade := two_pow_log2_eq wide
      have first : 2 ^ 52 * (den * spacing num den) = 2 ^ (num / den).log2 * den := by
        rw [binade]
        ring
      rw [first]
      constructor
      · refine Nat.mul_lt_mul_of_pos_right ?_ den_pos
        exact Nat.lt_of_lt_of_le Nat.lt_log2_self (Nat.pow_le_pow_right two_pos below)
      · exact (Nat.le_div_iff_mul_le den_pos).mp (Nat.log2_self_le nonzero)
    · left
      rw [spacing, Nat.sub_eq_zero_of_le narrow]
      exact Nat.one_dvd units
  · left
    refine Nat.dvd_trans (Nat.pow_dvd_pow 2 ?_) whole
    omega

/-- The rounded quotient is as near as any number of 53 bits, and even where another is as near. -/
theorem roundUnits_nearest (den_pos : 0 < den) (whole : Nat.pow 2 (units.log2 - 52) ∣ units) :
    num.dist (roundUnits num den * den) ≤ num.dist (units * den) ∧
      (units ≠ roundUnits num den →
        num.dist (units * den) = num.dist (roundUnits num den * den) →
        leadingBits (roundUnits num den) % 2 = 0) := by
  have step_pos : 0 < den * spacing num den := Nat.mul_pos den_pos (spacing_pos num den)
  have spread : roundUnits num den * den =
      roundDiv num (den * spacing num den) * (den * spacing num den) := by
    rw [roundUnits]
    ring
  rw [spread]
  rcases dvd_or_below_binade num den_pos whole with ⟨k, rfl⟩ | ⟨below, first⟩
  · have multiple : spacing num den * k * den = k * (den * spacing num den) := by ring
    rw [multiple]
    refine ⟨roundDiv_nearest num k step_pos, ?_⟩
    intro other tie
    refine even_leadingBits (significand_le num den) ?_ _
    refine even_roundDiv_of_tie step_pos ?_ tie
    rintro rfl
    exact other (Nat.mul_comm _ _)
  · -- the first number of the binade is nearer than this one
    have nearer := roundDiv_nearest num (2 ^ 52) step_pos
    unfold Nat.dist at nearer ⊢
    constructor <;> omega

def significand : Binary64 → Nat
  | .finite _ units _ => leadingBits units
  | _ => 0

/-- No finite number is nearer to the exact one, and where another is as near the significand is
even. -/
structure Nearest (x : Binary64) (exact : ℚ) : Prop where
  finite : x.isFinite
  closest : ∀ y : Binary64, y.isFinite → |x.value - exact| ≤ |y.value - exact|
  even : ∀ y : Binary64, y.isFinite → y.value ≠ x.value →
    |y.value - exact| = |x.value - exact| → x.significand % 2 = 0

theorem value_zero (negative : Bool) : (zero negative).value = 0 := by
  have stands : signed negative 0 = 0 := by cases negative <;> rfl
  rw [zero, value, stands, Int.cast_zero, zero_div]

theorem value_neg_or_units (finite : x.isFinite) :
    x.value < 0 ∨ ∃ units : Nat, Representable units ∧ x.value = units / unitsPerOne := by
  cases x with
  | nan => cases finite
  | infinite negative => cases finite
  | finite negative units representable =>
      rcases Nat.eq_zero_or_pos units with rfl | positive
      · refine .inr ⟨0, representable_zero, ?_⟩
        rw [Nat.cast_zero, zero_div]
        exact value_zero negative
      · cases negative with
        | false => exact .inr ⟨units, representable, rfl⟩
        | true =>
            left
            rw [value, signed, if_pos rfl]
            refine div_neg_of_neg_of_pos ?_ unitsPerOne_cast_pos
            exact Int.cast_lt_zero.mpr (Int.neg_neg_of_pos (Int.natCast_pos.mpr positive))

theorem significand_of_rounded (finite : x.isFinite)
    (stands : x.position? = some (rounded num den)) :
    x.significand = leadingBits (roundUnits num den) := by
  cases x with
  | nan => cases finite
  | infinite negative => cases finite
  | finite negative units representable =>
      have magnitude := congrArg Int.natAbs (Option.some.inj stands)
      rw [natAbs_signed, rounded, natAbs_signed, Int.natAbs_natCast] at magnitude
      have below := representable.1
      rw [magnitude] at below
      rw [significand, magnitude, clamp_eq_of_clamp_lt below]

theorem cast_dist (m n : Nat) : (m.dist n : ℚ) = |(m : ℚ) - n| := by
  rcases Nat.le_total m n with le | le
  · rw [Nat.dist_eq_sub_of_le le, Nat.cast_sub le, abs_sub_comm, abs_of_nonneg]
    exact sub_nonneg.mpr (Nat.cast_le.mpr le)
  · rw [Nat.dist_eq_sub_of_le_right le, Nat.cast_sub le, abs_of_nonneg]
    exact sub_nonneg.mpr (Nat.cast_le.mpr le)

theorem nearest_of_rounded (finite : x.isFinite) (den_pos : 0 < den)
    (stands : x.position? = some (rounded num den)) : x.Nearest (num / den / unitsPerOne) := by
  have step_pos : (0 : ℚ) < den * unitsPerOne :=
    mul_pos (Nat.cast_pos.mpr den_pos) unitsPerOne_cast_pos
  have apart : ∀ units : Nat, |(units : ℚ) / unitsPerOne - num / den / unitsPerOne| =
      num.dist (units * den) / (den * unitsPerOne) := by
    intro units
    rw [abs_div_sub_eq (Nat.cast_pos.mpr den_pos) unitsPerOne_cast_pos, cast_dist, Nat.cast_mul,
      abs_sub_comm]
  have units := value_of_rounded finite stands
  have near : ∀ units : Nat, Representable units → |x.value - num / den / unitsPerOne| ≤
      |(units : ℚ) / unitsPerOne - num / den / unitsPerOne| := by
    intro other representable
    rw [units, apart, apart]
    refine div_le_div_of_nonneg_right ?_ step_pos.le
    exact Nat.cast_le.mpr (roundUnits_nearest den_pos representable.2).1
  -- zero is nearer than any number below it
  have far : ∀ y : Binary64, y.value < 0 →
      |x.value - num / den / unitsPerOne| < |y.value - num / den / unitsPerOne| := by
    intro y negative
    have quotient_nonneg : ∀ unit : ℚ, 0 < unit → (0 : ℚ) ≤ num / den / unit := by
      intro unit positive
      positivity
    have exact_nonneg := quotient_nonneg unitsPerOne unitsPerOne_cast_pos
    have zero := near 0 representable_zero
    rw [Nat.cast_zero, zero_div, zero_sub, abs_neg, abs_of_nonneg exact_nonneg] at zero
    rw [abs_of_neg (a := y.value - _) (by linarith)]
    linarith
  refine ⟨finite, ?_, ?_⟩
  · intro y y_finite
    rcases value_neg_or_units y_finite with negative | ⟨other, representable, same⟩
    · exact (far y negative).le
    · rw [same]
      exact near other representable
  · intro y y_finite differs tie
    rcases value_neg_or_units y_finite with negative | ⟨other, representable, same⟩
    · exact absurd tie (far y negative).ne'
    · rw [same, units, apart, apart, div_left_inj' step_pos.ne', Nat.cast_inj] at tie
      rw [significand_of_rounded finite stands]
      refine (roundUnits_nearest den_pos representable.2).2 ?_ tie
      rintro rfl
      exact differs (same.trans units.symm)

theorem div_nearest (x_finite : x.isFinite) (y_finite : y.isFinite) (x_nonneg : 0 ≤ x)
    (y_pos : 0 < y) (finite : (x / y).isFinite) : (x / y).Nearest (x.value / y.value) := by
  obtain ⟨num, den, den_pos, stands, exact⟩ :=
    exists_rounded_div x_finite y_finite x_nonneg y_pos
  rw [← exact]
  exact nearest_of_rounded finite den_pos stands

/-- A number that there is stands for itself. -/
theorem Nearest.value_eq {exact : ℚ} (nearest : x.Nearest exact) (finite : y.isFinite)
    (same : y.value = exact) : x.value = exact := by
  have near := nearest.closest y finite
  rw [same, sub_self, abs_zero] at near
  exact sub_eq_zero.mp (abs_nonpos_iff.mp near)

end Binary64
end Polyphony
