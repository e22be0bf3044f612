import Mathlib.Tactic.Ring
import Polyphony.Binary64.Basic

/-! A larger quotient never rounds to a smaller number, and one that is representable rounds to
itself. -/
namespace Polyphony

theorem div_le_div_of_cross {a b c d : Nat} (b_pos : 0 < b) (d_pos : 0 < d)
    (cross : a * d ≤ c * b) : a / b ≤ c / d := by
  rw [Nat.le_div_iff_mul_le d_pos]
  refine Nat.le_of_mul_le_mul_right ?_ b_pos
  calc a / b * d * b = a / b * b * d := Nat.mul_right_comm _ _ _
    _ ≤ a * d := Nat.mul_le_mul_right d (Nat.div_mul_le_self a b)
    _ ≤ c * b := cross

/-- With the same whole part, the larger quotient has the larger part left over. -/
theorem mod_cross_of_div_eq {a b c d : Nat} (same : a / b = c / d) (cross : a * d ≤ c * b) :
    a % b * d ≤ c % d * b := by
  have left : a * d = a / b * (b * d) + a % b * d :=
    calc a * d = (b * (a / b) + a % b) * d := by rw [Nat.div_add_mod]
      _ = a / b * (b * d) + a % b * d := by ring
  have right : c * b = a / b * (b * d) + c % d * b :=
    calc c * b = (d * (c / d) + c % d) * b := by rw [Nat.div_add_mod]
      _ = a / b * (b * d) + c % d * b := by rw [same]; ring
  omega

theorem roundDiv_mono {a b c d : Nat} (b_pos : 0 < b) (d_pos : 0 < d) (cross : a * d ≤ c * b) :
    roundDiv a b ≤ roundDiv c d := by
  rcases Nat.lt_or_eq_of_le (div_le_div_of_cross b_pos d_pos cross) with apart | same
  · calc roundDiv a b ≤ a / b + 1 := roundDiv_le a b
      _ ≤ c / d := apart
      _ ≤ roundDiv c d := le_roundDiv c d
  · have left := mod_cross_of_div_eq same cross
    -- which side of a half the first part is on decides as much for the second
    have above : b ≤ 2 * (a % b) → d ≤ 2 * (c % d) := by
      intro half
      refine Nat.le_of_mul_le_mul_right ?_ b_pos
      have scaled := Nat.mul_le_mul_right d half
      rw [Nat.mul_assoc] at scaled
      rw [Nat.mul_assoc, Nat.mul_comm d b]
      omega
    have strictly : b < 2 * (a % b) → d < 2 * (c % d) := by
      intro half
      refine Nat.lt_of_mul_lt_mul_right (a := b) ?_
      have scaled := Nat.mul_lt_mul_of_pos_right half d_pos
      rw [Nat.mul_assoc] at scaled
      rw [Nat.mul_assoc, Nat.mul_comm d b]
      omega
    unfold roundDiv
    rw [same]
    dsimp only
    split
    · split
      · exact Nat.le_refl _
      · split <;> omega
    · next notBelow =>
        have := above (Nat.le_of_not_lt notBelow)
        rw [if_neg (Nat.not_lt_of_le this)]
        split
        · next beyond =>
            rw [if_pos (strictly beyond)]
        · split <;> omega

theorem roundDiv_mul_right {units den : Nat} (den_pos : 0 < den) :
    roundDiv (units * den) den = units := by
  unfold roundDiv
  dsimp only
  rw [Nat.mul_mod_left, Nat.mul_div_cancel units den_pos, if_pos (by omega)]

namespace Binary64

theorem log2_mono {m n : Nat} (le : m ≤ n) : m.log2 ≤ n.log2 := by
  rcases Nat.eq_zero_or_pos m with rfl | positive
  · exact Nat.zero_le _
  · refine (Nat.le_log2 (by omega)).mpr ?_
    exact Nat.le_trans (Nat.log2_self_le (by omega)) le

theorem spacing_pos (num den : Nat) : 0 < spacing num den := Nat.two_pow_pos _

theorem two_pow_log2_eq {num den : Nat} (wide : 52 < (num / den).log2) :
    2 ^ (num / den).log2 = 2 ^ 52 * spacing num den := by
  rw [spacing, Nat.pow_eq, ← Nat.pow_add, Nat.add_sub_cancel' (Nat.le_of_lt wide)]

/-- At a spacing above one unit the significand has its full 53 bits. -/
theorem le_roundUnits_of_spacing {num den : Nat} (wide : 52 < (num / den).log2) :
    2 ^ (num / den).log2 ≤ roundUnits num den := by
  have whole : 2 ^ (num / den).log2 ≤ num / den :=
    Nat.log2_self_le (fun zero => by rw [zero] at wide; contradiction)
  have split := two_pow_log2_eq wide
  calc 2 ^ (num / den).log2 = 2 ^ 52 * spacing num den := split
    _ ≤ num / den / spacing num den * spacing num den := by
        refine Nat.mul_le_mul_right _ ?_
        rw [Nat.le_div_iff_mul_le (spacing_pos num den), ← split]
        exact whole
    _ = num / (den * spacing num den) * spacing num den := by rw [Nat.div_div_eq_div_mul]
    _ ≤ roundUnits num den := Nat.mul_le_mul_right _ (le_roundDiv _ _)

theorem roundUnits_mono {a b c d : Nat} (b_pos : 0 < b) (d_pos : 0 < d) (cross : a * d ≤ c * b) :
    roundUnits a b ≤ roundUnits c d := by
  have logs : (a / b).log2 ≤ (c / d).log2 := log2_mono (div_le_div_of_cross b_pos d_pos cross)
  rcases Nat.lt_or_ge ((a / b).log2 - 52) ((c / d).log2 - 52) with apart | same
  · -- a power of two lies between the two numbers
    calc roundUnits a b ≤ 2 ^ 53 * spacing a b :=
          Nat.mul_le_mul_right _ (significand_le a b)
      _ = 2 ^ (53 + ((a / b).log2 - 52)) := (Nat.pow_add 2 _ _).symm
      _ ≤ 2 ^ (c / d).log2 := Nat.pow_le_pow_right (by decide) (by omega)
      _ ≤ roundUnits c d := le_roundUnits_of_spacing (by omega)
  · have spacings : spacing a b = spacing c d := by
      rw [spacing, spacing]
      congr 1
      omega
    unfold roundUnits
    rw [spacings]
    refine Nat.mul_le_mul_right _ (roundDiv_mono ?_ ?_ ?_)
    · exact Nat.mul_pos b_pos (spacing_pos c d)
    · exact Nat.mul_pos d_pos (spacing_pos c d)
    · rw [← Nat.mul_assoc, ← Nat.mul_assoc]
      exact Nat.mul_le_mul_right _ cross

theorem roundUnits_exact {units den : Nat} (den_pos : 0 < den)
    (divides : Nat.pow 2 (units.log2 - 52) ∣ units) : roundUnits (units * den) den = units := by
  have quotient : units * den / den = units := Nat.mul_div_cancel units den_pos
  obtain ⟨significand, same⟩ := divides
  have spaced : spacing (units * den) den = 2 ^ (units.log2 - 52) := by
    rw [spacing, quotient, Nat.pow_eq]
  rw [Nat.pow_eq] at same
  have rearranged : units * den = significand * (den * 2 ^ (units.log2 - 52)) := by
    nth_rewrite 1 [same]
    ring
  rw [roundUnits, spaced, rearranged,
    roundDiv_mul_right (Nat.mul_pos den_pos (Nat.two_pow_pos _)), Nat.mul_comm]
  exact same.symm

theorem roundUnits_zero (den : Nat) : roundUnits 0 den = 0 := by
  rcases Nat.eq_zero_or_pos den with rfl | positive
  · decide
  · have exact : roundUnits (0 * den) den = 0 := roundUnits_exact positive (Nat.dvd_zero _)
    rwa [Nat.zero_mul] at exact

theorem one_le_roundUnits {num den : Nat} (den_pos : 0 < den) (unit : den ≤ num) :
    1 ≤ roundUnits num den := by
  have exact : roundUnits (1 * den) den = 1 := roundUnits_exact den_pos (by decide)
  have mono : roundUnits (1 * den) den ≤ roundUnits num den :=
    roundUnits_mono den_pos den_pos (Nat.mul_le_mul_right den (show 1 * den ≤ num by omega))
  rwa [exact] at mono

/-- Exactly half a unit goes to the even zero. -/
theorem roundUnits_pos_iff {num den : Nat} (den_pos : 0 < den) :
    0 < roundUnits num den ↔ den < 2 * num := by
  rcases Nat.lt_or_ge num den with below | unit
  · have whole : num / den = 0 := Nat.div_eq_of_lt below
    have spaced : spacing num den = 1 := by
      rw [spacing, whole]
      decide
    rw [roundUnits, spaced, Nat.mul_one, Nat.mul_one, roundDiv, whole, Nat.mod_eq_of_lt below]
    split
    · omega
    · split <;> omega
  · exact iff_of_true (one_le_roundUnits den_pos unit) (by omega)

end Binary64
end Polyphony
