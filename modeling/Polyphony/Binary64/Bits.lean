import Polyphony.Binary64.Basic

/-! The 64-bit interchange encoding of binary64: a sign bit, eleven exponent bits and fifty-two
fraction bits. Any NaN pattern reads as the one NaN. -/
namespace Polyphony.Binary64

/-- Exponent field and fraction field side by side, as one number. -/
def magnitudeBits (units : Nat) : Nat :=
  (units.log2 - 52) * Nat.pow 2 52 + units / Nat.pow 2 (units.log2 - 52)

def toBits (x : Binary64) : UInt64 :=
  match x with
  | .nan => 0x7ff8000000000000
  | .infinite negative => if negative then 0xfff0000000000000 else 0x7ff0000000000000
  | .finite negative units _ =>
    UInt64.ofNat ((if negative then Nat.pow 2 63 else 0) + magnitudeBits units)

/-- The magnitude with a given exponent field (below 2047) and fraction field. -/
def fieldUnits (exponent fraction : Nat) : Nat :=
  if exponent = 0 then fraction else (Nat.pow 2 52 + fraction) * Nat.pow 2 (exponent - 1)

theorem representable_fieldUnits {exponent fraction : Nat} (he : exponent < 2047)
    (hf : fraction < Nat.pow 2 52) : Representable (fieldUnits exponent fraction) := by
  unfold fieldUnits
  split
  · refine ⟨Nat.lt_of_lt_of_le hf (two_pow_le_unitLimit (by decide)), ?_⟩
    have small : fraction ≤ Nat.pow 2 53 := Nat.le_trans (Nat.le_of_lt hf) (by decide)
    simpa using dvd_of_significand_le (s := 0) small
  · have significand : Nat.pow 2 52 + fraction < Nat.pow 2 53 := by
      simp only [Nat.pow_eq] at hf ⊢
      omega
    refine ⟨?_, dvd_of_significand_le (Nat.le_of_lt significand)⟩
    calc (Nat.pow 2 52 + fraction) * Nat.pow 2 (exponent - 1)
        < Nat.pow 2 53 * Nat.pow 2 (exponent - 1) :=
          Nat.mul_lt_mul_of_pos_right significand (Nat.two_pow_pos _)
      _ = Nat.pow 2 (53 + (exponent - 1)) := (Nat.pow_add 2 53 (exponent - 1)).symm
      _ ≤ unitLimit := two_pow_le_unitLimit (by unfold limitExponent; omega)

def ofBits (bits : UInt64) : Binary64 :=
  let n := bits.toNat
  let negative := n / Nat.pow 2 63 = 1
  let exponent := n / Nat.pow 2 52 % 2048
  if h : exponent < 2047 then
    .finite negative (fieldUnits exponent (n % Nat.pow 2 52))
      (representable_fieldUnits h (Nat.mod_lt _ (by decide)))
  else if n % Nat.pow 2 52 = 0 then .infinite negative
  else .nan

end Polyphony.Binary64
