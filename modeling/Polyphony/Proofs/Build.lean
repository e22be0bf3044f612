import Polyphony.Build

/-! Sums of sums, and numbers that fit. A wrapping build never stops; a checked one keeps what it
does not stop at. -/
namespace Polyphony.Build

variable {m n : Int}

theorem keptInt_add_keptInt (b : Build) (m n : Int) :
    b.keptInt (m + b.keptInt n) = b.keptInt (m + n) := by
  cases b with
  | checked => rfl
  | wrapping => exact Int.add_bmod_bmod

theorem keptInt_keptInt_add (b : Build) (m n : Int) :
    b.keptInt (b.keptInt m + n) = b.keptInt (m + n) := by
  rw [Int.add_comm, keptInt_add_keptInt, Int.add_comm]

theorem keptInt_eq_self (b : Build) (least : -0x80000000 ≤ n) (most : n < 0x80000000) :
    b.keptInt n = n := by
  cases b with
  | checked => rfl
  | wrapping => exact Int.bmod_eq_of_le (by simpa using least) (by simpa using most)

theorem keptInt_toInt (b : Build) (word : Int32) : b.keptInt word.toInt = word.toInt :=
  b.keptInt_eq_self word.le_toInt word.toInt_lt

theorem holdsInt_add_keptInt (b : Build) (m n : Int) :
    b.HoldsInt (m + b.keptInt n) ↔ b.HoldsInt (m + n) := by
  cases b with
  | checked => exact Iff.rfl
  | wrapping => exact iff_of_true nofun nofun

theorem holdsInt_keptInt_add (b : Build) (m n : Int) :
    b.HoldsInt (b.keptInt m + n) ↔ b.HoldsInt (m + n) := by
  rw [Int.add_comm, holdsInt_add_keptInt, Int.add_comm]

theorem holdsNat_of_keptNat {b : Build} {n : Nat} (holds : b.HoldsNat (b.keptNat n)) :
    b.HoldsNat n := by
  cases b with
  | checked => exact holds
  | wrapping => exact nofun

end Polyphony.Build
