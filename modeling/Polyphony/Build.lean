/-! Arithmetic in 32 bits. A result that takes more bits ends a checked build; a wrapping build goes
on with its last 32. -/
namespace Polyphony

inductive Build where
  | checked
  | wrapping
  deriving DecidableEq, Repr

namespace Build

/-- The build goes on after a signed result. -/
def HoldsInt (b : Build) (n : Int) : Prop := b = .checked → -0x80000000 ≤ n ∧ n < 0x80000000

/-- The build goes on after an unsigned result. -/
def HoldsNat (b : Build) (n : Nat) : Prop := b = .checked → n < 0x100000000

instance (b : Build) (n : Int) : Decidable (b.HoldsInt n) := inferInstanceAs (Decidable (_ → _))

instance (b : Build) (n : Nat) : Decidable (b.HoldsNat n) := inferInstanceAs (Decidable (_ → _))

/-- What the build goes on with after a signed result. -/
def keptInt (b : Build) (n : Int) : Int :=
  match b with
  | .checked => n
  | .wrapping => n.bmod 0x100000000

/-- What the build goes on with after an unsigned result. -/
def keptNat (b : Build) (n : Nat) : Nat :=
  match b with
  | .checked => n
  | .wrapping => n % 0x100000000

end Build

instance numberOfWord : Coe Int32 Int := ⟨Int32.toInt⟩

/-- A number that does not fit stands for its last 32 bits. -/
instance wordOfNumber : Coe Int Int32 := ⟨Int32.ofInt⟩

end Polyphony
