import Polyphony.Binary64.Basic

/-! How long a length code sounds. -/
namespace Polyphony.Timeline

/-- A code `n > 0` sounds for `1 + n` base lengths, and a code `-n` for a `2^n`-th of one. -/
def sounding (base : Binary64) (code : Int) : Binary64 :=
  if 0 < code then base * .ofInt (1 + code)
  else if code < 0 then base / .twoPow code.natAbs
  else base

/-- Both `1 + code` and `-code` are signed numbers of 32 bits. -/
def Soundable (code : Int) : Prop := -0x80000000 < code ∧ code < 0x7fffffff

instance (code : Int) : Decidable (Soundable code) := inferInstanceAs (Decidable (_ ∧ _))

end Polyphony.Timeline
