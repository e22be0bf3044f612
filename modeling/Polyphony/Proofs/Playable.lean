import Polyphony.Proofs.Compile

/-! Tracks are refused for the first event that cannot be played, and tracks behind it change
nothing. -/
namespace Polyphony

open Timeline

/-- The error for the same tracks behind `count` others. -/
def Error.behind (count : Nat) : Error → Error
  | .unplayable u => .unplayable (u.behind count)
  | error => error

end Polyphony
