import Polyphony.Text.Blank
import Polyphony.Text.UpperCase

/-! Layout and letter case carry no meaning in a score. -/
namespace Polyphony.Score

/-- The text without white space and in upper case. -/
def normalise (text : List Char) : List Char :=
  (text.filter fun c => !Text.isBlank c).flatMap Text.upper

end Polyphony.Score
