/-! The keys that sounds exist for: eighty-eight, numbered from A0. -/
namespace Polyphony.Keyboard

def size : Nat := 88

/-- Where voices start: A4. -/
def rootNote : Int := 48

def onKeyboard (pitch : Int) : Bool := 0 ≤ pitch && pitch < size

def keyNames : List String :=
  ["A", "Bb", "B", "C", "Db", "D", "Eb", "E", "F", "Gb", "G", "Ab"]

/-- The name of a key with its octave number, which changes at C. -/
def name? (pitch : Int) : Option String :=
  if onKeyboard pitch then
    let key := pitch.toNat
    keyNames[key % 12]?.map (· ++ toString ((key + 9) / 12))
  else none

end Polyphony.Keyboard
