import Polyphony.Score.Voice

/-! A whole score is cut into fragments and voices first; then every voice is read on its own. -/
namespace Polyphony.Score

/-- A fault, and which voice of which fragment it is in. -/
structure LexError where
  fault : LexFault
  fragment : Nat
  voice : Nat
  deriving DecidableEq, Repr

def LexError.message (e : LexError) : String :=
  "Lex error in fragment " ++ toString e.fragment ++ ", voice " ++ toString e.voice ++
    " at index " ++ toString e.fault.index ++ ": " ++ e.fault.cause.message

/-- Fragments stand between bars, and voices between colons, even inside a block. -/
def voiceTexts (text : List Char) : List (List (List Char)) :=
  (Text.pieces '|' text).map (Text.pieces ':')

def lexFragment (fragment : Nat) (texts : List (List Char)) : Except LexError Fragment := do
  let voices ← texts.zipIdx.mapM fun (text, voice) =>
    (lexVoice text).mapError (⟨·, fragment, voice⟩)
  return { voices }

def lex (text : List Char) : Except LexError (List Fragment) :=
  (voiceTexts text).zipIdx.mapM fun (texts, fragment) => lexFragment fragment texts

end Polyphony.Score
