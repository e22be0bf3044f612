import Polyphony.Score.Nesting

/-! A voice is read lexeme by lexeme; its first fault in the order of the text is the one
reported. -/
namespace Polyphony.Score

/-- The tokens of the text ahead, given what is open before it. -/
def lexFrom (state : Nesting) (c : Cursor) : Except LexFault Voice :=
  match _ : c.next? with
  | none => match state.unclosed? with
    | none => .ok []
    | some cause => .error ⟨cause, c.index⟩
  | some (symbol, after) =>
    match _ : Lexeme.read symbol after with
    | .error fault => .error fault
    | .ok (lexeme, rest) =>
      match state.accept lexeme with
      | .error cause => .error ⟨cause, after.index⟩
      | .ok (tokens, inner) => (lexFrom inner rest).map (tokens ++ ·)
termination_by c.ahead.length
decreasing_by
  exact Nat.lt_of_le_of_lt (Lexeme.length_ahead_read (by assumption))
    (Cursor.length_ahead_next? (by assumption))

def lexVoice (text : List Char) : Except LexFault Voice := lexFrom .free (.ofList text)

end Polyphony.Score
