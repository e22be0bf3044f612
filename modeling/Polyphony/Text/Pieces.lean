/-! Cutting a text at every occurrence of a separator. -/
namespace Polyphony.Text

/-- The pieces between the separators, in order; there is always one more of them. -/
def pieces (separator : Char) : List Char → List (List Char)
  | [] => [[]]
  | c :: rest =>
    if c = separator then [] :: pieces separator rest
    else match pieces separator rest with
      | [] => [[c]]
      | first :: others => (c :: first) :: others

end Polyphony.Text
