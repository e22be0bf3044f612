import Polyphony.Yaml.Place

/-! The forms in which a scalar of one line is written: plain, between quotes, or as a block. A
scalar whose text would run over several lines has no reading here. -/
namespace Polyphony.Yaml

/-- The characters up to a closing single quote, which is itself written twice. -/
def singleQuoted? : List Char → Option (List Char × List Char)
  | '\x27' :: '\x27' :: rest =>
    (singleQuoted? rest).map fun (text, after) => ('\x27' :: text, after)
  | '\x27' :: rest => some ([], rest)
  | c :: rest =>
    if isBreak c then none
    else (singleQuoted? rest).map fun (text, after) => (c :: text, after)
  | [] => none

/-- The escapes of one letter. -/
def escapes : List (Char × Char) := [
  ('0', '\x00'), ('a', '\x07'), ('b', '\x08'), ('t', '\t'), ('\t', '\t'), ('n', '\n'),
  ('v', '\x0b'), ('f', '\x0c'), ('r', '\r'), ('e', '\x1b'), (' ', ' '), ('\x22', '\x22'),
  ('/', '/'), ('\x5c', '\x5c'), ('N', '\u0085'), ('_', '\u00a0'), ('L', '\u2028'),
  ('P', '\u2029')]

/-- The escapes of a code point, with their count of hexadecimal digits. -/
def pointEscapes : List (Char × Nat) := [('x', 2), ('u', 4), ('U', 8)]

/-- The code point of some hexadecimal digits, if there are as many of them as there must be. -/
def codePoint? (count : Nat) (digits : List Char) : Option Char := do
  let n ← digits? 16 digits
  if digits.length = count ∧ n.isValidChar then return .ofNat n else none

theorem length_dropWhile_le (q : Char → Bool) (text : List Char) :
    (text.dropWhile q).length ≤ text.length := (List.dropWhile_sublist q).length_le

/-- The characters up to a closing double quote. An escaped line break vanishes with the spaces
after it. -/
def doubleQuoted? (text : List Char) : Option (List Char × List Char) :=
  match text with
  | '\x22' :: rest => some ([], rest)
  | '\x5c' :: mark :: rest =>
    if isBreak mark then doubleQuoted? (rest.dropWhile isSpace)
    else match pointEscapes.lookup mark with
      | some count => do
        let c ← codePoint? count (rest.take count)
        let (tail, after) ← doubleQuoted? (rest.drop count)
        return (c :: tail, after)
      | none => do
        let c ← escapes.lookup mark
        let (tail, after) ← doubleQuoted? rest
        return (c :: tail, after)
  | c :: rest =>
    if isBreak c then none
    else (doubleQuoted? rest).map fun (tail, after) => (c :: tail, after)
  | [] => none
termination_by text.length
decreasing_by
  · exact Nat.lt_succ_of_le (Nat.le_succ_of_le (length_dropWhile_le isSpace rest))
  all_goals simp only [List.length_drop, List.length_cons]; omega

def flowIndicators : List Char := [',', '[', ']', '\x7b', '\x7d']

/-- The text of a plain scalar on its line. It ends before a colon with a gap after it, before a
comment, and in flow form before any flow indicator; in flow form no such indicator may follow a
colon. Spaces at its end do not belong to it. -/
def plainLine? (flow : Bool) : List Char → Option (List Char)
  | [] => some []
  | c :: rest =>
    if isBreak c then some []
    else if flow ∧ c = ':' ∧ rest.head?.any ('?' :: flowIndicators).contains then none
    else if (c = ':' ∧ atGap rest) ∨ (flow ∧ flowIndicators.contains c) then some []
    else if isSpace c ∧ (rest.dropWhile isSpace).head? = some '#' then some []
    else do
      match ← plainLine? flow rest with
      | [] => return if isSpace c then [] else [c]
      | tail => return c :: tail

/-- Past spaces and line breaks, and whether there was a break. On a new line no tab may stand
left of `indent`. -/
def passBlanks? (indent : Nat) (broken : Bool) (line column : Nat) :
    List Char → Option (Place × Bool)
  | [] => some (⟨[], line, column⟩, broken)
  | c :: rest =>
    if isBreak c then passBlanks? indent true (line + 1) 0 rest
    else if c = '\t' ∧ broken ∧ column < indent then none
    else if isSpace c then passBlanks? indent broken line (column + 1) rest
    else some (⟨c :: rest, line, column⟩, broken)

/-- Whether a plain scalar ends where blanks after it end. -/
def endsPlain (flow : Bool) (indent : Nat) (p : Place) : Bool :=
  (!flow && p.column < indent) || p.atMarker '-' || p.atMarker '.' ||
    match p.rest with
    | [] => true
    | c :: rest => c = '#' || (c = ':' && atGap rest) || (flow && flowIndicators.contains c)

/-- A plain scalar, the place after the blanks that follow it, and whether a line ended there. -/
def plain? (flow : Bool) (indent : Nat) (p : Place) : Option (List Char × Place × Bool) := do
  let text ← plainLine? flow p.rest
  let q := p.pass text.length
  let (after, broken) ← passBlanks? indent false q.line q.column q.rest
  if endsPlain flow indent after then return (text, after, broken) else none

/-- What becomes of the breaks at the end of a block. -/
inductive Chomping where
  | strip
  | clip
  | keep
  deriving DecidableEq

def chomping? : Char → Option Chomping
  | '-' => some .strip
  | '+' => some .keep
  | _ => none

/-- A digit of indentation, which is not zero, at the start of a text, and the text after it. -/
def indentation? : List Char → Option (Option Nat × List Char)
  | '0' :: _ => none
  | c :: rest =>
    some (if c.isDigit then (some (c.toNat - '0'.toNat), rest) else (none, c :: rest))
  | [] => some (none, [])

/-- The chomping and the indentation in the header of a block, in either order, and the text after
them. -/
def blockHeader? (text : List Char) : Option (Chomping × Option Nat × List Char) := do
  match text.head?.bind chomping? with
  | some chomping => do
    let (indent, rest) ← indentation? text.tail
    return (chomping, indent, rest)
  | none => do
    match ← indentation? text with
    | (none, rest) => return (.clip, none, rest)
    | (some n, rest) => match rest.head?.bind chomping? with
      | some chomping => return (chomping, some n, rest.tail)
      | none => return (.clip, some n, rest)

/-- Past the indentation of a block and its empty lines: the place, the breaks, and the widest
column that was reached. Without an `indent` every space is indentation. -/
def passIndent? (indent : Option Nat) (widest line column : Nat) :
    List Char → Option (Place × List Char × Nat)
  | [] => some (⟨[], line, column⟩, [], Nat.max widest column)
  | c :: rest =>
    let inside := indent.all (column < ·)
    if c = ' ' ∧ inside then passIndent? indent widest line (column + 1) rest
    else if c = '\t' ∧ inside then none
    else if isBreak c then do
      let (after, breaks, widest) ← passIndent? indent (Nat.max widest column) (line + 1) 0 rest
      return (after, c :: breaks, widest)
    else some (⟨c :: rest, line, column⟩, [], Nat.max widest column)

/-- The text of a block after its mark, and the place after it. Without an indentation in its
header the block is indented as its first lines are, and deeper than the keys around it. -/
def block? (keys : Option Nat) (p : Place) : Option (List Char × Place) := do
  let (chomping, given, rest) ← blockHeader? p.rest
  let start ← (p.upTo rest).endLine?
  let fixed := given.map (keys.getD 0 + ·)
  let (first, leading, widest) ← passIndent? fixed 0 start.line start.column start.rest
  let indent := fixed.getD (Nat.max (Nat.max widest ((keys.map (· + 1)).getD 0)) 1)
  let inside (q : Place) : Bool := q.column = indent && !q.rest.isEmpty
  if inside first then
    let line := first.rest.takeWhile fun c => !isBreak c
    let ending := first.pass line.length
    let next := ending.next
    let (last, trailing, _) ← passIndent? (some indent) 0 next.line next.column next.rest
    if inside last then none
    return (leading ++ line ++ (if chomping = .strip then [] else ending.rest.take 1) ++
      (if chomping = .keep then trailing else []), last)
  else return (if chomping = .keep then leading else [], first)

end Polyphony.Yaml
