import Polyphony.Yaml.Scalar

/-! Places in a text, by line and column. -/
namespace Polyphony.Yaml

/-- Characters that may stand in a document: no controls but the tab and line breaks. -/
def isAllowed (c : Char) : Bool :=
  let n := c.toNat
  n = 0x09 || n = 0x0a || n = 0x0d || (0x20 ≤ n && n ≤ 0x7e) || n = 0x85 ||
    (0xa0 ≤ n && n ≤ 0xfffd) || 0x10000 ≤ n

/-- The text with one newline for each of the breaks that stand for it. Line and paragraph
separators stay as they are. -/
def newlines : List Char → List Char
  | [] => []
  | '\r' :: '\n' :: rest => '\n' :: newlines rest
  | c :: rest => (if c = '\r' || c.toNat = 0x85 then '\n' else c) :: newlines rest

def isBreak (c : Char) : Bool := c = '\n' || c.toNat = 0x2028 || c.toNat = 0x2029

def isSpace (c : Char) : Bool := c = ' ' || c = '\t'

/-- The mark that may stand in front of any line. -/
def byteOrderMark : Char := '\ufeff'

/-- At the end of the text, or in front of a space or a line break. -/
def atGap (text : List Char) : Bool := text.head?.all fun c => isSpace c || isBreak c

structure Place where
  rest : List Char
  line : Nat := 0
  column : Nat := 0

namespace Place

def next (p : Place) : Place :=
  match p.rest with
  | [] => p
  | c :: rest => if isBreak c then ⟨rest, p.line + 1, 0⟩ else ⟨rest, p.line, p.column + 1⟩

def pass (n : Nat) (p : Place) : Place := n.repeat next p

def passWhile (q : Char → Bool) (p : Place) : Place := p.pass (p.rest.takeWhile q).length

/-- The place where `rest` is what is left. -/
def upTo (rest : List Char) (p : Place) : Place := p.pass (p.rest.length - rest.length)

/-- Past the spaces and the comment at the end of a line, and past its break. -/
def endLine? (p : Place) : Option Place :=
  let q := p.passWhile isSpace
  let q := if q.rest.head? = some '#' then q.passWhile fun c => !isBreak c else q
  if q.rest.head?.all isBreak then some q.next else none

/-- Three equal marks at the start of a line, with a gap after them. -/
def atMarker (mark : Char) (p : Place) : Bool :=
  p.column = 0 && p.rest.take 3 = [mark, mark, mark] && atGap (p.rest.drop 3)

end Place
end Polyphony.Yaml
