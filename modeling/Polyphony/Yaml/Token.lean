import Polyphony.Yaml.Tag
import Polyphony.Yaml.Written

/-! A flat document has at most one mapping, in block form or between braces, and no sequence; text
with more than that has no tokens. A key is known for one only when its colon comes, so what may
turn out to be a key is held back until then. -/
namespace Polyphony.Yaml

inductive Token where
  | directive (directive : Directive)
  | documentStart
  | documentEnd
  | mappingStart
  | mappingEnd
  | openBrace
  | closeBrace
  | comma
  | key
  | value
  | anchor (name : List Char)
  | reference (name : List Char)
  | tag (tag : Tag)
  | scalar (style : Style) (text : List Char)
  deriving DecidableEq, Repr

/-- Where a key may have begun. A line of a block mapping must begin with one. -/
structure Candidate where
  line : Nat
  column : Nat
  required : Bool

structure Scan where
  place : Place
  /-- Between braces. -/
  flow : Bool := false
  /-- The column of the keys, while a block mapping is open. -/
  keys : Option Nat := none
  /-- Whether a key may begin here. -/
  keyAllowed : Bool := true
  candidate : Option Candidate := none
  /-- The tokens since the candidate, newest first. -/
  held : List Token := []
  /-- The tokens before the candidate, newest first. -/
  settled : List Token := []

namespace Scan

def emit (token : Token) (s : Scan) : Scan := { s with held := token :: s.held }

def moveTo (place : Place) (s : Scan) : Scan := { s with place }

/-- No key began at the candidate, which is a fault where one is required. -/
def refuse? (s : Scan) : Option Scan :=
  if s.candidate.any (·.required) then none
  else some { s with candidate := none, held := [], settled := s.held ++ s.settled }

/-- A key may begin here, if one is allowed to. -/
def begin? (s : Scan) : Option Scan :=
  if s.keyAllowed then do
    let required := !s.flow && s.keys = some s.place.column
    let s ← s.refuse?
    return { s with
      keyAllowed := false
      candidate := some ⟨s.place.line, s.place.column, required⟩ }
  else some s

/-- A key stands on one line, and its colon no more than 1024 columns after its start. -/
def expire? (s : Scan) : Option Scan :=
  if s.candidate.any fun c => c.line < s.place.line || c.column + 1024 < s.place.column then
    s.refuse?
  else some s

/-- What stands left of the keys ends their mapping. -/
def closeBeyond (column : Nat) (s : Scan) : Scan :=
  if !s.flow && s.keys.any (column < ·) then { s.emit .mappingEnd with keys := none } else s

def close (s : Scan) : Scan :=
  if !s.flow && s.keys.isSome then { s.emit .mappingEnd with keys := none } else s

/-- A key at `column` opens the block mapping, unless it is open; its keys stand in one column. -/
def openAt? (column : Nat) (s : Scan) : Option (List Token × Option Nat) :=
  if s.flow then some ([], s.keys)
  else match s.keys with
    | none => some ([.mappingStart], some column)
    | some keys => if keys < column then none else some ([], some keys)

/-- Past spaces, comments and line breaks. Tabs are spaces between braces and where no key may
begin; a new line of block form may begin with a key. -/
def skipGap (flow keyAllowed comment : Bool) (line column : Nat) : List Char → Place × Bool
  | [] => (⟨[], line, column⟩, keyAllowed)
  | c :: rest =>
    if isBreak c then skipGap flow (keyAllowed || !flow) false (line + 1) 0 rest
    else if comment || c = '#' then skipGap flow keyAllowed true line (column + 1) rest
    else if c = ' ' || (c = '\t' && (flow || !keyAllowed)) || (c = byteOrderMark && column = 0) then
      skipGap flow keyAllowed false line (column + 1) rest
    else (⟨c :: rest, line, column⟩, keyAllowed)

/-- Move to where the next token begins. -/
def arrive? (s : Scan) : Option Scan := do
  let (place, keyAllowed) :=
    skipGap s.flow s.keyAllowed false s.place.line s.place.column s.place.rest
  let s ← { s with place, keyAllowed }.expire?
  return s.closeBeyond place.column

/-- A mark of one character. -/
def mark (token : Token) (keyAllowed : Bool) (s : Scan) : Scan :=
  { s.emit token with place := s.place.next, keyAllowed }

/-- A token that belongs to no mapping. -/
def outside? (token : Token) (place : Place) (s : Scan) : Option Scan := do
  let s ← s.close.refuse?
  return { s.emit token with place, keyAllowed := false }

/-- A question mark in front of a key. -/
def explicitKey? (s : Scan) : Option Scan := do
  if !s.flow ∧ !s.keyAllowed then none
  let (opened, keys) ← s.openAt? s.place.column
  let s ← s.refuse?
  return { s with settled := opened ++ s.settled, keys }.mark .key !s.flow

/-- The colon in front of a value. The key before it begins at the candidate, or else with a
question mark. -/
def colon? (s : Scan) : Option Scan :=
  match s.candidate with
  | some c => do
    let (opened, keys) ← s.openAt? c.column
    return { s with
      candidate := none
      held := []
      settled := s.held ++ (Token.key :: opened) ++ s.settled
      keys }.mark .value false
  | none => do
    if !s.flow ∧ !s.keyAllowed then none
    let (opened, keys) ← s.openAt? s.place.column
    return { s with held := opened ++ s.held, keys }.mark .value !s.flow

/-- A token of which `rest` is what is left, with which a key may begin. -/
def mayBegin? (token : Token) (rest : List Char) (s : Scan) : Option Scan := do
  let s ← s.begin?
  return (s.emit token).moveTo (s.place.upTo rest)

def plainScalar? (s : Scan) : Option Scan := do
  let s ← s.begin?
  let indent := (s.keys.map (· + 1)).getD 0
  let (text, place, broken) ← plain? s.flow indent s.place
  return { s.emit (.scalar .plain text) with place, keyAllowed := s.keyAllowed || broken }

def blockScalar? (style : Style) (s : Scan) : Option Scan := do
  let s ← s.refuse?
  let (text, place) ← block? s.keys s.place.next
  return { s.emit (.scalar style text) with place, keyAllowed := true }

/-- Whether a plain scalar may begin with `c`. -/
def beginsPlain (flow : Bool) (c : Char) (rest : List Char) : Bool :=
  if c = '-' then !atGap rest
  else if c = '?' || c = ':' then !flow && !atGap rest
  else !(isSpace c || isBreak c || flowIndicators.contains c ||
    (word "#&*!|>\x27\x22%@\x60").contains c)

/-- The token that begins with `c`. -/
def token? (c : Char) (rest : List Char) (s : Scan) : Option Scan :=
  if c = '%' ∧ s.place.column = 0 then do
    let (directive, after) ← directive? rest
    s.outside? (.directive directive) (← (s.place.upTo after).endLine?)
  else if s.place.atMarker '-' then s.outside? .documentStart (s.place.pass 3)
  else if s.place.atMarker '.' then s.outside? .documentEnd (s.place.pass 3)
  else if c = '\x7b' then do
    if s.flow ∨ s.keys.isSome then none
    let s ← s.refuse?
    return { s.mark .openBrace true with flow := true }
  else if c = '\x7d' then do
    if !s.flow then none
    let s ← s.refuse?
    return { s.mark .closeBrace false with flow := false }
  else if c = ',' then do
    if !s.flow then none
    let s ← s.refuse?
    return s.mark .comma true
  else if c = '?' ∧ (s.flow ∨ atGap rest) then s.explicitKey?
  else if c = ':' ∧ (s.flow ∨ atGap rest) then s.colon?
  else if c = '*' then do
    let (name, after) ← anchorName? rest
    s.mayBegin? (.reference name) after
  else if c = '&' then do
    let (name, after) ← anchorName? rest
    s.mayBegin? (.anchor name) after
  else if c = '!' then do
    let (tag, after) ← tag? s.flow rest
    s.mayBegin? (.tag tag) after
  else if c = '|' ∧ !s.flow then s.blockScalar? .literal
  else if c = '>' ∧ !s.flow then s.blockScalar? .other
  else if c = '\x27' then do
    let (text, after) ← singleQuoted? rest
    s.mayBegin? (.scalar .other text) after
  else if c = '\x22' then do
    let (text, after) ← doubleQuoted? rest
    s.mayBegin? (.scalar .other text) after
  else if beginsPlain s.flow c rest then s.plainScalar?
  else none

/-- The tokens of the text ahead after those that are there; at most `fuel` are read. -/
def run? : Nat → Scan → Option (List Token)
  | 0, _ => none
  | fuel + 1, s => do
    let s ← s.arrive?
    match s.place.rest with
    | [] => do
      let s ← s.close.refuse?
      return s.settled.reverse
    | c :: rest => run? fuel (← s.token? c rest)

end Scan

/-- The tokens of a text. Each of them takes at least one character. -/
def tokens? (text : List Char) : Option (List Token) :=
  Scan.run? (text.length + 1) { place := ⟨text, 0, 0⟩ }

end Polyphony.Yaml
