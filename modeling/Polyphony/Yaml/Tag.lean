import Polyphony.Yaml.Place

/-! Names, tags and directives. -/
namespace Polyphony.Yaml

def isNameChar (c : Char) : Bool := c.isAlphanum || c = '_' || c = '-'

/-- The name of an anchor, and the text after it. -/
def anchorName? (text : List Char) : Option (List Char × List Char) :=
  let name := text.takeWhile isNameChar
  let after := text.drop name.length
  if !name.isEmpty ∧ (atGap after ∨ after.head?.any (word "?:,]\x7d%@\x60").contains)
  then some (name, after) else none

/-- How many octets follow a leading octet of UTF-8. -/
def followers? (octet : Nat) : Option Nat :=
  if octet < 0x80 then some 0
  else if octet / 0x20 = 6 then some 1
  else if octet / 0x10 = 14 then some 2
  else if octet / 0x08 = 30 then some 3
  else none

/-- The characters that a tag is made of, and the text after them. An octet may be written as two
hexadecimal digits after a percent sign; `due` is how many octets must still follow such a one. -/
def tagText? (extra : List Char) (due : Nat) : List Char → Option (List Char × List Char)
  | '%' :: a :: b :: rest => do
    let octet ← digits? 16 [a, b]
    let due ← match due with
      | 0 => followers? octet
      | due + 1 => if octet / 0x40 = 2 then some due else none
    let (text, after) ← tagText? extra due rest
    return (.ofNat octet :: text, after)
  | c :: rest =>
    if due ≠ 0 ∨ c = '%' then none
    else if isNameChar c ∨ (word ";/?:@&=+$.!~*\x27()").contains c ∨ extra.contains c then do
      let (text, after) ← tagText? extra 0 rest
      return (c :: text, after)
    else some ([], c :: rest)
  | [] => if due = 0 then some ([], []) else none

/-- A tag text of at least one character. A zero octet ends what counts of it. -/
def tagPart? (extra : List Char) (text : List Char) : Option (List Char × List Char) := do
  let (part, after) ← tagText? extra 0 text
  if part.isEmpty then none else return (part.takeWhile (· ≠ '\x00'), after)

/-- A tag as written: a handle, empty for a tag in full, and what follows it. -/
structure Tag where
  handle : List Char
  suffix : List Char
  deriving DecidableEq, Repr

/-- The tag after its exclamation mark, and the text after the tag. -/
def tag? (flow : Bool) (text : List Char) : Option (Tag × List Char) := do
  let name := text.takeWhile isNameChar
  let (tag, after) ← match text, text.drop name.length with
    | '<' :: rest, _ => do
      match ← tagPart? (word ",[]") rest with
      | (suffix, '>' :: after) => some (⟨[], suffix⟩, after)
      | _ => none
    | _, '!' :: rest => do
      let (suffix, after) ← tagPart? [] rest
      some (⟨'!' :: name ++ ['!'], suffix⟩, after)
    | _, _ => do
      let (part, after) ← tagText? [] 0 text
      let suffix := part.takeWhile (· ≠ '\x00')
      some (if suffix.isEmpty then ⟨[], ['!']⟩ else ⟨['!'], suffix⟩, after)
  if atGap after ∨ (flow ∧ after.head? = some ',') then return (tag, after) else none

/-- What handles stand for where no directive says otherwise. -/
def standardHandles : List (List Char × List Char) :=
  [(['!'], ['!']), (['!', '!'], coreTags)]

def Tag.full? (handles : List (List Char × List Char)) (t : Tag) : Option (List Char) :=
  if t.handle.isEmpty then some t.suffix
  else (handles.lookup t.handle).map (· ++ t.suffix)

inductive Directive where
  | version
  | handle (name meaning : List Char)
  deriving DecidableEq, Repr

/-- A number of at most nine digits, and the text after it. -/
def shortNumber? (text : List Char) : Option (Nat × List Char) := do
  let digits := text.takeWhile Char.isDigit
  if 9 < digits.length then none
  else return (← digits? 10 digits, text.drop digits.length)

/-- The versions 1.1 and 1.2 are known. -/
def version? (text : List Char) : Option (Directive × List Char) := do
  match ← shortNumber? text with
  | (1, '.' :: rest) => do
    let (minor, after) ← shortNumber? rest
    if minor = 1 ∨ minor = 2 then return (.version, after) else none
  | _ => none

/-- A handle between exclamation marks, or a single one, and what it stands for. -/
def handle? (text : List Char) : Option (Directive × List Char) := do
  let '!' :: rest := text | none
  let name := rest.takeWhile isNameChar
  let (handle, after) ← match name, rest.drop name.length with
    | _, '!' :: after => some ('!' :: name ++ ['!'], after)
    | [], after => some (['!'], after)
    | _, _ => none
  if !after.head?.any isSpace then none
  let (meaning, last) ← tagPart? (word ",[]") (after.dropWhile isSpace)
  if atGap last then return (.handle handle meaning, last) else none

/-- The directive after its percent sign, and the text after it. -/
def directive? (text : List Char) : Option (Directive × List Char) :=
  let name := text.takeWhile isNameChar
  let after := text.drop name.length
  let body := after.dropWhile isSpace
  if !atGap after then none
  else if name = word "YAML" then version? body
  else if name = word "TAG" then handle? body
  else none

end Polyphony.Yaml
