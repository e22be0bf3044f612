import Polyphony.Yaml.Token

/-! A scalar in its place: written there, perhaps under an anchor, or a reference to an anchor. -/
namespace Polyphony.Yaml

inductive Node where
  | written (anchor : Option (List Char)) (scalar : Scalar)
  | reference (anchor : List Char)
  deriving DecidableEq, Repr

abbrev Handles := List (List Char × List Char)

/-- Where no scalar is written. -/
def Node.empty : Node := .written none { text := [] }

/-- What may stand in front of a scalar or of a whole mapping. -/
structure Properties where
  anchor : Option (List Char) := none
  tag : Option (List Char) := none

def Properties.isEmpty (p : Properties) : Bool := p.anchor.isNone && p.tag.isNone

/-- An anchor and a tag, each at most once and in either order, and the tokens after them. -/
def properties? (handles : Handles) : List Token → Option (Properties × List Token)
  | .anchor name :: .tag tag :: rest
  | .tag tag :: .anchor name :: rest => do
    return ({ anchor := name, tag := ← tag.full? handles }, rest)
  | .anchor name :: rest => some ({ anchor := name }, rest)
  | .tag tag :: rest => do return ({ tag := ← tag.full? handles }, rest)
  | rest => some ({}, rest)

/-- The node that begins a list of tokens, and the tokens after it. Properties may stand alone. -/
def node? (handles : Handles) : List Token → Option (Node × List Token)
  | .reference name :: rest => some (.reference name, rest)
  | tokens => do
    match ← properties? handles tokens with
    | (p, .scalar style text :: rest) =>
      return (.written p.anchor { text, style, tag := p.tag }, rest)
    | (p, rest) =>
      if p.isEmpty then none else return (.written p.anchor { text := [], tag := p.tag }, rest)

/-- A node that is left out where one of `ends` comes instead. -/
def nodeBefore? (handles : Handles) (ends : List Token) (tokens : List Token) :
    Option (Node × List Token) :=
  if tokens.head?.any ends.contains then some (.empty, tokens) else node? handles tokens

/-- A key after its mark, and the value, which is left out where no colon stands before it. -/
def entry? (handles : Handles) (ends valueEnds : List Token) (tokens : List Token) :
    Option ((Node × Node) × List Token) := do
  let (key, after) ← nodeBefore? handles ends tokens
  match after with
  | .value :: rest => do
    let (value, last) ← nodeBefore? handles valueEnds rest
    return ((key, value), last)
  | _ => return ((key, .empty), after)

/-- The entries of a block mapping after its start, and the tokens after its end. At most `fuel`
entries are read. -/
def blockEntries? (handles : Handles) : Nat → List Token → Option (List (Node × Node) × List Token)
  | _, .mappingEnd :: rest => some ([], rest)
  | fuel + 1, .key :: rest => do
    let ends := [.key, .value, .mappingEnd]
    let (entry, after) ← entry? handles ends ends rest
    let (entries, last) ← blockEntries? handles fuel after
    return (entry :: entries, last)
  | _, _ => none

/-- The entries of a mapping after its opening brace, and the tokens after the closing one. An entry
without a colon is a key alone. At most `fuel` entries are read. -/
def flowEntries? (handles : Handles) : Nat → List Token → Option (List (Node × Node) × List Token)
  | _, .closeBrace :: rest => some ([], rest)
  | 0, _ => none
  | fuel + 1, tokens => do
    let (entry, after) ← match tokens with
      | .key :: rest => entry? handles [.value, .comma, .closeBrace] [.comma, .closeBrace] rest
      | _ => (node? handles tokens).map fun (key, after) => ((key, .empty), after)
    match after with
    | .comma :: rest => do
      let (entries, last) ← flowEntries? handles fuel rest
      return (entry :: entries, last)
    | .closeBrace :: rest => return ([entry], rest)
    | _ => none

/-- Anchors are numbered. A name takes the count of names before it, also when it is given again;
the scalar of a number is the last one that took it. A whole mapping has no scalar. -/
structure Anchors where
  numbers : List (List Char × Nat) := []
  scalars : List (Nat × Option Scalar) := []

def Anchors.add (name : List Char) (scalar : Option Scalar) (a : Anchors) : Anchors where
  numbers := (name, a.numbers.length) :: a.numbers.filter (·.1 ≠ name)
  scalars := (a.numbers.length, scalar) :: a.scalars

/-- A scalar, or the number of one. -/
inductive Target where
  | scalar (scalar : Scalar)
  | number (number : Nat)

def Target.scalar? (a : Anchors) : Target → Option Scalar
  | .scalar s => some s
  | .number n => (a.scalars.lookup n).join

/-- What a node stands for, and the anchors after it. A reference is to a name already given. -/
def Node.target? (a : Anchors) : Node → Option (Target × Anchors)
  | .written none s => some (.scalar s, a)
  | .written (some name) s => some (.scalar s, a.add name s)
  | .reference name => (a.numbers.lookup name).map fun n => (.number n, a)

def targets? (a : Anchors) : List (Node × Node) → Option (List (Target × Target) × Anchors)
  | [] => some ([], a)
  | (key, value) :: rest => do
    let (key, a) ← key.target? a
    let (value, a) ← value.target? a
    let (targets, a) ← targets? a rest
    return ((key, value) :: targets, a)

abbrev Entry := Scalar × Scalar

/-- The entries with scalars for references, once all anchors are known. -/
def resolve? (a : Anchors) (entries : List (Node × Node)) : Option (List Entry) := do
  let (targets, a) ← targets? a entries
  targets.mapM fun (key, value) => do return (← key.scalar? a, ← value.scalar? a)

end Polyphony.Yaml
