import Polyphony.Yaml.Node

/-! A YAML document that is one mapping from scalars to scalars, in block or flow form. Text that is
no such document, or more than one document, has no reading. -/
namespace Polyphony.Yaml

/-- The handles that the directives in front of a document give, and the tokens after them. The
version may be given once, and each handle. -/
def directives? (versioned : Bool) (handles : Handles) : List Token → Option (Handles × List Token)
  | .directive .version :: rest => if versioned then none else directives? true handles rest
  | .directive (.handle name meaning) :: rest =>
    if handles.any (·.1 = name) then none
    else directives? versioned ((name, meaning) :: handles) rest
  | rest => some (handles ++ standardHandles, rest)

/-- Whether a document has no content after its start. -/
def atDocumentEnd : List Token → Bool
  | [] => true
  | .directive _ :: _ => true
  | .documentStart :: _ => true
  | .documentEnd :: _ => true
  | _ => false

/-- The entries of a document's content, and the tokens after it. Properties without a mapping
after them stand for no entries. -/
def content? (handles : Handles) (tokens : List Token) : Option (List Entry × List Token) := do
  let (p, rest) ← properties? handles tokens
  let (entries, after) ← match rest with
    | .mappingStart :: rest => blockEntries? handles rest.length rest
    | .openBrace :: rest => flowEntries? handles rest.length rest
    | _ => if p.isEmpty then none else some ([], rest)
  let anchors := match p.anchor with
    | none => {}
    | some name => Anchors.add name none {}
  return (← resolve? anchors entries, after)

/-- The entries of the only document. Directives call for a start marker. -/
def document? (tokens : List Token) : Option (List Entry) := do
  if tokens.isEmpty then return []
  let (handles, rest) ← directives? false [] tokens
  let (entries, after) ← match rest with
    | .documentStart :: rest =>
      if atDocumentEnd rest then some ([], rest) else content? handles rest
    | _ => if rest.length = tokens.length then content? handles rest else none
  if after.all (· = .documentEnd) then return entries else none

/-- The entries of the one mapping that a text holds; a text without content holds none. -/
def readFlat? (text : List Char) : Option (List Entry) := do
  if text.all isAllowed then document? (← tokens? (newlines text)) else none

end Polyphony.Yaml
