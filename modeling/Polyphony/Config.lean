import Polyphony.Compile
import Polyphony.Yaml.Flat

/-! Settings kept in a YAML file. -/
namespace Polyphony

structure Config where
  options : Options := {}
  /-- Whether compiled tracks are checked for range. -/
  validate : Bool := true
  deriving DecidableEq

namespace Config

inductive Error where
  | unreadable
  | options (error : Polyphony.Error)
  deriving DecidableEq

def Error.message : Error → String
  | .unreadable => "Invalid configuration: not a mapping of known settings"
  | .options error => error.message

/-- A setting of one kind of value, if its key is there and its value is not left out. -/
def setting? {α : Type} (entries : List Yaml.Entry) (key kind : String)
    (read : List Char → Option α) : Option (Option α) :=
  match entries.find? fun entry => entry.1.text = key.toList with
  | none => some none
  | some (_, value) => do
    match ← value.present? with
    | none => return none
    | some s => return some (← read (← s.textAs? kind))

/-- An integer of 32 bits. -/
def int32? (text : List Char) : Option Int32 :=
  ((Yaml.int? text).filter fun n => -Int.pow 2 31 ≤ n && n < Int.pow 2 31).map Int32.ofInt

def keys : List String := ["note-length", "root-note", "validate"]

/-- Every key is known and stands once. -/
def keysFit (entries : List Yaml.Entry) : Bool :=
  let found := entries.map (·.1.text)
  found.all (keys.map String.toList).contains && decide found.Nodup

def ofEntries? (entries : List Yaml.Entry) : Option Config := do
  if !keysFit entries then none
  let noteLength ← setting? entries "note-length" "float" Yaml.float?
  let rootNote ← setting? entries "root-note" "int" int32?
  let validate ← setting? entries "validate" "bool" Yaml.bool?
  return {
    options := {
      noteLength := noteLength.getD 1
      rootNote := rootNote.getD Keyboard.rootNote }
    validate := validate.getD true }

/-- The settings of a text, with defaults for all that it leaves out. -/
def read (text : String) : Except Error Config :=
  if text.toList.all Text.isBlank then .ok {}
  else match (Yaml.readFlat? text.toList).bind ofEntries? with
    | none => .error .unreadable
    | some config => match config.options.check with
      | .error error => .error (.options error)
      | .ok () => .ok config

end Config
end Polyphony
