import Polyphony.Decimal.Reading

/-! A command is `compile`, `tokens` or `check`, with one input and its options. Arguments that fit
none of these have no reading. -/
namespace Polyphony.Command

/-- A dash stands for standard input. -/
inductive Input where
  | standard
  | file (path : String)
  deriving DecidableEq, Repr

def Input.ofArgument (argument : String) : Input :=
  if argument = "-" then .standard else .file argument

inductive TrackFormat where
  | text
  | json
  | yaml
  deriving DecidableEq, Repr

inductive TokenFormat where
  | debug
  | json
  deriving DecidableEq, Repr

structure CompileRequest where
  input : Input
  noteLength : Option Binary64
  config : Option String
  format : TrackFormat
  validate : Bool

inductive Request where
  | compile (request : CompileRequest)
  | tokens (input : Input) (format : TokenFormat)
  | check (input : Input) (config : Option String)

/-- An option by its long name, and its letter if it has one. -/
structure OptionName where
  long : String
  letter : Option Char
  takesValue : Bool
  deriving DecidableEq, Repr

def verbose : OptionName := ⟨"verbose", some 'v', false⟩
def noteLength : OptionName := ⟨"note-length", some 'n', true⟩
def config : OptionName := ⟨"config", some 'c', true⟩
def format : OptionName := ⟨"format", some 'f', true⟩
def noValidate : OptionName := ⟨"no-validate", none, false⟩

/-- Arguments sorted into options, with the value of those that take one, and the others. -/
structure Sorted where
  options : List (OptionName × String) := []
  inputs : List String := []

namespace Sorted

/-- Every option stands at most once. -/
def add? (option : OptionName) (value : String) (s : Sorted) : Option Sorted :=
  if s.options.any (·.1 = option) then none
  else some { s with options := (option, value) :: s.options }

def value? (s : Sorted) (option : OptionName) : Option String := s.options.lookup option

def has (s : Sorted) (option : OptionName) : Bool := (s.value? option).isSome

end Sorted

/-- A value of its own argument may not look like an option. -/
def looksLikeOption (argument : String) : Bool :=
  argument ≠ "-" && argument.startsWith "-"

/-- What an option needs from the arguments after it: its value if it takes one and has none
attached. The answer is the value and the arguments that are left. -/
def optionValue? (option : OptionName) (attached : Option String) (rest : List String) :
    Option (String × List String) :=
  match option.takesValue, attached, rest with
  | false, none, _ => some ("", rest)
  | false, some _, _ => none
  | true, some value, _ => some (value, rest)
  | true, none, value :: others => if looksLikeOption value then none else some (value, others)
  | true, none, [] => none

theorem length_optionValue? {option : OptionName} {attached : Option String}
    {rest others : List String} {value : String}
    (h : optionValue? option attached rest = some (value, others)) :
    others.length ≤ rest.length := by
  unfold optionValue? at h
  repeat' split at h
  all_goals simp_all

/-- The options of a cluster of letters, each with what is attached to it. A letter that takes a
value takes the rest of the cluster, with or without an equals sign. -/
def cluster? (known : List OptionName) : List Char → Option (List (OptionName × Option String))
  | [] => some []
  | letter :: rest => do
    let option ← known.find? (·.letter = some letter)
    if option.takesValue then
      let attached := match rest with
        | [] => none
        | '=' :: value => some (String.ofList value)
        | value => some (String.ofList value)
      return [(option, attached)]
    else return (option, none) :: (← cluster? known rest)

/-- The option of a long name, and the value after an equals sign. -/
def longOption? (known : List OptionName) (text : List Char) :
    Option (OptionName × Option String) := do
  let name := String.ofList (text.takeWhile (· ≠ '='))
  let option ← known.find? (·.long = name)
  return (option, (text.dropWhile (· ≠ '=')).tail?.map String.ofList)

/-- The options that one argument writes; nothing if it writes none. -/
def optionsOf? (known : List OptionName) (argument : String) :
    Option (List (OptionName × Option String)) :=
  match argument.toList with
  | '-' :: '-' :: text => (longOption? known text).map ([·])
  | '-' :: letters => cluster? known letters
  | _ => none

/-- Take the options of one argument; the last of them may need the argument after it. -/
def takeOptions? : List (OptionName × Option String) → List String → Sorted →
    Option (Sorted × List String)
  | [], rest, sorted => some (sorted, rest)
  | (option, attached) :: others, rest, sorted => do
    let (value, left) ← optionValue? option attached rest
    takeOptions? others left (← sorted.add? option value)

theorem length_takeOptions? {options : List (OptionName × Option String)}
    {rest left : List String} {sorted result : Sorted}
    (h : takeOptions? options rest sorted = some (result, left)) :
    left.length ≤ rest.length := by
  induction options generalizing rest sorted with
  | nil =>
      simp only [takeOptions?, Option.some.injEq, Prod.mk.injEq] at h
      exact h.2 ▸ Nat.le_refl _
  | cons first others ih =>
      simp only [takeOptions?, Option.bind_eq_bind, Option.bind_eq_some_iff] at h
      obtain ⟨⟨value, middle⟩, found, updated, _, after⟩ := h
      exact Nat.le_trans (ih after) (length_optionValue? found)

/-- Sort the arguments of a command. After `--` all of them are inputs. -/
def sort? (known : List OptionName) (sorted : Sorted) (arguments : List String) : Option Sorted :=
  match arguments with
  | [] => some sorted
  | "--" :: rest => some { sorted with inputs := sorted.inputs ++ rest }
  | argument :: rest =>
    if looksLikeOption argument then
      match optionsOf? known argument with
      | none => none
      | some options => match _ : takeOptions? options rest sorted with
        | none => none
        | some (next, left) => sort? known next left
    else sort? known { sorted with inputs := sorted.inputs ++ [argument] } rest
termination_by arguments.length
decreasing_by
  · exact Nat.lt_succ_of_le (length_takeOptions? (by assumption))
  · exact Nat.lt_succ_self _

/-- The one input of a command. -/
def Sorted.input? (s : Sorted) : Option Input :=
  match s.inputs with
  | [argument] => some (.ofArgument argument)
  | _ => none

/-- The value of an option that may be missing but must be readable. -/
def Sorted.read? {α : Type} (s : Sorted) (option : OptionName) (read : String → Option α) :
    Option (Option α) :=
  match s.value? option with
  | none => some none
  | some value => (read value).map some

def path? (value : String) : Option String := if value.isEmpty then none else some value

def trackFormat? (value : String) : Option TrackFormat :=
  [("text", .text), ("json", .json), ("yaml", .yaml)].lookup value

def tokenFormat? (value : String) : Option TokenFormat :=
  [("debug", .debug), ("json", .json)].lookup value

def compileRequest? (arguments : List String) : Option Request := do
  let s ← sort? [verbose, noteLength, config, format, noValidate] {} arguments
  return .compile {
    input := ← s.input?
    noteLength := ← s.read? noteLength fun value => Decimal.read? value.toList
    config := ← s.read? config path?
    format := (← s.read? format trackFormat?).getD .text
    validate := !s.has noValidate }

def tokensRequest? (arguments : List String) : Option Request := do
  let s ← sort? [verbose, format] {} arguments
  return .tokens (← s.input?) ((← s.read? format tokenFormat?).getD .debug)

def checkRequest? (arguments : List String) : Option Request := do
  let s ← sort? [verbose, config] {} arguments
  return .check (← s.input?) (← s.read? config path?)

def commands : List (String × (List String → Option Request)) :=
  [("compile", compileRequest?), ("tokens", tokensRequest?), ("check", checkRequest?)]

/-- Only `-v` may stand before the command, and only once. -/
def request? : List String → Option Request
  | [] => none
  | first :: rest =>
    if first = "-v" ∨ first = "--verbose" then
      match rest with
      | [] => none
      | command :: arguments => (commands.lookup command).bind (· arguments)
    else (commands.lookup first).bind (· rest)

end Polyphony.Command
