import Polyphony.Command.Arguments
import Polyphony.Config
import Polyphony.Report.Data
import Polyphony.Report.Dump
import Polyphony.Report.Table

/-! A command sees the outside only through a `World`, which reads files and standard input. What it
prints and its exit status are its outcome. The lines of its log, which go to standard error, are
left out. -/
namespace Polyphony.Command

inductive ReadFault where
  | missing
  | isDirectory
  | notDirectory
  | denied
  | notText
  | other (text : String)
  deriving DecidableEq, Repr

def ReadFault.message : ReadFault → String
  | .missing => "No such file or directory (os error 2)"
  | .isDirectory => "Is a directory (os error 21)"
  | .notDirectory => "Not a directory (os error 20)"
  | .denied => "Permission denied (os error 13)"
  | .notText => "stream did not contain valid UTF-8"
  | .other text => text

structure World (m : Type → Type) where
  fileBytes : String → m (Except ReadFault ByteArray)
  standardBytes : m (Except ReadFault ByteArray)
  /-- The build of the program that runs. -/
  build : Build := .checked

/-- Why a command has no result. -/
inductive Failure where
  /-- What went wrong, under what the command was doing at the time. -/
  | reported (context : Option String) (cause : String)
  /-- The arithmetic of a checked build has ended the program. -/
  | ended
  deriving DecidableEq, Repr

structure Outcome where
  exit : Nat
  stdout : String
  stderr : String
  deriving DecidableEq, Repr

/-- What the runtime writes when it ends the program is left out. -/
def Failure.outcome : Failure → Outcome
  | .reported none cause => ⟨1, "", "Error: " ++ cause ++ "\n"⟩
  | .reported (some context) cause =>
    ⟨1, "", "Error: " ++ context ++ "\n\nCaused by:\n    " ++ cause ++ "\n"⟩
  | .ended => ⟨101, "", ""⟩

def utf8Text (bytes : Except ReadFault ByteArray) : Except ReadFault String :=
  match bytes with
  | .error fault => .error fault
  | .ok bytes => match String.fromUTF8? bytes with
    | some text => .ok text
    | none => .error .notText

def under {α : Type} (context : String) (message : String) : Except Failure α :=
  .error (.reported (some context) message)

/-- A text that was read, or a failure that says what could not be read. -/
def readUnder (context : String) (bytes : Except ReadFault ByteArray) : Except Failure String :=
  match utf8Text bytes with
  | .ok text => .ok text
  | .error fault => under context fault.message

variable {m : Type → Type} [Monad m]

def readInput (world : World m) : Input → ExceptT Failure m String
  | .standard => do return ← readUnder "Error reading stdin" (← world.standardBytes)
  | .file path => do
    return ← readUnder ("Error reading file '" ++ path ++ "'") (← world.fileBytes path)

def loadConfig (world : World m) : Option String → ExceptT Failure m Config
  | none => return {}
  | some path => do
    let text ← readUnder ("Error reading config '" ++ path ++ "'") (← world.fileBytes path)
    match Config.read text with
    | .ok config => return config
    | .error error => under ("Error loading config '" ++ path ++ "'") error.message

/-- Compile with the settings, and check the tracks if the settings say so. -/
def compileWith (build : Build) (config : Config) (source : String) :
    Except Failure (List Timeline.Track) :=
  match compile { config.options with build } source with
  | .error (.schedule (.overflow _)) => .error .ended
  | .error error => under "Compilation error" error.message
  | .ok tracks =>
    if config.validate then
      match checkPlayable tracks with
      | .error error => under "Validation failed" error.message
      | .ok () => .ok tracks
    else .ok tracks

/-- Arguments win over the settings file, and that over the defaults. -/
def CompileRequest.override (r : CompileRequest) (config : Config) : Config where
  options := { config.options with
    noteLength := r.noteLength.getD config.options.noteLength }
  validate := config.validate && r.validate

def Request.run (world : World m) : Request → ExceptT Failure m String
  | .compile r => do
    let config ← loadConfig world r.config
    let source ← readInput world r.input
    let tracks ← compileWith world.build (r.override config) source
    return match r.format with
      | .text => Report.table tracks
      | .json => Report.json tracks
      | .yaml => Report.yaml tracks
  | .tokens input format => do
    let source ← readInput world input
    match Score.lex (Score.normalise source.toList) with
    | .error error => throw (.reported none error.message)
    | .ok fragments => return match format with
      | .debug => Report.tokens fragments
      | .json => Report.tokensJson fragments
  | .check input path => do
    let config ← loadConfig world path
    let source ← readInput world input
    let tracks ← compileWith world.build { config with validate := true } source
    let events := (tracks.flatMap (·.events)).length
    return "ok: " ++ toString tracks.length ++ " tracks, " ++ toString events ++ " events\n"

/-- Arguments without a reading end with status 2. -/
def run (world : World m) (arguments : List String) : m Outcome :=
  match request? arguments with
  | none => return ⟨2, "", ""⟩
  | some request => do
    match ← (request.run world).run with
    | .ok stdout => return ⟨0, stdout, ""⟩
    | .error failure => return failure.outcome

end Polyphony.Command
