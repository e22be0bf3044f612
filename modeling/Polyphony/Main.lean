import Polyphony.Command.Run

/-! The program: a command run on the real file system. -/
namespace Polyphony.Command

def readFault : IO.Error → ReadFault
  | .noFileOrDirectory .. => .missing
  | .permissionDenied .. => .denied
  | .inappropriateType _ 20 _ => .notDirectory
  | .inappropriateType .. => .isDirectory
  | error => .other (toString error)

def system : World IO where
  fileBytes path := do
    try return .ok (← IO.FS.readBinFile path)
    catch error => return .error (readFault error)
  standardBytes := do
    try return .ok (← (← IO.getStdin).readBinToEnd)
    catch error => return .error (readFault error)

end Polyphony.Command

def main (arguments : List String) : IO UInt32 := do
  let outcome ← Polyphony.Command.run Polyphony.Command.system arguments
  IO.print outcome.stdout
  IO.eprint outcome.stderr
  return outcome.exit.toUInt32
