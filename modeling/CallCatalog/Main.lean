import CallCatalog.CommandLine.Run

namespace CallCatalog.CommandLine

def fileFault : IO.Error → String
  | .noFileOrDirectory .. => "No such file or directory (os error 2)"
  | .permissionDenied .. => "Permission denied (os error 13)"
  | .inappropriateType .. => "Is a directory (os error 21)"
  | e => toString e

def readText (path : String) : IO (Except String String) := do
  match ← (IO.FS.readBinFile path).toBaseIO with
  | .error e => return .error (fileFault e)
  | .ok bytes =>
    match Json.textOfBytes? bytes.toList with
    | some text => return .ok text
    | none => return .error "stream did not contain valid UTF-8"

end CallCatalog.CommandLine

open CallCatalog.CommandLine in
def main (arguments : List String) : IO UInt32 := do
  let some outcome ← run? readText arguments | throw (IO.userError "the run does not end")
  IO.print outcome.stdout
  IO.eprint outcome.stderr
  return outcome.exitCode.toUInt32
