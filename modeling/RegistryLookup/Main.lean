import RegistryLookup.CommandLine.Run

/-!
# The program

Reads the configuration file, answers the command line and prints. The program has no network
of its own: no registry can be reached from it.
-/

namespace RegistryLookup.Main

/-- What a fault of the system says of a file. -/
def fileFault : IO.Error → Config.FileFault
  | .noFileOrDirectory .. => .missing
  | .inappropriateType .. => .isDirectory
  | e => .other (toString e)

/-- The file at a path. -/
def readFile (path : String) : IO Config.File := do
  try
    let bytes ← IO.FS.readBinFile path
    return .ok bytes.toList
  catch e => return .error (fileFault e)

/-- Answer a command line from the files of the system. -/
def answer (args : List String) : IO CommandLine.Report := do
  match CommandLine.parse args with
  | .help => return CommandLine.helpReport
  | .wrong => return CommandLine.wrongReport
  | .run arguments =>
    let file ← readFile arguments.config
    return CommandLine.run arguments file .isolated

end RegistryLookup.Main

def main (args : List String) : IO UInt32 := do
  let report ← RegistryLookup.Main.answer args
  IO.print report.out
  IO.eprint report.err
  return UInt32.ofNat report.code
