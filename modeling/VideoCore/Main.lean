import VideoCore.CommandLine.Run

namespace VideoCore

/-!
# The program

Reads the arguments, the environment and the file, and writes what a run
printed.
-/

/-- How the program is used. -/
def usage : String :=
  "usage: videocore [-h] [--no-registers] [--no-areas] [-x] input\n"

/-- What the flags are for. -/
def help : String :=
  usage ++
    "\nDecode a VC4 GPU hang state dump\n\n" ++
    "  -h, --help      show this text and stop\n" ++
    "  --no-registers  do not print the register summary\n" ++
    "  --no-areas      only decode the bin and render lists\n" ++
    "  -x, --hexdump   hexdump every decoded area\n"

/-- The reason why a file cannot be read. -/
def fileFaultOf : IO.Error → FileFault
  | .noFileOrDirectory .. => .missing
  | .permissionDenied .. => .denied
  | .inappropriateType _ code _ => if code = 21 then .directory else .folderless
  | error => .other 5 (toString error)

/-- Read a file. -/
def readContents (path : String) : IO (Except FileFault Bytes) := do
  try
    let contents ← IO.FS.readBinFile path
    return .ok contents.toList
  catch error =>
    return .error (fileFaultOf error)

/-- Write what a run printed; the status of a run that failed is one. -/
def report (finished : Finished) : IO UInt32 := do
  IO.print finished.printed.listing
  IO.eprint finished.printed.messages
  match finished.outcome with
  | .ok status => return status.toUInt32
  | .error fault =>
      IO.eprintln (fault.message?.getD "the snapshot cannot be dumped")
      return 1

/-- Dump the snapshot that the arguments name. -/
def runProgram (texts : List String) : IO UInt32 := do
  let noAreas ← IO.getEnv Arguments.noAreasVariable
  let hexdump ← IO.getEnv Arguments.hexdumpVariable
  match Arguments.parse (Arguments.defaultsOf noAreas hexdump) texts with
  | .help =>
      IO.print help
      return 0
  | .misuse =>
      IO.eprint usage
      return 2
  | .invocation invocation =>
      let contents ← readContents invocation.path
      report (invocation.finish contents)

end VideoCore

/-- The entry point of the program. -/
def main (texts : List String) : IO UInt32 :=
  VideoCore.runProgram texts
