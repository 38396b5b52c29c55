import Landscape.CommandLine.Run

/-!
The command on the file system.
-/

namespace Landscape

/-- The reason for a failed reading, from the error of the system. -/
def FileFault.ofSystem : IO.Error → FileFault
  | .noFileOrDirectory .. => .missing
  | .inappropriateType _ code _ => if code = 21 then .isDirectory else .notDirectory
  | .permissionDenied _ code details =>
    .other (details ++ " (os error " ++ toString code ++ ")")
  | e => .other (toString e)

/-- The contents of a file of the file system. -/
def readSystemFile (path : String) : IO FileContents := do
  try
    return .ok (← IO.FS.readBinFile path).toList
  catch e =>
    return .error (.ofSystem e)

end Landscape

open Landscape in
def main (arguments : List String) : IO UInt32 := do
  let report ← runCommand readSystemFile arguments
  (← IO.getStdout).putStr (Report.printed report.output)
  (← IO.getStderr).putStr (Report.printed report.errors)
  return report.status.toUInt32
