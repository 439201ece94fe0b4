import FoldedIni.Command.Run

/-!
# The program

The outer layer: it looks up the settings file that the command line names, runs
the program, and writes the two streams.
-/

set_option autoImplicit false

namespace FoldedIni

/-- What the file system has under a path. A directory can be opened but not read. -/
def Found.onDisk (path : String) : IO Found := do
  match ← (IO.FS.Handle.mk path .read).toBaseIO with
  | .error (.noFileOrDirectory _ _ _) => return .nothing
  | .error (.inappropriateType _ _ _) => return .belowFile
  | .error e => throw e
  | .ok handle =>
    match ← handle.readBinToEnd.toBaseIO with
    | .error (.inappropriateType _ _ _) => return .directory
    | .error e => throw e
    | .ok content => return .file content.toList

namespace Command

def Fault.message : Fault → String
  | .settings .directory => "the settings file is a directory"
  | .settings .belowFile => "the path of the settings file leads through a file"
  | .settings .notText => "the settings file is not UTF-8"
  | .settings _ => "the settings file cannot be turned into settings"
  | .markup => "a text to be shown ends a style that it has not begun"
  | .style => "a text to be shown names a style that cannot be drawn"
  | .unencodable => "half a character stands in the terminator"
  | .store _ => "the lines cannot be used"

end Command

end FoldedIni

/-- Runs the program on the words of the command line. -/
def main (words : List String) : IO UInt32 := do
  let found ← match FoldedIni.Command.settingsPath? words with
    | none => pure FoldedIni.Found.nothing
    | some path => FoldedIni.Found.onDisk (FoldedIni.Path.plain path)
  let result := FoldedIni.Command.run (fun _ => found) words
  match result with
  | .ok outcome =>
    (← IO.getStdout).putStr outcome.out
    (← IO.getStderr).putStr outcome.err
  | .error fault =>
    (← IO.getStderr).putStr (FoldedIni.Command.programName ++ ": " ++ fault.message ++ "\n")
  return (FoldedIni.Command.exitStatus result).toUInt32
