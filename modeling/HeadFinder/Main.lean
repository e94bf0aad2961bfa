import HeadFinder.CommandLine.Run
import HeadFinder.Subversion.Recording

/-! # The command

The words of the command line come from the shell, the preferences from a file,
and the answers of the client program from a recording on standard input.
-/
namespace HeadFinder

/-- The folder of the preferences. -/
def preferencesFolder : IO String := do
  let home := (← IO.getEnv "HOME").getD ""
  return (← IO.getEnv "XDG_CONFIG_HOME").getD (home ++ "/.config") ++ "/branchscan"

/-- The bytes of a file, if it can be read. -/
def readBytes? (path : String) : IO (Option (List UInt8)) := do
  try
    return some (← IO.FS.readBinFile path).toList
  catch _ =>
    return none

/-- Tells what a run shows, and gives its exit status. -/
def tell (outcome : CommandLine.Outcome) : IO UInt32 := do
  IO.print outcome.output
  IO.eprint outcome.diagnostics
  match outcome.exit with
  | .success => return 0
  | .status code => return code.toUInt32
  | .complaint text =>
    IO.eprintln text
    return 1
  | .broken failure =>
    IO.eprintln failure.message
    return 1

end HeadFinder

open HeadFinder in
/-- The command. -/
def main (words : List String) : IO UInt32 := do
  let input ← (← IO.getStdin).readToEnd
  let folder ← preferencesFolder
  let file := folder ++ "/config.json"
  let stored ← readBytes? file
  let terminal ← (← IO.getStdout).isTty
  let desk : CommandLine.Desk Subversion.Transcript := ⟨.ofRecording input, stored⟩
  let (outcome, desk) := CommandLine.run Subversion.Transcript.run terminal words desk
  if desk.preferences ≠ stored then
    IO.FS.createDirAll folder
    IO.FS.writeBinFile file ⟨(desk.preferences.getD []).toArray⟩
  tell outcome
