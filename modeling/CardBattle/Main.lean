import CardBattle.CommandLine

/-!
# CardBattle.Main

The program: reads the arguments and the data files, plays the battle and tells how it went.
-/

open CardBattle

/-- The content of a file, if it can be read. -/
def readContent (directory name : String) : IO (Option String) := do
  try
    let content ← IO.FS.readFile (directory ++ "/" ++ name)
    return some content
  catch _ =>
    return none

def readFiles (data : Option String) : IO CommandLine.Files := do
  match data with
  | none => return { settings := none, tables := none }
  | some directory =>
    let settings ← readContent directory "config.toml"
    let tables ← readContent directory "tables.ron"
    return { settings, tables }

def failureText : CommandLine.Failure → String
  | .load .unreadable => "a data file cannot be read"
  | .load .malformed => "a data file is malformed"
  | .setup fault => Fault.message fault
  | .rejected (.play fault) => Fault.message fault
  | .rejected (.turn fault) => Fault.message fault

def main (arguments : List String) : IO UInt32 := do
  match CommandLine.Arguments.read arguments with
  | .error fault =>
    IO.eprintln (fault.message?.getD "bad arguments")
    return 2
  | .ok a =>
    let files ← readFiles a.data
    match CommandLine.simulate a files with
    | .error failure =>
      IO.eprintln (failureText failure)
      return 1
    | .ok summary =>
      IO.eprintln (summary.headline ++ " " ++ summary.text)
      return 0
