import ChainKeys.Command.Arguments
import ChainKeys.Command.Run

/-!
The command line: reads the home directory, runs one command over it, and writes out what the
command leaves behind.
-/

namespace ChainKeys.Command

def usage : String := "Usage: keystone [OPTIONS] <COMMAND>"

/-- The directory that was named, or the one for this program in the user's own. -/
def homeName (o : Options) : IO String := do
  match o.home with
  | some name => pure name
  | none =>
    match ← IO.getEnv "HOME" with
    | some dir => pure (if dir = "" then ".keystone" else dir ++ "/.keystone")
    | none => pure ".keystone"

def readHome (name : String) : IO Home := do
  try
    pure (.directory (some (← IO.FS.readFile (Place.mk name .missing).file)))
  catch
    | .noFileOrDirectory .. => pure .missing
    | e => throw e

def writeHome (name : String) (before after : Home) : IO Unit := do
  if before ≠ after then
    IO.FS.createDirAll name
    match after.file? with
    | some text => IO.FS.writeFile (Place.mk name after).file text
    | none => pure ()

/-- This program opens no connections. -/
def unreachable (_ : QueryPlan) : Except ProvenQuery.Error ProvenQuery.Value :=
  .error (.transport (.http "error sending request"))

def runIn (i : Invocation) : IO UInt32 := do
  let name ← homeName i.options
  let home ← readHome name
  let r := i.run unreachable ⟨name, home⟩
  writeHome name home r.home
  for line in r.lines do
    IO.println line
  match r.failure with
  | none => pure 0
  | some e =>
    IO.eprintln ("Error: " ++ e.message)
    pure 1

end ChainKeys.Command

open ChainKeys.Command

def main (args : List String) : IO UInt32 := do
  match parse args with
  | .ok i => runIn i
  | .error .version =>
    IO.println programName
    pure 0
  | .error .help =>
    IO.println usage
    pure 0
  | .error .misuse =>
    IO.eprintln usage
    pure 2
