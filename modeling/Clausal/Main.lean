/-
The command: reads formulas and prints their conjunctive normal forms.
-/
import Clausal.CommandLine.Report

namespace Clausal.CommandLine

/-- The bytes of a file, if it can be read. -/
def fileContent (path : String) : IO (Option ByteArray) := do
  try
    return some (← IO.FS.readBinFile path)
  catch _ =>
    return none

/-- The bytes of the standard input up to its end. -/
def inputContent : IO (Option ByteArray) := do
  try
    return some (← (← IO.getStdin).readBinToEnd)
  catch _ =>
    return none

/-- The files and the standard input of the running process. -/
def processEnvironment : Environment IO := ⟨fileContent, inputContent⟩

end Clausal.CommandLine

open Clausal.CommandLine in
/-- Runs the command on the arguments of the process. -/
def main (words : List String) : IO UInt32 := do
  let response ← respond processEnvironment words
  for line in response.lines do
    IO.println line
  for complaint in response.complaints do
    IO.eprintln ("error: " ++ complaint)
  return response.status.toUInt32
