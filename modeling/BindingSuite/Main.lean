import BindingSuite.CommandLine.Run

/-! # The program

The outer layer: it takes the words of the command line, writes the files and prints. -/

namespace BindingSuite.CommandLine

/-- The directory part of a path. -/
def directoryOf (path : String) : String :=
  "/".intercalate (path.splitOn "/").dropLast

/-- Writes a file, in a directory that is made if it is not there. -/
def writeFile (path text : String) : IO Unit := do
  let directory := directoryOf path
  if directory ≠ "" then IO.FS.createDirAll directory
  IO.FS.writeFile path text

/-- Does what a command line asks for on a usual host, and gives the exit code. -/
def execute (words : List String) : IO UInt32 := do
  let outcome := match run Host.usual words with
    | .ok outcome => outcome
    | .error failure => complain 1 failure.message
  outcome.files.forM fun (path, text) => writeFile path text
  (← IO.getStdout).putStr outcome.output
  (← IO.getStderr).putStr outcome.errors
  return outcome.exitCode.toUInt32

end BindingSuite.CommandLine

/-- Does what the command line asks for. -/
def main (words : List String) : IO UInt32 :=
  BindingSuite.CommandLine.execute words
