import ClassSymbols.CommandLine

/-!
# The program

Reads the file that the command line names, writes what the command gives to the standard output and
its diagnostics to the standard error. The exit code is 0 if there are no diagnostics, 1 if there
are or if the command came to no result, and 2 if the command line cannot be read.

## Main definitions

* `main` — the program.
-/

namespace ClassSymbols

/-- The text of a file, if it can be opened. Bytes that are no text stand for an empty text, which
is no symbol table either. -/
def readText (file : String) : IO (Option String) := do
  try
    let bytes ← IO.FS.readBinFile file
    return some ((String.fromUTF8? bytes).getD "")
  catch _ => return none

def perform (invocation : Invocation) : IO UInt32 := do
  match invocation.run (← readText invocation.file) with
  | .error error =>
    IO.eprintln error.describe
    return 1
  | .ok result =>
    unless result.output.isEmpty do IO.println result.output
    unless result.hasErrors do return 0
    let stderr ← IO.getStderr
    IO.eprintln (invocation.report (← stderr.isTty) result.diagnostics)
    return 1

end ClassSymbols

def main (words : List String) : IO UInt32 := do
  match ClassSymbols.Invocation.ofWords words with
  | .error message =>
    IO.eprintln ("error: " ++ message ++ "\n\n" ++ ClassSymbols.usage)
    return 2
  | .ok invocation => ClassSymbols.perform invocation
