import Lookahead.CommandLine

/-!
# Main — the command line program

Reads the grammar file and the arguments, and writes what the run writes. All else is in
`CommandLine`.
-/

open Lookahead in
/-- What `path` leads to. A file that cannot be read counts as `missing`. -/
def fileContent (path : String) : IO FileContent :=
  try
    return .file (← IO.FS.readBinFile path)
  catch _ => return .missing

open Lookahead.CommandLine in
def main (args : List String) : IO UInt32 := do
  let outcome ←
    match Invocation.read args with
    | .error ending => pure ending.outcome
    | .ok i => pure (i.perform (← fileContent (Lookahead.normalPath i.file)))
  (← IO.getStdout).putStr outcome.stdout
  (← IO.getStderr).putStr outcome.stderr
  match outcome.ending with
  | .ok code => return code.toUInt32
  | .error cause =>
      (← IO.getStderr).putStrLn cause.message
      return 1
