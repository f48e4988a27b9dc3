import ExprTree.CommandLine

open ExprTree.CommandLine

def readInput : IO (Option String) := do
  let bytes ← (← IO.getStdin).readBinToEnd
  return String.fromUTF8? bytes

def main (args : List String) : IO UInt32 := do
  let input ← match ({} : Options).read? args with
    | some { source := none, .. } => readInput
    | _ => pure none
  match run args input with
  | .success output =>
    IO.print output
    return 0
  | .failure report =>
    IO.eprint report
    return 1
  | .usage => return 2
