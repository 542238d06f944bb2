import DepSpec.CommandLine.Classify

set_option autoImplicit false

/-! # The program

Classifies the specifier on the command line. -/

/-- Print what the program has to say, and tell how it went. -/
def main (args : List String) : IO UInt32 := do
  match DepSpec.CommandLine.classify args with
  | .usage =>
    IO.print DepSpec.CommandLine.classifyUsage
    return 1
  | .help =>
    IO.print DepSpec.CommandLine.classifyUsage
    return 0
  | .exit code output =>
    IO.print output
    return code.toUInt32
