import DepSpec.CommandLine.Reader
import DepSpec.Service.Response

set_option autoImplicit false

/-! # Classifying one specifier

The program that classifies the specifier on its command line and prints the response line that a
service would send. A specifier that is turned down is an answer too; the exit code is 1 only if
the classification itself broke down. -/

namespace DepSpec.CommandLine

/-- What the command line says. -/
structure ClassifyArguments where
  spec : Option String := none
  envelope : Option Envelope := none
  deriving Repr, DecidableEq

namespace ClassifyArguments

/-- The options of the program. -/
def options : List String := ["envelope"]

/-- One item more. -/
def accept (a : ClassifyArguments) : Item → Option ClassifyArguments
  | .operand text => (once? a.spec (some text)).map fun spec => { a with spec := spec }
  | .option "envelope" value =>
    (once? a.envelope (Envelope.ofName? value)).map fun envelope => { a with envelope := envelope }
  | .option .. => none

end ClassifyArguments

/-- The name of the program. -/
def classifyProgram : String := "spec-classify"

/-- How the program is used. -/
def classifyUsage : String :=
  "Classify one dependency specifier\n\nUsage: " ++ classifyProgram ++
    " [--envelope result|legacy] <SPEC>\n"

/-- The exit code that tells how a classification went. -/
def exitCode : Outcome → Nat
  | .ok _ => 0
  | .error e => if e.isInvalid then 0 else 1

/-- Classify a specifier and print the response line. -/
def classifyOnce (caps : Capabilities) (envelope : Envelope) (spec : String) : Ending :=
  .exit (exitCode (caps.classify spec)) (Outcome.line (caps.classify spec) envelope)

/-- What the program does with its arguments. -/
def classify (args : List String) : Ending :=
  match read ClassifyArguments.options ClassifyArguments.accept {} args with
  | .usage => .usage
  | .help => .help
  | .version => .version classifyProgram
  | .accepted { spec := none, .. } => .usage
  | .accepted { spec := some spec, envelope } =>
    classifyOnce .npm (envelope.getD .result) spec

end DepSpec.CommandLine
