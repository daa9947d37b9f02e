import Retarget.Command.Run

/-!
# The command line

Reads the description of a program and prints the generated file.
-/

namespace Retarget.Command

/-- Prints an outcome and gives its status. -/
def report (outcome : Outcome) (output : Option String) : IO UInt32 := do
  IO.print outcome.printed
  if outcome.status = 0 then
    match output with
    | some file => IO.FS.writeFile file outcome.code
    | none => IO.print outcome.code
  IO.eprint outcome.report
  return UInt32.ofNat outcome.status

/-- Reads the input, generates the program and prints it. -/
def generate (invocation : Invocation) (assignment : Assignment) : IO UInt32 := do
  let text ←
    match invocation.input with
    | some file => IO.FS.readFile file
    | none => (← IO.getStdin).readToEnd
  report (assignment.run text) invocation.output

end Retarget.Command

open Retarget Retarget.Command in
def main (arguments : List String) : IO UInt32 :=
  match Invocation.read {} arguments with
  | .error complaint => report (misuse complaint) none
  | .ok invocation =>
    match prepare invocation with
    | .error outcome => report outcome none
    | .ok assignment => generate invocation assignment
