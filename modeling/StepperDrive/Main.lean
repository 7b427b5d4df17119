import StepperDrive.Demo.SingleMove
/-!
# The demonstration program

Prints the single-move demonstration's transcript. A failure is reported on the error stream
with exit code 1; an integer overflow ends the program with exit code 101.
-/

open StepperDrive

/-- Runs the single-move demonstration. -/
def main : IO UInt32 := do
  match Demo.singleMove with
  | .error o =>
    IO.eprintln o.message
    return 101
  | .ok t =>
    for line in t.lines do
      IO.println line
    match t.failure with
    | some e =>
      IO.eprintln ("Error: " ++ e.message)
      return 1
    | none => return 0
