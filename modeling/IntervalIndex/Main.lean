import IntervalIndex.Demo.AddressBlocks

/-!
# The address-block report as a program

Prints the lines of the address-block report. Should the index refuse a block, it says so on
the error stream and ends with status 101.
-/

open IntervalIndex

/-- Prints the address-block report. -/
def main : IO UInt32 := do
  match Demo.AddressBlocks.report with
  | .ok lines =>
    lines.forM fun line => IO.println line
    pure 0
  | .error f =>
    IO.eprintln f.message
    pure 101
