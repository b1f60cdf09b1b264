/-!
# Faults

The two ways an operation of the index can be refused, and the text that reports each.
-/

namespace IntervalIndex

/-- Why an operation of the index was refused. -/
inductive Fault where
  | outOfMemory
  | invalidInterval (lo hi : UInt32)
  deriving DecidableEq, Repr

namespace Fault

/-- The report of a fault, as the index writes it. -/
def message : Fault → String
  | outOfMemory => "out of memory"
  | invalidInterval lo hi =>
    "invalid interval: start " ++ toString lo ++ " is greater than end " ++ toString hi

example : (invalidInterval 3 1).message = "invalid interval: start 3 is greater than end 1" := by
  decide

end Fault

end IntervalIndex
