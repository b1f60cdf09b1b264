import IntervalIndex.Interval
import IntervalIndex.Text.Quoted

/-!
# Descriptions of spans and intervals

A description names the structure and lists its fields with their values, as in
`Span { start: 1, end: 2 }`; a text payload is shown quoted.
-/

namespace IntervalIndex

/-- `name { field: value, ... }` for the given fields. -/
def describeRecord (name : String) (fields : List (String × String)) : String :=
  name ++ " \x7b " ++ ", ".intercalate (fields.map fun f => f.1 ++ ": " ++ f.2) ++ " \x7d"

namespace Span

/-- The description of a span: `Span { start: lo, end: hi }`. -/
def describe (s : Span) : String :=
  describeRecord "Span" [("start", toString s.lo), ("end", toString s.hi)]

example : (⟨1, 2⟩ : Span).describe = "Span \x7b start: 1, end: 2 \x7d" := by
  cbv

end Span

namespace Interval

variable {α : Type}

/-- The description of an interval, its payload shown by `showPayload`. -/
def describeWith (showPayload : α → String) (iv : Interval α) : String :=
  describeRecord "Interval"
    [("start", toString iv.lo), ("end", toString iv.hi), ("payload", showPayload iv.payload)]

/-- The description of an interval with a text payload, shown quoted. -/
def describe (iv : Interval String) : String := iv.describeWith Text.quote

end Interval

end IntervalIndex
