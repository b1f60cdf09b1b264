import IntervalIndex.Relation
import IntervalIndex.Interval
import IntervalIndex.ResultBuffer

/-!
# The journal

While it works, an index writes entries to a journal: one for every interval added or refused,
one for every growth of the result buffer, and one for every query that succeeds or fails. Each
entry has a level of importance and a line of text; this module fixes both for each event.
-/

namespace IntervalIndex

/-- The importance of a journal entry. -/
inductive Level where
  | trace
  | debug
  | warn
  deriving DecidableEq, Repr

namespace Level

/-- The name under which a level is shown. -/
def label : Level → String
  | trace => "TRACE"
  | debug => "DEBUG"
  | warn => "WARN"

end Level

/-- One line of the journal. -/
structure Entry where
  level : Level
  text : String
  deriving DecidableEq, Repr

namespace Entry

/-- How a span is written in the journal: `[lo, hi]`. -/
def bounds (lo hi : UInt32) : String := "[" ++ toString lo ++ ", " ++ toString hi ++ "]"

/-- The interval `[lo, hi]` was stored as node number `seq`. -/
def inserted (lo hi : UInt32) (seq : Nat) : Entry :=
  ⟨.trace, "inserted " ++ bounds lo hi ++ " as NodeIndex(" ++ toString seq ++ ")"⟩

/-- The interval `[lo, hi]` was refused for `f`. -/
def insertFailed (lo hi : UInt32) (f : Fault) : Entry :=
  ⟨.warn, "failed to insert " ++ bounds lo hi ++ ": " ++ f.message⟩

/-- The result buffer grew to `capacity` slots. -/
def grown (capacity : Nat) : Entry :=
  ⟨.trace, "result buffer grown to " ++ toString capacity ++ " slots"⟩

/-- A query by `rel` for `[lo, hi]` found `count` intervals. -/
def matched (rel : Relation) (lo hi : UInt32) (count : Nat) : Entry :=
  ⟨.debug, rel.label ++ " query for " ++ bounds lo hi ++ " matched " ++ toString count ++
    " intervals"⟩

/-- A query by `rel` for `[lo, hi]` failed with `f`. -/
def queryFailed (rel : Relation) (lo hi : UInt32) (f : Fault) : Entry :=
  ⟨.warn, rel.label ++ " query for " ++ bounds lo hi ++ " failed: " ++ f.message⟩

/-- The growth entries of a buffer that grew from `before` to `after` slots, one for each step of
`growthStep` slots. -/
def growth (before after : Nat) : List Entry :=
  (List.range ((after - before) / growthStep)).map fun i => grown (before + growthStep * (i + 1))

end Entry

end IntervalIndex
