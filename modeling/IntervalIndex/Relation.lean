import IntervalIndex.Span

/-!
# Relations between a stored interval and a query

A query names how a stored span must relate to the queried span to be reported: lie within it,
cover it, or share a point with it.
-/

namespace IntervalIndex

/-- How a stored span must relate to the queried span to be reported. -/
inductive Relation where
  | containedIn
  | containing
  | overlapping
  deriving DecidableEq, Repr

namespace Relation

/-- Whether `stored` relates to `query` in this way. -/
def holds : Relation → Span → Span → Bool
  | containedIn, stored, query => query.contains stored
  | containing, stored, query => stored.contains query
  | overlapping, stored, query => stored.overlaps query

/-- The word that names the relation in reports. -/
def label : Relation → String
  | containedIn => "contained"
  | containing => "containing"
  | overlapping => "overlapping"

/-- The relation a word names, if any: the inverse of `label`. -/
def ofLabel? : String → Option Relation
  | "contained" => some containedIn
  | "containing" => some containing
  | "overlapping" => some overlapping
  | _ => none

theorem ofLabel?_label (r : Relation) : ofLabel? r.label = some r := by
  cases r <;> rfl

end Relation

end IntervalIndex
