import IntervalIndex.Fault

/-!
# Spans

A span is a closed range `[lo, hi]` of 32-bit points. The checked constructors only build spans
with `lo ≤ hi`; a span whose bounds are written directly may be inverted, and an inverted span
holds no point.
-/

namespace IntervalIndex

/-- The closed range of points from `lo` to `hi`, both included. -/
structure Span where
  lo : UInt32
  hi : UInt32
  deriving DecidableEq, Repr

namespace Span

/-- A span is valid when its bounds are in order, so that it holds at least one point. -/
def Valid (s : Span) : Prop := s.lo ≤ s.hi

instance (s : Span) : Decidable s.Valid := inferInstanceAs (Decidable (s.lo ≤ s.hi))

/-- The span `[lo, hi]`, refused as an `invalidInterval` when `lo > hi`. -/
def checked (lo hi : UInt32) : Except Fault Span :=
  if lo ≤ hi then .ok ⟨lo, hi⟩ else .error (.invalidInterval lo hi)

/-- The span `[lo, hi]`, or `none` when `lo > hi`: the asserting constructor, whose failure is
reported as `Span.invalidRange`. -/
def ofBounds? (lo hi : UInt32) : Option Span :=
  if lo ≤ hi then some ⟨lo, hi⟩ else none

/-- The text of the failed assertion of `ofBounds?`. -/
def invalidRange : String := "invalid range"

/-- The span that holds the single point `x`. -/
def point (x : UInt32) : Span := ⟨x, x⟩

/-- Two spans share a point when each starts no later than the other ends. -/
def overlaps (a b : Span) : Bool := decide (a.lo ≤ b.hi) && decide (b.lo ≤ a.hi)

/-- Every point of `b` lies in `a`: `a` starts no later and ends no earlier than `b`. -/
def contains (a b : Span) : Bool := decide (a.lo ≤ b.lo) && decide (b.hi ≤ a.hi)

theorem checked_eq_ok_iff {lo hi : UInt32} {s : Span} :
    checked lo hi = .ok s ↔ lo ≤ hi ∧ s = ⟨lo, hi⟩ := by
  by_cases h : lo ≤ hi <;> simp [checked, h, eq_comm]

theorem checked_eq_error_iff {lo hi : UInt32} {f : Fault} :
    checked lo hi = .error f ↔ ¬lo ≤ hi ∧ f = .invalidInterval lo hi := by
  by_cases h : lo ≤ hi <;> simp [checked, h, eq_comm]

theorem overlaps_iff {a b : Span} : a.overlaps b = true ↔ a.lo ≤ b.hi ∧ b.lo ≤ a.hi := by
  simp [overlaps]

theorem contains_iff {a b : Span} : a.contains b = true ↔ a.lo ≤ b.lo ∧ b.hi ≤ a.hi := by
  simp [contains]

example : (point 9).overlaps ⟨3, 9⟩ = true := by decide

example : (⟨6, 10⟩ : Span).contains ⟨11, 12⟩ = false := by decide

end Span

end IntervalIndex
