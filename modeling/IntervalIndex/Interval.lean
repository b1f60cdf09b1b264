import IntervalIndex.Span

/-!
# Intervals

An interval is a span with a payload. The index stores intervals and hands them back unchanged;
it never looks at a payload.
-/

namespace IntervalIndex

/-- The closed range `[lo, hi]` tagged with a payload. -/
structure Interval (α : Type) where
  lo : UInt32
  hi : UInt32
  payload : α
  deriving DecidableEq, Repr

namespace Interval

variable {α : Type}

/-- The bounds of the interval. -/
def span (iv : Interval α) : Span := ⟨iv.lo, iv.hi⟩

/-- The span `s` tagged with `p`. -/
def ofSpan (s : Span) (p : α) : Interval α := ⟨s.lo, s.hi, p⟩

/-- The interval `[lo, hi]` tagged with `p`, refused as an `invalidInterval` when `lo > hi`. -/
def checked (lo hi : UInt32) (p : α) : Except Fault (Interval α) :=
  (Span.checked lo hi).map (ofSpan · p)

/-- The interval `[lo, hi]` tagged with `p`, or `none` when `lo > hi`. -/
def ofBounds? (lo hi : UInt32) (p : α) : Option (Interval α) :=
  (Span.ofBounds? lo hi).map (ofSpan · p)

@[simp] theorem span_ofSpan (s : Span) (p : α) : (ofSpan s p).span = s := rfl

@[simp] theorem lo_span (iv : Interval α) : iv.span.lo = iv.lo := rfl

@[simp] theorem hi_span (iv : Interval α) : iv.span.hi = iv.hi := rfl

end Interval

end IntervalIndex
