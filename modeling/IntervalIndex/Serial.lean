import IntervalIndex.Interval

/-!
# Spans and intervals as serialized data

Serialized data is a tree of `Datum` values. A span is written as a map with the keys `start`
and `end`; an interval adds `payload`. Reading a span accepts such a map, whatever other keys it
has, or a sequence of exactly two bounds; a key given twice makes the map malformed. Each bound
must be a whole number below `2 ^ 32`. A well-formed span with its start past its end is refused
as `invalidInterval`; anything else that is not a span is refused as malformed.
-/

namespace IntervalIndex

/-- A value of the serialized data model. -/
inductive Datum where
  | null
  | bool (b : Bool)
  | int (n : Int)
  | decimal (mantissa : Int) (exponent : Nat)
  | str (s : String)
  | seq (items : List Datum)
  | map (entries : List (String × Datum))
  deriving Repr, Inhabited

/-- Why serialized data could not be read. -/
inductive ReadFault where
  | malformed
  | invalid (f : Fault)
  deriving DecidableEq, Repr

namespace Datum

/-- The bound that a datum holds: a whole number below `2 ^ 32`. -/
def toBound? : Datum → Option UInt32
  | int n => if 0 ≤ n ∧ n.toNat < UInt32.size then some n.toNat.toUInt32 else none
  | _ => none

/-- The value of the one entry with key `k`, or `none` when there is no such entry or more than
one. -/
def lookup (entries : List (String × Datum)) (k : String) : Option Datum :=
  match entries.filter (·.1 == k) with
  | [e] => some e.2
  | _ => none

end Datum

namespace Span

/-- The bounds held by a datum: a map with keys `start` and `end`, or a sequence of two. -/
def boundsOf? : Datum → Option (UInt32 × UInt32)
  | .map entries => do
    let lo ← (Datum.lookup entries "start").bind Datum.toBound?
    let hi ← (Datum.lookup entries "end").bind Datum.toBound?
    pure (lo, hi)
  | .seq [a, b] => do
    let lo ← a.toBound?
    let hi ← b.toBound?
    pure (lo, hi)
  | _ => none

/-- Reads a span, refusing data of another shape as malformed and an inverted span as
`invalidInterval`. -/
def ofDatum (d : Datum) : Except ReadFault Span :=
  match boundsOf? d with
  | none => .error .malformed
  | some (lo, hi) =>
    match checked lo hi with
    | .ok s => .ok s
    | .error f => .error (.invalid f)

/-- Writes a span as a map with keys `start` and `end`. -/
def toDatum (s : Span) : Datum := .map [("start", .int s.lo.toNat), ("end", .int s.hi.toNat)]

end Span

namespace Interval

/-- Writes an interval with a text payload as a map with keys `start`, `end` and `payload`. -/
def toDatum (iv : Interval String) : Datum :=
  .map [("start", .int iv.lo.toNat), ("end", .int iv.hi.toNat), ("payload", .str iv.payload)]

end Interval

end IntervalIndex
