import IntervalIndex.Arena.Insert
import IntervalIndex.Tree.Search
import IntervalIndex.Tree.Cursor
import IntervalIndex.ResultBuffer
import IntervalIndex.Dot

/-!
# The interval index

An index stores intervals with payloads in a red-black tree ordered by start, whose nodes live
in an arena and are numbered by their positions there. Positions are kept in words of a fixed
number of bits. Queries write their matches into a result buffer that the index keeps from one
query to the next.

Adding refuses an inverted interval first and a full arena second, and leaves the index as it
was on refusal. A query empties the buffer, refuses an inverted query span, and reports the
matches of a pruned walk in order, or `outOfMemory` when the buffer may not grow far enough, in
which case the buffer is left empty with the capacity it reached.
-/

namespace IntervalIndex

/-- Intervals with payloads, kept by start in a red-black tree in an arena whose positions are
words of `bits` bits, together with the buffer that queries reuse. -/
structure Index (α : Type) where
  arena : Arena α
  bits : Nat
  results : ResultBuffer (Interval α)

namespace Index

variable {α : Type}

/-- An empty index whose positions are `bits`-bit words. The greatest word is reserved, so it
holds at most `2 ^ bits - 1` intervals. -/
def ofWidth (bits : Nat) : Index α := ⟨.empty, bits, {}⟩

/-- The number of stored intervals. -/
def size (ix : Index α) : Nat := ix.arena.size

/-- The tree of the stored intervals, read from the arena. -/
def tree (ix : Index α) : Tree α := ix.arena.tree

/-- Whether the index holds no interval. -/
def isEmpty (ix : Index α) : Bool := ix.size == 0

/-- The number of matches the result buffer holds before it has to grow. -/
def resultCapacity (ix : Index α) : Nat := ix.results.capacity

/-- Adds an interval, or refuses it: an inverted interval as `invalidInterval`, and then a full
arena as `outOfMemory`. The result gives the new node's position. -/
def insert (ix : Index α) (iv : Interval α) : Index α × Except Fault Nat :=
  match Span.checked iv.lo iv.hi with
  | .error f => (ix, .error f)
  | .ok _ =>
    let ⟨arena, bits, results⟩ := ix
    let (arena, r) := arena.insert bits iv
    (⟨arena, bits, results⟩, r)

/-- The intervals related to `q` by `rel`, in order, with the index whose buffer holds them; or
the fault that stopped the query, with the index whose buffer is empty again. -/
def query (ix : Index α) (rel : Relation) (q : Span) :
    Index α × Except Fault (Array (Interval α)) :=
  let buffer := ix.results.reset
  match Span.checked q.lo q.hi with
  | .error f => ({ ix with results := buffer }, .error f)
  | .ok q =>
    match buffer.pushAll (ix.arena.collect rel q ix.arena.size ix.arena.root) with
    | .ok b => ({ ix with results := b }, .ok b.items)
    | .error (f, b) => ({ ix with results := b.reset }, .error f)

/-- Whether some stored interval shares a point with `q`; an inverted `q` holds no point. -/
def overlapsAny (ix : Index α) (q : Span) : Bool :=
  decide (q.lo ≤ q.hi) && ix.arena.anyOverlap q ix.arena.size ix.arena.root

/-- The stored intervals in order of start, those of equal start in the order they were added. -/
def items (ix : Index α) : List (Interval α) :=
  (Tree.Cursor.start ix.tree).drain.map (·.interval)

/-- Caps the capacity of the result buffer at `limit`; capacity already reached is kept. -/
def setResultLimit (ix : Index α) (limit : Nat) : Index α :=
  { ix with results := ix.results.setLimit limit }

/-- Drops every interval and numbers nodes from zero again; the buffer keeps its capacity and
limit. -/
def clear (ix : Index α) : Index α :=
  { ix with arena := .empty, results := ix.results.reset }

/-- The drawing of the tree in the DOT language. -/
def draw (ix : Index α) : String := Dot.render ix.tree

end Index

end IntervalIndex
