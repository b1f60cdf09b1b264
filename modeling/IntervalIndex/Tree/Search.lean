import IntervalIndex.Relation
import IntervalIndex.Tree.Basic

/-!
# Searching a tree

Each of the three relations asks the stored interval to end no earlier than the query starts and
to start no later than the query ends. `Tree.collect` uses both: it skips a subtree whose greatest
upper bound is below the query, and the right subtree of a node that starts past the query.
`Tree.anyOverlap` follows a single path from the top: left when the left subtree reaches the
query's start, right otherwise.

`Tree.matching` and `Tree.hasOverlap` say what the two searches compute, by a scan of the
in-order list.
-/

namespace IntervalIndex

namespace Tree

variable {α : Type}

/-- The intervals of the tree related to `q` by `rel`, in order, found by a pruned walk. -/
def collect (rel : Relation) (q : Span) : Tree α → List (Interval α)
  | leaf => []
  | node l n r =>
    if n.maxHi < q.lo then []
    else
      collect rel q l ++ (if rel.holds n.interval.span q then [n.interval] else []) ++
        (if n.interval.lo ≤ q.hi then collect rel q r else [])

/-- Whether some interval of the tree overlaps `q`, found along a single path from the top. -/
def anyOverlap (q : Span) : Tree α → Bool
  | leaf => false
  | node l n r =>
    n.interval.span.overlaps q || (if l.reaches q.lo then anyOverlap q l else anyOverlap q r)

/-- The intervals of the tree related to `q` by `rel`, in order: what `collect` finds. -/
def matching (rel : Relation) (q : Span) (t : Tree α) : List (Interval α) :=
  t.toList.filter fun iv => rel.holds iv.span q

/-- Whether some interval of the tree overlaps `q`: what `anyOverlap` finds. -/
def hasOverlap (q : Span) (t : Tree α) : Bool :=
  t.toList.any fun iv => iv.span.overlaps q

end Tree

end IntervalIndex
