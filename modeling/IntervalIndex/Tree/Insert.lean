import IntervalIndex.Tree.Rotate

/-!
# Insertion

A new node goes red to the place of a leaf, left of a node whose lower bound is greater and right
of every other, so that equal lower bounds keep their order of arrival. A red node under a red
parent is then repaired on the way back up, two levels at a time:

* when the parent's sibling is red, parent and sibling turn black and the grandparent red, and
  the clash may move two levels up;
* otherwise one or two rotations bring the middle one of the three nodes to the top, black, with
  the other two red below it, and the repair is over.

At the end the top of the whole tree is painted black. `Tree.place` does the descent and reports
to each node above what is left to repair.

Bounds are not recomputed on the way: the nodes above the new one keep the bounds they had, and
only the two nodes each rotation moves are recomputed, from the bounds their new children carry
at that moment. The new node's bound reaches its ancestors afterwards, when `Tree.absorbAbove`
raises each of them to it.
-/

namespace IntervalIndex

namespace Tree

variable {α : Type}

/-- A side of a node. -/
inductive Side where
  | left
  | right
  deriving DecidableEq, Repr

/-- The other side. -/
def Side.other : Side → Side
  | .left => .right
  | .right => .left

/-- What an insertion into a subtree leaves for the node above it to repair: nothing, a red top
that clashes with a red node above it if there is one, or a red top whose child on the given
side is red too. -/
inductive Repair where
  | settled
  | redTop
  | redPair (side : Side)
  deriving DecidableEq, Repr

/-- The node `n` with a new left subtree `l` that reports `rep`, and its old right subtree `r`.
When `l` holds a red pair, `n` is the grandparent of the clash and `r` is the parent's sibling. -/
def settleLeft (l : Tree α) (rep : Repair) (n : Node α) (r : Tree α) : Tree α × Repair :=
  match rep with
  | .settled => (node l n r, .settled)
  | .redTop => (node l n r, if n.color == .red then .redPair .left else .settled)
  | .redPair side =>
    if r.isRed then
      (node (l.paint .black) { n with color := .red } (r.paint .black), .redTop)
    else
      let l' := match side with
        | .left => l
        | .right => l.rotateLeft
      ((node (l'.paint .black) { n with color := .red } r).rotateRight, .settled)

/-- The mirror image of `settleLeft`: the node `n` with its old left subtree `l` and a new right
subtree `r` that reports `rep`. -/
def settleRight (l : Tree α) (n : Node α) (r : Tree α) (rep : Repair) : Tree α × Repair :=
  match rep with
  | .settled => (node l n r, .settled)
  | .redTop => (node l n r, if n.color == .red then .redPair .right else .settled)
  | .redPair side =>
    if l.isRed then
      (node (l.paint .black) { n with color := .red } (r.paint .black), .redTop)
    else
      let r' := match side with
        | .right => r
        | .left => r.rotateRight
      ((node l { n with color := .red } (r'.paint .black)).rotateLeft, .settled)

/-- Places the node `k` as a new red leaf, left of nodes with a greater lower bound and right of
all others, repairing red clashes below the top on the way back up. -/
def place (k : Node α) : Tree α → Tree α × Repair
  | leaf => (node leaf { k with color := .red } leaf, .redTop)
  | node l n r =>
    if k.interval.lo < n.interval.lo then
      let (l', rep) := place k l
      settleLeft l' rep n r
    else
      let (r', rep) := place k r
      settleRight l n r' rep

/-- The first node numbered `k`, in pre-order. -/
def lookup (k : Nat) : Tree α → Option (Node α)
  | leaf => none
  | node l n r => if n.seq = k then some n else (lookup k l).or (lookup k r)

/-- Raises to at least `v` the bound of every node above the node numbered `k`. -/
def absorbAbove (k : Nat) (v : UInt32) : Tree α → Tree α
  | leaf => leaf
  | node l n r =>
    if n.seq = k then node l n r
    else if k ∈ l.numbers then node (absorbAbove k v l) { n with maxHi := max n.maxHi v } r
    else if k ∈ r.numbers then node l { n with maxHi := max n.maxHi v } (absorbAbove k v r)
    else node l n r

/-- The tree with the interval `iv` added as node number `seq`: placed and repaired, its top
painted black, and the new node's bound then raised into every node above it. -/
def insert (t : Tree α) (seq : Nat) (iv : Interval α) : Tree α :=
  let t' := (place ⟨seq, .red, iv, iv.hi⟩ t).1.paint .black
  t'.absorbAbove seq (((t'.lookup seq).map (·.maxHi)).getD 0)

end Tree

end IntervalIndex
