import IntervalIndex.Tree.Basic

/-!
# Rotations

A rotation turns an edge of the tree around: a child rises to its parent's place and the parent
goes down on the other side. The in-order sequence is unchanged, and the two nodes that moved get
their bounds recomputed, the lower one first.
-/

namespace IntervalIndex

namespace Tree

variable {α : Type}

/-- The right child rises and the top goes down to its left. A tree without a right child is
returned as it is. -/
def rotateLeft : Tree α → Tree α
  | node a x (node b y c) => join (join a x b) y c
  | t => t

/-- The left child rises and the top goes down to its right. A tree without a left child is
returned as it is. -/
def rotateRight : Tree α → Tree α
  | node (node a y b) x c => join a y (join b x c)
  | t => t

@[simp] theorem toList_rotateLeft (t : Tree α) : t.rotateLeft.toList = t.toList := by
  unfold rotateLeft
  split <;> simp

@[simp] theorem toList_rotateRight (t : Tree α) : t.rotateRight.toList = t.toList := by
  unfold rotateRight
  split <;> simp

end Tree

end IntervalIndex
