import IntervalIndex.Interval

/-!
# Augmented red-black trees of intervals

A `Tree` holds intervals ordered by their lower bound. Every node carries its colour, its number
(the position of its record in the arena that stores the tree), and a bound on the upper bounds
found in its subtree. That bound lets a search skip a whole subtree whose intervals all end
before the query starts.

`Tree.join` recomputes a node's bound from its own interval and the bounds its children carry.
The in-order list `Tree.toList` is the view through which the order of the tree is stated.
-/

namespace IntervalIndex

/-- The colour of a node of a red-black tree. -/
inductive Color where
  | red
  | black
  deriving DecidableEq, Repr

/-- What a node of the tree holds besides its children: its number, its colour, its interval and
the bound of its subtree. -/
structure Node (α : Type) where
  seq : Nat
  color : Color
  interval : Interval α
  maxHi : UInt32
  deriving Repr

/-- A binary tree of intervals with a node record at every inner node. -/
inductive Tree (α : Type) where
  | leaf
  | node (left : Tree α) (top : Node α) (right : Tree α)
  deriving Repr

namespace Tree

variable {α : Type}

/-- The bound carried by the top, `0` for the empty tree. -/
def maxHi : Tree α → UInt32
  | leaf => 0
  | node _ n _ => n.maxHi

/-- The node `n` between `l` and `r`, with its bound recomputed from its interval and from the
bounds that `l` and `r` carry. -/
def join (l : Tree α) (n : Node α) (r : Tree α) : Tree α :=
  node l { n with maxHi := max n.interval.hi (max l.maxHi r.maxHi) } r

/-- The tree with its top node given the colour `c`. -/
def paint (c : Color) : Tree α → Tree α
  | leaf => leaf
  | node l n r => node l { n with color := c } r

/-- Whether the top node exists and is red. -/
def isRed : Tree α → Bool
  | node _ n _ => n.color == .red
  | leaf => false

/-- Whether the tree has a node whose subtree reaches the point `x`, that is, a top node whose
bound is at least `x`. -/
def reaches (x : UInt32) : Tree α → Bool
  | node _ n _ => decide (x ≤ n.maxHi)
  | leaf => false

/-- The node records from left to right. -/
def nodes : Tree α → List (Node α)
  | leaf => []
  | node l n r => l.nodes ++ n :: r.nodes

/-- The node numbers from left to right. -/
def numbers (t : Tree α) : List Nat := t.nodes.map (·.seq)

/-- The stored intervals from left to right: the view through which order is stated. -/
def toList : Tree α → List (Interval α)
  | leaf => []
  | node l n r => l.toList ++ n.interval :: r.toList

/-- The number of nodes. -/
def size : Tree α → Nat
  | leaf => 0
  | node l _ r => l.size + r.size + 1

@[simp] theorem nodes_leaf : (leaf : Tree α).nodes = [] := rfl

@[simp] theorem nodes_node (l : Tree α) (n : Node α) (r : Tree α) :
    (node l n r).nodes = l.nodes ++ n :: r.nodes := rfl

@[simp] theorem numbers_leaf : (leaf : Tree α).numbers = [] := rfl

@[simp] theorem numbers_node (l : Tree α) (n : Node α) (r : Tree α) :
    (node l n r).numbers = l.numbers ++ n.seq :: r.numbers := by
  simp [numbers]

@[simp] theorem toList_leaf : (leaf : Tree α).toList = [] := rfl

@[simp] theorem toList_node (l : Tree α) (n : Node α) (r : Tree α) :
    (node l n r).toList = l.toList ++ n.interval :: r.toList := rfl

@[simp] theorem toList_join (l : Tree α) (n : Node α) (r : Tree α) :
    (join l n r).toList = l.toList ++ n.interval :: r.toList := rfl

@[simp] theorem toList_paint (c : Color) (t : Tree α) : (paint c t).toList = t.toList := by
  cases t <;> rfl

theorem length_toList (t : Tree α) : t.toList.length = t.size := by
  induction t with
  | leaf => rfl
  | node l n r ihl ihr => simp [size, ihl, ihr]; omega

end Tree

end IntervalIndex
