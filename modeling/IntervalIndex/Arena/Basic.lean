import IntervalIndex.Relation
import IntervalIndex.Tree.Insert

/-!
# The arena

The nodes of an index live in an array, each in a slot that refers to its children and its
parent by their positions; a position is kept in a word of a fixed number of bits, and the
greatest word is reserved. `Arena.tree` reads the tree from the root by following the links,
numbering each node by its position. The searches follow the links in the same way:
`Arena.collect` skips a subtree whose bound is below the query and the right subtree of a node
that starts past it, and `Arena.anyOverlap` walks a single path from the root.

Every walk along the links is bounded by a number of steps, the arena's size where it is used:
a path in a tree visits each node at most once.
-/

namespace IntervalIndex

/-- The word of `bits` bits that a position is stored in: the position, truncated. -/
def NodeIndex.ofNat (bits x : Nat) : Nat := x % Nat.pow 2 bits

/-- The reserved word of `bits` bits, the greatest one. -/
def NodeIndex.sentinel (bits : Nat) : Nat := Nat.pow 2 bits - 1

/-- A node of the arena: the positions of its children and of its parent, its colour, its
interval and the bound of its subtree. -/
structure Slot (α : Type) where
  left : Option Nat
  right : Option Nat
  parent : Option Nat
  color : Color
  interval : Interval α
  maxHi : UInt32
  deriving Repr

namespace Slot

variable {α : Type}

/-- A new red node holding `iv`, linked to nothing, whose bound is its own upper bound. -/
def fresh (iv : Interval α) : Slot α := ⟨none, none, none, .red, iv, iv.hi⟩

/-- The child on `side`. -/
def child (s : Slot α) : Tree.Side → Option Nat
  | .left => s.left
  | .right => s.right

/-- The slot with its child on `side` replaced by `c`. -/
def withChild (s : Slot α) (c : Option Nat) : Tree.Side → Slot α
  | .left => { s with left := c }
  | .right => { s with right := c }

/-- The node record the slot at position `i` stands for. -/
def toNode (s : Slot α) (i : Nat) : Node α := ⟨i, s.color, s.interval, s.maxHi⟩

end Slot

/-- A red-black tree whose nodes live in an array and refer to each other by position. -/
structure Arena (α : Type) where
  slots : Array (Slot α)
  root : Option Nat
  deriving Repr

namespace Arena

variable {α : Type}

/-- The arena with no node. -/
def empty : Arena α := ⟨#[], none⟩

/-- The number of nodes. -/
def size (a : Arena α) : Nat := a.slots.size

/-! Reads of one field of the slot at position `i`. -/

def child (a : Arena α) (side : Tree.Side) (i : Nat) : Option Nat :=
  (a.slots[i]?).bind (·.child side)

def parent (a : Arena α) (i : Nat) : Option Nat := (a.slots[i]?).bind (·.parent)

def isRed (a : Arena α) (i : Nat) : Bool := (a.slots[i]?).any (·.color == .red)

def isBlack (a : Arena α) (i : Nat) : Bool := (a.slots[i]?).any (·.color == .black)

def key (a : Arena α) (i : Nat) : UInt32 := ((a.slots[i]?).map (·.interval.lo)).getD 0

def summary (a : Arena α) (i : Nat) : UInt32 := ((a.slots[i]?).map (·.maxHi)).getD 0

/-! Writes of one field of the slot at position `i`. -/

def modify (a : Arena α) (i : Nat) (f : Slot α → Slot α) : Arena α :=
  { a with slots := a.slots.modify i f }

def setChild (a : Arena α) (side : Tree.Side) (i : Nat) (c : Option Nat) : Arena α :=
  a.modify i (·.withChild c side)

def setParent (a : Arena α) (i : Nat) (p : Option Nat) : Arena α :=
  a.modify i fun s => { s with parent := p }

def setColor (a : Arena α) (i : Nat) (c : Color) : Arena α :=
  a.modify i fun s => { s with color := c }

/-- The subtree below the link `x`, read by following links at most `fuel` deep. -/
def subtree (a : Arena α) : Nat → Option Nat → Tree α
  | 0, _ => .leaf
  | _ + 1, none => .leaf
  | fuel + 1, some i =>
    match a.slots[i]? with
    | none => .leaf
    | some s => .node (a.subtree fuel s.left) (s.toNode i) (a.subtree fuel s.right)

/-- The tree read from the root. -/
def tree (a : Arena α) : Tree α := a.subtree a.size a.root

/-- The intervals below the link `x` related to `q` by `rel`, in order, at most `fuel` deep: a
subtree whose bound is below `q` is skipped, and so is the right subtree of a node that starts
past `q`. -/
def collect (a : Arena α) (rel : Relation) (q : Span) : Nat → Option Nat → List (Interval α)
  | 0, _ => []
  | _ + 1, none => []
  | fuel + 1, some x =>
    match a.slots[x]? with
    | none => []
    | some s =>
      if s.maxHi < q.lo then []
      else
        a.collect rel q fuel s.left ++
          (if rel.holds s.interval.span q then [s.interval] else []) ++
          (if s.interval.lo ≤ q.hi then a.collect rel q fuel s.right else [])

/-- Whether the link `l` leads to a node whose bound reaches the point `x`. -/
def reaches (a : Arena α) (x : UInt32) (l : Option Nat) : Bool :=
  match l.bind (a.slots[·]?) with
  | some s => decide (x ≤ s.maxHi)
  | none => false

/-- Whether some interval below the link `x` overlaps `q`, along a single path of at most `fuel`
nodes: left when the left subtree reaches the start of `q`, right otherwise. -/
def anyOverlap (a : Arena α) (q : Span) : Nat → Option Nat → Bool
  | 0, _ => false
  | _ + 1, none => false
  | fuel + 1, some x =>
    match a.slots[x]? with
    | none => false
    | some s =>
      s.interval.span.overlaps q ||
        (if a.reaches q.lo s.left then a.anyOverlap q fuel s.left
        else a.anyOverlap q fuel s.right)

end Arena

end IntervalIndex
