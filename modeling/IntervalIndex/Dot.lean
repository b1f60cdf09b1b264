import IntervalIndex.Tree.Basic

/-!
# Drawing a tree in the DOT language

The drawing is a directed graph with one line per node, labelled with the node's interval and its
subtree bound and filled with its colour, and one line per edge from a node to a child. Nodes are
named by their sequence numbers.

The lines come from a stack that starts with the top node: a node taken from the stack writes its
line and the edges to its left and right children, and pushes the left child, then the right one.
So the right subtree is written before the left: `Dot.emit` says this by recursion, and
`Dot.emitStack` is the stack walk.
-/

namespace IntervalIndex

namespace Dot

variable {α : Type}

/-- The first lines of the drawing. -/
def header : String :=
  "digraph IntervalTree \x7b\n    node [style=filled, fontcolor=white];\n"

/-- The last line of the drawing. -/
def footer : String := "\x7d\n"

/-- The fill colour of a node. -/
def fill : Color → String
  | .red => "red"
  | .black => "black"

/-- The line that draws a node. -/
def nodeLine (n : Node α) : String :=
  "    n" ++ toString n.seq ++ " [label=\"[" ++ toString n.interval.lo ++ ", " ++
    toString n.interval.hi ++ "]\\nmax " ++ toString n.maxHi ++ "\", fillcolor=" ++
    fill n.color ++ "];\n"

/-- The line that draws the edge from node `n` to the top of `child`, if `child` has one. -/
def edgeLine (n : Node α) : Tree α → String
  | .leaf => ""
  | .node _ c _ => "    n" ++ toString n.seq ++ " -> n" ++ toString c.seq ++ ";\n"

/-- The lines of a subtree: its top node, the edges to its children, then the right subtree, then
the left one. -/
def emit : Tree α → String
  | .leaf => ""
  | .node l n r => nodeLine n ++ edgeLine n l ++ edgeLine n r ++ emit r ++ emit l

/-- The weight of a stack of subtrees, which every step of `emitStack` lowers. -/
def stackWeight : List (Tree α) → Nat
  | [] => 0
  | t :: s => 2 * t.size + 1 + stackWeight s

/-- Appends to `acc` the lines of the subtrees on the stack `s`, taking them from the front. -/
def emitStack (s : List (Tree α)) (acc : String) : String :=
  match s with
  | [] => acc
  | .leaf :: rest => emitStack rest acc
  | .node l n r :: rest =>
    emitStack (r :: l :: rest) (acc ++ nodeLine n ++ edgeLine n l ++ edgeLine n r)
termination_by stackWeight s
decreasing_by
  all_goals simp only [stackWeight, Tree.size]
  all_goals omega

/-- The drawing of the tree. -/
def render (t : Tree α) : String := emitStack [t] header ++ footer

end Dot

end IntervalIndex
