import IntervalIndex.Proofs.Index.Shape
import IntervalIndex.Proofs.Tree.Walk

/-!
# The drawing of an index

`Dot.render` writes a drawing from a stack of subtrees: the top of the stack writes its node's
line and the edges to its children, and the right child is taken before the left one. Its stack
invariant is that the output is what was written so far followed by `Dot.emit` of each subtree on
the stack, so the body of a drawing is `Dot.emit` of the whole tree, a pre-order that visits the
right subtree first.

`Dot.lines` lists the lines of that body as data, a `Dot.Line` for each node and each edge. Every
one of them is a single line of text. In every reachable state of an index the drawing has one
node line for each of the numbers `0, 1, …, size - 1` and one edge line for each link from a node
to a child, `size - 1` of them (`Index.draw_run_lines`).
-/

namespace IntervalIndex

namespace Tree

variable {α : Type}

/-- The links of the tree, each node's number with the number of each of its children, the left
one first, in pre-order. -/
def links : Tree α → List (Nat × Nat)
  | leaf => []
  | node l n r =>
    (l.top?.map (n.seq, ·)).toList ++ (r.top?.map (n.seq, ·)).toList ++ l.links ++ r.links

theorem length_links (t : Tree α) : t.links.length = t.size - 1 := by
  have hchild : ∀ u : Tree α,
      (u.top?.map fun c => (0, c)).toList.length + (u.size - 1) = u.size := by
    intro u
    cases u with
    | leaf =>
        rfl
    | node l n r =>
        simp [size]
        omega
  induction t with
  | leaf =>
      rfl
  | node l n r ihl ihr =>
      have hl := hchild l
      have hr := hchild r
      simp only [links, List.length_append, ihl, ihr, size]
      simp only [Option.length_toList, Option.isSome_map] at hl hr ⊢
      omega

end Tree

namespace Dot

variable {α : Type}

theorem emitStack_eq (s : List (Tree α)) (acc : String) :
    emitStack s acc = acc ++ String.join (s.map emit) := by
  fun_induction emitStack s acc with
  | case1 acc =>
      simp
  | case2 acc rest ih =>
      simp [ih, emit]
  | case3 acc l n r rest ih =>
      rw [ih]
      simp [emit, String.append_assoc]

theorem render_eq (t : Tree α) : render t = header ++ emit t ++ footer := by
  simp [render, emitStack_eq]

/-!
## The lines of a drawing
-/

/-- A line of the body of a drawing. -/
inductive Line (α : Type) where
  | vertex (n : Node α)
  | edge (parent child : Nat)

namespace Line

/-- The text of the line. -/
def text : Line α → String
  | vertex n => nodeLine n
  | edge p c => "    n" ++ toString p ++ " -> n" ++ toString c ++ ";\n"

/-- The node a line draws. -/
def vertex? : Line α → Option (Node α)
  | vertex n => some n
  | edge _ _ => none

/-- The link an edge line draws. -/
def edge? : Line α → Option (Nat × Nat)
  | vertex _ => none
  | edge p c => some (p, c)

theorem count_newline_toString (n : Nat) : (toString n).toList.count '\n' = 0 := by
  rw [List.count_eq_zero]
  intro h
  have hd := Nat.isDigit_of_mem_toDigits (b := 10) (n := n) (by norm_num) (by norm_num)
    (by simpa [toString, Nat.repr] using h)
  simp at hd

theorem count_newline_toString_uint32 (x : UInt32) : (toString x).toList.count '\n' = 0 :=
  count_newline_toString x.toNat

theorem text_single_line (l : Line α) :
    l.text.toList.count '\n' = 1 ∧ l.text.toList.getLast? = some '\n' := by
  cases l with
  | vertex n =>
      show (nodeLine n).toList.count '\n' = 1 ∧ (nodeLine n).toList.getLast? = some '\n'
      delta nodeLine
      constructor
      · cases n.color <;>
          simp only [fill, String.toList_append, List.count_append, count_newline_toString,
            count_newline_toString_uint32] <;>
          decide
      · simp only [String.toList_append, List.getLast?_append]
        simp
  | edge p c =>
      constructor
      · simp only [text, String.toList_append, List.count_append, count_newline_toString]
        decide
      · simp only [text, String.toList_append, List.getLast?_append]
        simp

end Line

/-- The edge lines from `n` to the top of `t`, if it has one. -/
def edgesTo (n : Node α) : Tree α → List (Line α)
  | .leaf => []
  | .node _ c _ => [.edge n.seq c.seq]

/-- The lines of the body of a drawing of `t`, in the order in which `emit` writes them. -/
def lines : Tree α → List (Line α)
  | .leaf => []
  | .node l n r => .vertex n :: (edgesTo n l ++ edgesTo n r ++ lines r ++ lines l)

theorem join_text_edgesTo (n : Node α) (t : Tree α) :
    String.join ((edgesTo n t).map Line.text) = edgeLine n t := by
  cases t <;> simp [edgesTo, edgeLine, Line.text]

theorem emit_eq_join_lines (t : Tree α) : emit t = String.join ((lines t).map Line.text) := by
  induction t with
  | leaf =>
      rfl
  | node l n r ihl ihr =>
      simp [emit, lines, ihl, ihr, Line.text, String.join_append, join_text_edgesTo,
        String.append_assoc]

theorem vertices_lines (t : Tree α) : ((lines t).filterMap Line.vertex?).Perm t.nodes := by
  have hedges : ∀ (n : Node α) (u : Tree α), (edgesTo n u).filterMap Line.vertex? = [] := by
    intro n u
    cases u <;> rfl
  induction t with
  | leaf =>
      rfl
  | node l n r ihl ihr =>
      simp only [lines, List.filterMap_cons, List.filterMap_append, hedges, Line.vertex?,
        List.nil_append, Tree.nodes_node]
      calc List.Perm (n :: ((lines r).filterMap Line.vertex? ++ (lines l).filterMap Line.vertex?))
            (n :: (r.nodes ++ l.nodes)) := (ihr.append ihl).cons n
        List.Perm _ (n :: (l.nodes ++ r.nodes)) := List.perm_append_comm.cons n
        List.Perm _ (l.nodes ++ n :: r.nodes) := List.perm_middle.symm

theorem edges_lines (t : Tree α) : ((lines t).filterMap Line.edge?).Perm t.links := by
  have hedges : ∀ (n : Node α) (u : Tree α),
      (edgesTo n u).filterMap Line.edge? = (u.top?.map (n.seq, ·)).toList := by
    intro n u
    cases u <;> rfl
  induction t with
  | leaf =>
      rfl
  | node l n r ihl ihr =>
      simp only [lines, List.filterMap_cons, List.filterMap_append, hedges, Line.edge?, Tree.links,
        List.append_assoc]
      exact List.Perm.append_left _ (List.Perm.append_left _ (List.perm_append_comm.trans
        (ihl.append ihr)))

end Dot

namespace Index

variable {α : Type}

/-- In every state reachable from an empty index, the drawing is the header, then what `Dot.emit`
writes for the tree, then the closing line. The body consists of single lines of text: node lines
for the nodes numbered `0, 1, …, size - 1`, each once, and edge lines for the links from a node to
a child, each once, `size - 1` of them, none for an empty index. -/
theorem draw_run_lines (bits : Nat) (cmds : List (Command α)) :
    let ix := (ofWidth bits).run cmds
    ix.draw = Dot.header ++ Dot.emit ix.tree ++ Dot.footer ∧
      Dot.emit ix.tree = String.join ((Dot.lines ix.tree).map Dot.Line.text) ∧
      (∀ l ∈ Dot.lines ix.tree,
        l.text.toList.count '\n' = 1 ∧ l.text.toList.getLast? = some '\n') ∧
      (((Dot.lines ix.tree).filterMap Dot.Line.vertex?).map (·.seq)).Perm (List.range ix.size) ∧
      ((Dot.lines ix.tree).filterMap Dot.Line.edge?).Perm ix.tree.links ∧
      ix.tree.links.length = ix.size - 1 := by
  intro ix
  have hst : ix.Stores _ := stores_run bits cmds
  refine ⟨Dot.render_eq ix.tree, Dot.emit_eq_join_lines ix.tree,
    fun l _ => Dot.Line.text_single_line l, ?_, Dot.edges_lines ix.tree, ?_⟩
  · exact ((Dot.vertices_lines ix.tree).map _).trans hst.seqs_perm
  · rw [Tree.length_links, hst.size_tree]

end Index

end IntervalIndex
