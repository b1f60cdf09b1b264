import IntervalIndex.Tree.Cursor

/-!
# The in-order walk

A cursor's pending entries stand for the nodes still to come: each pending node, then the nodes
of the subtree that follows it. `Cursor.upcoming` lists them in that order. Pushing the left
spine of a subtree puts the subtree's nodes in front of what was pending, and each step of the
walk takes one node off the front, so draining the walk of a tree yields `Tree.nodes`, the nodes
from left to right, each of them once.
-/

namespace IntervalIndex
namespace Tree

variable {α : Type}

theorem map_interval_nodes (t : Tree α) : t.nodes.map (·.interval) = t.toList := by
  induction t with
  | leaf =>
      rfl
  | node l n r ihl ihr =>
      simp [ihl, ihr]

namespace Cursor

/-- The nodes that a list of pending entries stands for, in the order the walk visits them. -/
def upcoming : List (Node α × Tree α) → List (Node α)
  | [] => []
  | (n, r) :: s => n :: (r.nodes ++ upcoming s)

theorem upcoming_pushSpine (t : Tree α) (s : List (Node α × Tree α)) :
    upcoming (pushSpine t s) = t.nodes ++ upcoming s := by
  induction t generalizing s with
  | leaf =>
      rfl
  | node l n r ihl _ =>
      rw [pushSpine, ihl]
      simp [upcoming]

theorem toList_drainInto (c : Cursor α) (acc : Array (Node α)) :
    (c.drainInto acc).toList = acc.toList ++ upcoming c.pending := by
  fun_induction drainInto c acc with
  | case1 acc =>
      simp [upcoming]
  | case2 n r s acc ih =>
      rw [ih, upcoming_pushSpine]
      simp [upcoming]

theorem upcoming_start (t : Tree α) : upcoming (start t).pending = t.nodes := by
  rw [start, upcoming_pushSpine]
  simp [upcoming]

theorem drain_start (t : Tree α) : (start t).drain = t.nodes := by
  rw [drain, toList_drainInto, upcoming_start]
  simp

/-!
## The walk one step at a time
-/

/-- `c.Yields ns e`: stepping the walk from `c` gives the nodes `ns`, one per step, and leaves the
cursor `e`. -/
inductive Yields : Cursor α → List (Node α) → Cursor α → Prop
  | nil (c : Cursor α) : Yields c [] c
  | cons {c c' e : Cursor α} {n : Node α} {ns : List (Node α)} :
      c.next? = some (n, c') → Yields c' ns e → Yields c (n :: ns) e

/-- The cursor with nothing pending, where the walk ends. -/
def done : Cursor α := ⟨[]⟩

@[simp] theorem next?_done : (done : Cursor α).next? = none := rfl

theorem yields_upcoming : (c : Cursor α) → c.Yields (upcoming c.pending) done
  | ⟨[]⟩ => .nil _
  | ⟨(n, r) :: s⟩ => by
      have hrest := yields_upcoming ⟨pushSpine r s⟩
      rw [upcoming_pushSpine] at hrest
      exact .cons rfl hrest
termination_by c => c.remaining
decreasing_by
  rw [remaining_pushSpine]
  simp only [remaining, weight]
  omega

theorem Yields.eq_upcoming {c e : Cursor α} {ns : List (Node α)} (h : c.Yields ns e)
    (he : e.next? = none) : ns = upcoming c.pending := by
  induction h with
  | nil c =>
      rcases c with ⟨_ | ⟨_, _⟩⟩
      · rfl
      · cases he
  | @cons c c' e n ns hstep _ ih =>
      rcases c with ⟨_ | ⟨⟨m, r⟩, s⟩⟩
      · cases hstep
      · simp only [next?, Option.some.injEq, Prod.mk.injEq] at hstep
        obtain ⟨rfl, rfl⟩ := hstep
        rw [ih he, upcoming_pushSpine]
        rfl

theorem length_nodes (t : Tree α) : t.nodes.length = t.size := by
  induction t with
  | leaf =>
      rfl
  | node l n r ihl ihr =>
      simp [ihl, ihr, size]
      omega

/-- The in-order walk of a tree ends, and every run of it to its end gives the nodes of the tree
from left to right, `l.nodes ++ n :: r.nodes` for a node `n` between `l` and `r`: each of the
`size` nodes once. Draining the walk gives the same list. -/
theorem walk_yields_nodes (t : Tree α) :
    (start t).Yields t.nodes done ∧
      (∀ ns e, (start t).Yields ns e → e.next? = none → ns = t.nodes) ∧
      t.nodes.length = t.size ∧ (start t).drain = t.nodes := by
  refine ⟨upcoming_start t ▸ yields_upcoming (start t), fun ns e h he => ?_, length_nodes t,
    drain_start t⟩
  rw [h.eq_upcoming he, upcoming_start]

end Cursor

end Tree
end IntervalIndex
