import IntervalIndex.Tree.Basic

/-!
# Walking a tree in order

A cursor holds the nodes still to be visited, each with the right subtree that comes after it,
the next one first. It starts with the left spine of the tree; each step takes the first node and
replaces it by the left spine of its right subtree. The walk visits every node once, in order.
-/

namespace IntervalIndex

namespace Tree

variable {α : Type}

/-- A position in an in-order walk: the nodes still to be visited, each paired with the right
subtree that follows it. -/
structure Cursor (α : Type) where
  pending : List (Node α × Tree α)

namespace Cursor

/-- Puts the left spine of `t` in front of `s`, its lowest node first. -/
def pushSpine : Tree α → List (Node α × Tree α) → List (Node α × Tree α)
  | leaf, s => s
  | node l n r, s => pushSpine l ((n, r) :: s)

/-- The walk of `t` before its first step. -/
def start (t : Tree α) : Cursor α := ⟨pushSpine t []⟩

/-- The next node and the cursor after it, or `none` at the end of the walk. -/
def next? (c : Cursor α) : Option (Node α × Cursor α) :=
  match c.pending with
  | [] => none
  | (n, r) :: s => some (n, ⟨pushSpine r s⟩)

/-- The number of nodes in the pending entries: each node with the subtree that follows it. -/
def weight : List (Node α × Tree α) → Nat
  | [] => 0
  | e :: s => e.2.size + 1 + weight s

/-- The number of nodes the walk has still to visit. -/
def remaining (c : Cursor α) : Nat := weight c.pending

theorem remaining_pushSpine (t : Tree α) (s : List (Node α × Tree α)) :
    remaining ⟨pushSpine t s⟩ = t.size + remaining ⟨s⟩ := by
  induction t generalizing s with
  | leaf => simp [pushSpine, size]
  | node l n r ihl ihr =>
    rw [pushSpine, ihl]
    simp only [remaining, weight, size]
    omega

/-- Appends to `acc` every node the walk has still to visit, in the order of the walk. -/
def drainInto : Cursor α → Array (Node α) → Array (Node α)
  | ⟨[]⟩, acc => acc
  | ⟨(n, r) :: s⟩, acc => drainInto ⟨pushSpine r s⟩ (acc.push n)
termination_by c => c.remaining
decreasing_by
  rw [remaining_pushSpine]
  simp only [remaining, weight]
  omega

/-- Every node the walk has still to visit, in the order of the walk. -/
def drain (c : Cursor α) : List (Node α) := (c.drainInto #[]).toList

end Cursor

end Tree

end IntervalIndex
