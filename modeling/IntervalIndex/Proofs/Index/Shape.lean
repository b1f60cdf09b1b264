import IntervalIndex.Proofs.Index.Invariant

/-!
# The shape of every reachable arena

Two consequences of `Index.Stores` for the arena of every index reachable from an empty one.

* `summary_eq_maxEnd_of_run`: the bound kept at every position is the greatest upper bound
  among the intervals of the subtree read from that position, exactly. Adding leaves stale
  bounds on the way up (`Tree.Stale`) and raises them afterwards along the parent links of the
  new node; `Tree.MaxExact.insert` shows that this ends exact.
* `arena_run_redBlack`: the links form a red-black tree over the positions of the arena. The
  root is empty exactly when the arena is, has no parent and is black; every child link leads to
  a position whose parent link leads back; every link stays inside the arena; every position is
  reached from the root along exactly one path; and the tree read from the root is balanced,
  with height at most twice the logarithm of its size.
-/

namespace IntervalIndex

namespace Index

variable {α : Type}

namespace Stores

variable {ix : Index α} {hist : List (Interval α)}

theorem size_tree (h : ix.Stores hist) : ix.tree.size = ix.size := by
  rw [← Tree.length_entries, h.entries_perm.length_eq, List.length_zipIdx, h.size_eq]

theorem seqs_perm (h : ix.Stores hist) : (ix.tree.nodes.map (·.seq)).Perm (List.range ix.size) := by
  have hmap := h.entries_perm.map Prod.snd
  rw [Tree.map_snd_entries, List.zipIdx_map_snd, ← List.range_eq_range', ← h.size_eq] at hmap
  exact hmap

end Stores

/-- In every state reachable from an empty index, the bound kept at every position of the arena
is the greatest upper bound among the intervals of the subtree read from that position. -/
theorem summary_eq_maxEnd_of_run (bits : Nat) (cmds : List (Command α)) :
    let a := ((ofWidth bits).run cmds).arena
    ∀ i < a.size, a.summary i = (a.subtree a.size (some i)).maxEnd := by
  intro a i hi
  have hst : ((ofWidth bits).run cmds).Stores _ := stores_run bits cmds
  obtain ⟨u, hu, hsub, hsum⟩ := hst.represents.subtree_at hi
  rw [hsum, hsub]
  exact hst.maxExact u hu

theorem summary_eq_maxEnd_two_adds :
    let a := ((ofWidth 8).run [.add ⟨1, 5, "a"⟩, .add ⟨6, 10, "b"⟩]).arena
    0 < a.size ∧ a.summary 0 = 10 ∧ a.summary 0 = (a.subtree a.size (some 0)).maxEnd := by
  intro a
  have hpos : 0 < a.size := by decide
  exact ⟨hpos, by decide, summary_eq_maxEnd_of_run 8 _ 0 hpos⟩

/-- In every state reachable from an empty index, the links of the arena form a red-black tree
over its positions: the root is empty exactly when the arena is, has no parent and is black;
every child link leads to a position whose parent link leads back; every link stays inside the
arena; each position is reached from the root along exactly one path; and the tree read from the
root is balanced with a black top, its height at most twice the logarithm of its size. -/
theorem arena_run_redBlack (bits : Nat) (cmds : List (Command α)) :
    let a := ((ofWidth bits).run cmds).arena
    (a.root = none ↔ a.size = 0) ∧
      (∀ r, a.root = some r → a.parent r = none ∧ a.isBlack r = true) ∧
      (∀ side i j, a.child side i = some j → i < a.size ∧ j < a.size ∧ a.parent j = some i) ∧
      (∀ i j, a.parent i = some j → i < a.size ∧ j < a.size) ∧
      (∀ i < a.size, ∃! path, a.follow a.root path = some i) ∧
      (∃ h, a.tree.Balanced .black h) ∧
      a.tree.height ≤ 2 * Nat.log 2 (a.size + 1) := by
  intro a
  have hst : ((ofWidth bits).run cmds).Stores _ := stores_run bits cmds
  have hrep : a.Represents a.tree := hst.represents
  obtain ⟨h, hb⟩ : ∃ h, a.tree.Balanced .black h := hst.balanced
  refine ⟨hrep.root_eq_none_iff, ?_, fun _ _ _ => hrep.child_link, fun _ _ => hrep.parent_link,
    fun _ => hrep.existsUnique_follow, ⟨h, hb⟩, ?_⟩
  · intro r hr
    refine ⟨hrep.parent_root hr, ?_⟩
    have hlink := hrep.linked
    obtain ⟨t, ht⟩ : ∃ t, a.tree = t := ⟨_, rfl⟩
    rw [hr, ht] at hlink
    rw [ht] at hb
    cases hb with
    | leaf =>
        cases hlink
    | black hc _ _ =>
        obtain rfl := Option.some.inj hlink.1
        rw [hlink.isBlack_top, hc]
        rfl
  · have hheight := hb.height_le_log
    rwa [← hrep.size_eq] at hheight

theorem arena_run_redBlack_three_adds :
    let a := ((ofWidth 8).run [.add ⟨1, 5, "a"⟩, .add ⟨6, 10, "b"⟩, .add ⟨8, 20, "c"⟩]).arena
    a.root = some 1 ∧ a.parent 1 = none ∧ a.isBlack 1 = true ∧ a.child .left 1 = some 0 ∧
      a.parent 0 = some 1 ∧ ∃! path, a.follow a.root path = some 2 := by
  intro a
  obtain ⟨-, hroot, hchild, -, hpath, -⟩ :=
    arena_run_redBlack 8 [.add ⟨1, 5, "a"⟩, .add ⟨6, 10, "b"⟩, .add ⟨8, 20, "c"⟩]
  have hr : a.root = some 1 := by decide
  have hc : a.child .left 1 = some 0 := by decide
  exact ⟨hr, (hroot 1 hr).1, (hroot 1 hr).2, hc, (hchild _ _ _ hc).2.2, hpath 2 (by decide)⟩

end Index

end IntervalIndex
