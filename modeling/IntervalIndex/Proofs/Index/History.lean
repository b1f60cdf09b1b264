import IntervalIndex.Proofs.Index.Invariant

/-!
# The listing is the stable sort of the history

`Index.items` lists the stored intervals in the order of the tree. The main statement,
`items_run_eq_mergeSort`, says what that order is: the intervals accepted since the index was
last emptied, sorted by start with a stable sort, so that intervals of equal start keep their
order of arrival.

The argument uses the node numbers. A node's number is the position of its interval in the
history, and the in-order entries are ordered by start and then by number: that is the order in
which `List.mergeSort` sorts a list numbered by `List.zipIdx`. Two lists ordered so and holding
the same numbered entries are equal, since no two entries share a number.
-/

namespace IntervalIndex

namespace Interval

variable {α : Type}

theorem startLE_trans (a b c : Interval α) (hab : startLE a b = true) (hbc : startLE b c = true) :
    startLE a c = true := by
  simp only [startLE, decide_eq_true_eq] at hab hbc ⊢
  exact Std.le_trans hab hbc

theorem startLE_total (a b : Interval α) : (startLE a b || startLE b a) = true := by
  simp only [startLE, Bool.or_eq_true, decide_eq_true_eq]
  exact Std.le_total

end Interval

namespace Index

variable {α : Type}

private theorem eq_of_mem_zipIdx {hist : List (Interval α)} {a b : Interval α × Nat}
    (ha : a ∈ hist.zipIdx) (hb : b ∈ hist.zipIdx) (hab : a.2 = b.2) : a = b := by
  rcases a with ⟨x, i⟩
  rcases b with ⟨y, j⟩
  simp only at hab
  subst hab
  rcases List.mem_zipIdx' ha with ⟨-, hx⟩
  rcases List.mem_zipIdx' hb with ⟨-, hy⟩
  rw [hx, hy]

theorem Stores.entries_eq_mergeSort {ix : Index α} {hist : List (Interval α)}
    (h : ix.Stores hist) :
    ix.tree.entries = hist.zipIdx.mergeSort (List.zipIdxLE Interval.startLE) := by
  have hperm := h.entries_perm.trans
    (List.mergeSort_perm hist.zipIdx (List.zipIdxLE Interval.startLE)).symm
  apply hperm.eq_of_pairwise _ h.ordered
  · exact List.pairwise_mergeSort (List.zipIdxLE_trans Interval.startLE_trans)
      (List.zipIdxLE_total Interval.startLE_total) _
  · intro a b ha hb hab hba
    have ha' : a ∈ hist.zipIdx := h.entries_perm.subset ha
    have hb' : b ∈ hist.zipIdx := List.mem_mergeSort.mp hb
    apply eq_of_mem_zipIdx ha' hb'
    have h1 := Interval.zipIdxLE_startLE.mp hab
    have h2 := Interval.zipIdxLE_startLE.mp hba
    simp only [UInt32.lt_iff_toNat_lt, ← UInt32.toNat_inj] at h1 h2
    omega

/-- Listing a reachable index gives the intervals accepted since it was last emptied, sorted by
start with a stable sort; the index counts exactly those intervals. -/
theorem items_run_eq_mergeSort (bits : Nat) (cmds : List (Command α)) :
    let ix := (ofWidth bits).run cmds
    let hist := (ofWidth bits).accepted [] cmds
    ix.items = hist.mergeSort Interval.startLE ∧ ix.size = hist.length := by
  intro ix hist
  have hst : ix.Stores hist := stores_run bits cmds
  constructor
  · rw [items_eq_toList, ← Tree.map_fst_entries, hst.entries_eq_mergeSort]
    exact List.mergeSort_zipIdx
  · exact hst.size_eq

end Index

end IntervalIndex
