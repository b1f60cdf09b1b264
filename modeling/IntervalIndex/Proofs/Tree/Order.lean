import IntervalIndex.Proofs.Tree.Balance

/-!
# The order of a tree through insertion

`Tree.entries` lists the stored intervals from left to right, each with the sequence number of
its node. Rebuilding a node, painting it, rotating an edge and raising bounds leave this list as it
is, so the repairs of `settleLeft` and `settleRight` never reorder it.

The main statement is `Tree.place_entries`: in a tree sorted by start, `place` puts the new
entry right after every entry whose start is at most the new start and right before every
entry whose start is greater. That is the upper-bound position, which keeps intervals of equal
start in their order of arrival.
-/

namespace IntervalIndex
namespace Tree

variable {α : Type}

/-- The stored intervals from left to right, each with the sequence number of its node. -/
def entries : Tree α → List (Interval α × Nat)
  | leaf => []
  | node l n r => l.entries ++ (n.interval, n.seq) :: r.entries

/-- The in-order intervals are sorted by start. -/
def Sorted (t : Tree α) : Prop :=
  t.toList.Pairwise fun a b => a.lo ≤ b.lo

@[simp] theorem entries_leaf : (leaf : Tree α).entries = [] := rfl

@[simp] theorem entries_node (l : Tree α) (n : Node α) (r : Tree α) :
    (node l n r).entries = l.entries ++ (n.interval, n.seq) :: r.entries := rfl

@[simp] theorem entries_join (l : Tree α) (n : Node α) (r : Tree α) :
    (join l n r).entries = l.entries ++ (n.interval, n.seq) :: r.entries := rfl

@[simp] theorem entries_paint (c : Color) (t : Tree α) : (paint c t).entries = t.entries := by
  cases t <;> rfl

@[simp] theorem entries_rotateLeft (t : Tree α) : t.rotateLeft.entries = t.entries := by
  unfold rotateLeft
  split <;> simp

@[simp] theorem entries_rotateRight (t : Tree α) : t.rotateRight.entries = t.entries := by
  unfold rotateRight
  split <;> simp

theorem map_fst_entries (t : Tree α) : t.entries.map Prod.fst = t.toList := by
  induction t with
  | leaf =>
      rfl
  | node l n r ihl ihr =>
      simp [ihl, ihr]

theorem map_snd_entries (t : Tree α) : t.entries.map Prod.snd = t.nodes.map (·.seq) := by
  induction t with
  | leaf =>
      rfl
  | node l n r ihl ihr =>
      simp [nodes, ihl, ihr]

theorem numbers_eq_map_snd_entries (t : Tree α) : t.numbers = t.entries.map Prod.snd :=
  (map_snd_entries t).symm

theorem entries_eq_map_nodes (t : Tree α) :
    t.entries = t.nodes.map fun n => (n.interval, n.seq) := by
  induction t with
  | leaf =>
      rfl
  | node l n r ihl ihr =>
      simp [ihl, ihr]

theorem length_entries (t : Tree α) : t.entries.length = t.size := by
  rw [← length_toList, ← map_fst_entries, List.length_map]

theorem mem_toList_of_mem_entries {t : Tree α} {e : Interval α × Nat} (h : e ∈ t.entries) :
    e.1 ∈ t.toList := by
  rw [← map_fst_entries]
  exact List.mem_map_of_mem h

/-!
## Repairs keep the order
-/

@[simp] theorem entries_settleLeft (l : Tree α) (rep : Repair) (n : Node α) (r : Tree α) :
    (settleLeft l rep n r).1.entries = l.entries ++ (n.interval, n.seq) :: r.entries := by
  cases rep with
  | settled =>
      simp [settleLeft]
  | redTop =>
      simp [settleLeft]
  | redPair side =>
      cases side <;> by_cases hr : r.isRed <;> simp [settleLeft, hr]

@[simp] theorem entries_settleRight (l : Tree α) (n : Node α) (r : Tree α) (rep : Repair) :
    (settleRight l n r rep).1.entries = l.entries ++ (n.interval, n.seq) :: r.entries := by
  cases rep with
  | settled =>
      simp [settleRight]
  | redTop =>
      simp [settleRight]
  | redPair side =>
      cases side <;> by_cases hl : l.isRed <;> simp [settleRight, hl]

@[simp] theorem entries_absorbAbove (k : Nat) (v : UInt32) (t : Tree α) :
    (t.absorbAbove k v).entries = t.entries := by
  induction t with
  | leaf =>
      rfl
  | node l n r ihl ihr =>
      simp [absorbAbove, apply_ite entries, ihl, ihr]

@[simp] theorem numbers_paint (c : Color) (t : Tree α) : (paint c t).numbers = t.numbers := by
  simp [numbers_eq_map_snd_entries]

@[simp] theorem numbers_rotateLeft (t : Tree α) : t.rotateLeft.numbers = t.numbers := by
  simp [numbers_eq_map_snd_entries]

@[simp] theorem numbers_rotateRight (t : Tree α) : t.rotateRight.numbers = t.numbers := by
  simp [numbers_eq_map_snd_entries]

@[simp] theorem numbers_absorbAbove (k : Nat) (v : UInt32) (t : Tree α) :
    (t.absorbAbove k v).numbers = t.numbers := by
  simp [numbers_eq_map_snd_entries]

@[simp] theorem toList_absorbAbove (k : Nat) (v : UInt32) (t : Tree α) :
    (t.absorbAbove k v).toList = t.toList := by
  simp [← map_fst_entries]

theorem entries_insert (t : Tree α) (seq : Nat) (iv : Interval α) :
    (t.insert seq iv).entries = (place ⟨seq, .red, iv, iv.hi⟩ t).1.entries := by
  simp [Tree.insert]

theorem entries_place_perm (k : Node α) (t : Tree α) :
    (place k t).1.entries.Perm ((k.interval, k.seq) :: t.entries) := by
  induction t with
  | leaf =>
      simp [place]
  | node l n r ihl ihr =>
      by_cases hk : k.interval.lo < n.interval.lo
      · simp only [place, hk, if_true, entries_settleLeft, entries_node]
        exact ihl.append_right _
      · simp only [place, hk, if_false, entries_settleRight, entries_node]
        refine ((ihr.cons _).append_left _).trans ?_
        simpa using @List.perm_middle _ (k.interval, k.seq) (l.entries ++ [(n.interval, n.seq)])
          r.entries

theorem toList_place_perm (k : Node α) (t : Tree α) :
    (place k t).1.toList.Perm (k.interval :: t.toList) := by
  simpa [map_fst_entries] using (entries_place_perm k t).map Prod.fst

theorem numbers_place_perm (k : Node α) (t : Tree α) :
    (place k t).1.numbers.Perm (k.seq :: t.numbers) := by
  simpa [← numbers_eq_map_snd_entries] using (entries_place_perm k t).map Prod.snd

theorem seq_mem_numbers_place (k : Node α) (t : Tree α) : k.seq ∈ (place k t).1.numbers :=
  (numbers_place_perm k t).mem_iff.mpr List.mem_cons_self

theorem mem_entries_of_mem_nodes {t : Tree α} {m : Node α} (hm : m ∈ t.nodes) :
    (m.interval, m.seq) ∈ t.entries := by
  rw [entries_eq_map_nodes]
  exact List.mem_map_of_mem hm

theorem place_node_of_lt (k : Node α) {l r : Tree α} {n : Node α}
    (hk : k.interval.lo < n.interval.lo) :
    place k (node l n r) = settleLeft (place k l).1 (place k l).2 n r := by
  rw [place, if_pos hk]

theorem place_node_of_not_lt (k : Node α) {l r : Tree α} {n : Node α}
    (hk : ¬k.interval.lo < n.interval.lo) :
    place k (node l n r) = settleRight l n (place k r).1 (place k r).2 := by
  rw [place, if_neg hk]

/-!
## Looking up a node by its number
-/

theorem lookup_eq_none {t : Tree α} {k : Nat} (h : k ∉ t.numbers) : t.lookup k = none := by
  induction t with
  | leaf =>
      rfl
  | node l n r ihl ihr =>
      simp only [numbers_node, List.mem_append, List.mem_cons, not_or] at h
      rw [lookup, if_neg (Ne.symm h.2.1), ihl h.1, ihr h.2.2]
      rfl

theorem lookup_spec {t : Tree α} {k : Nat} {m : Node α} (h : t.lookup k = some m) :
    m ∈ t.nodes ∧ m.seq = k := by
  induction t with
  | leaf =>
      cases h
  | node l n r ihl ihr =>
      rw [lookup] at h
      split at h
      · cases h
        exact ⟨by simp, by assumption⟩
      · cases hl : l.lookup k with
        | some m' =>
            rw [hl, Option.some_or] at h
            cases h
            exact ⟨by simp [(ihl hl).1], (ihl hl).2⟩
        | none =>
            rw [hl, Option.none_or] at h
            exact ⟨by simp [(ihr h).1], (ihr h).2⟩

theorem exists_lookup_eq_some {t : Tree α} {k : Nat} (h : k ∈ t.numbers) :
    ∃ m, t.lookup k = some m := by
  induction t with
  | leaf =>
      cases h
  | node l n r ihl ihr =>
      rw [lookup]
      by_cases hn : n.seq = k
      · exact ⟨n, if_pos hn⟩
      rw [if_neg hn]
      by_cases hl : k ∈ l.numbers
      · obtain ⟨m, hm⟩ := ihl hl
        exact ⟨m, by rw [hm, Option.some_or]⟩
      · have hr : k ∈ r.numbers := by
          simp only [numbers_node, List.mem_append, List.mem_cons] at h
          rcases h with h | h | h
          · exact absurd h hl
          · exact absurd h.symm hn
          · exact h
        obtain ⟨m, hm⟩ := ihr hr
        exact ⟨m, by rw [lookup_eq_none hl, Option.none_or, hm]⟩

theorem eq_of_seq_eq {t : Tree α} (hnd : t.numbers.Nodup) {m m' : Node α} (hm : m ∈ t.nodes)
    (hm' : m' ∈ t.nodes) (h : m.seq = m'.seq) : m = m' :=
  List.inj_on_of_nodup_map hnd hm hm' h

/-!
## Sorted trees
-/

theorem Sorted.left {l : Tree α} {n : Node α} {r : Tree α} (h : (node l n r).Sorted) :
    l.Sorted :=
  (List.pairwise_append.mp h).1

theorem Sorted.right {l : Tree α} {n : Node α} {r : Tree α} (h : (node l n r).Sorted) :
    r.Sorted :=
  (List.pairwise_cons.mp (List.pairwise_append.mp h).2.1).2

theorem Sorted.le_top {l : Tree α} {n : Node α} {r : Tree α} (h : (node l n r).Sorted)
    {x : Interval α} (hx : x ∈ l.toList) : x.lo ≤ n.interval.lo :=
  (List.pairwise_append.mp h).2.2 x hx n.interval List.mem_cons_self

theorem Sorted.top_le {l : Tree α} {n : Node α} {r : Tree α} (h : (node l n r).Sorted)
    {x : Interval α} (hx : x ∈ r.toList) : n.interval.lo ≤ x.lo :=
  (List.pairwise_cons.mp (List.pairwise_append.mp h).2.1).1 x hx

theorem place_entries (k : Node α) {t : Tree α} (ht : t.Sorted) :
    ∃ A B, t.entries = A ++ B ∧ (place k t).1.entries = A ++ (k.interval, k.seq) :: B ∧
      (∀ e ∈ A, e.1.lo ≤ k.interval.lo) ∧ (∀ e ∈ B, k.interval.lo < e.1.lo) := by
  induction t with
  | leaf =>
      exact ⟨[], [], rfl, by simp [place], by simp, by simp⟩
  | node l n r ihl ihr =>
      by_cases hk : k.interval.lo < n.interval.lo
      · rcases ihl ht.left with ⟨A, B, hA, hB, hAk, hBk⟩
        refine ⟨A, B ++ (n.interval, n.seq) :: r.entries, by simp [hA], ?_, hAk, ?_⟩
        · simp [place, hk, hB]
        · intro e he
          simp only [List.mem_append, List.mem_cons] at he
          rcases he with he | rfl | he
          · exact hBk e he
          · exact hk
          · exact Std.lt_of_lt_of_le hk (ht.top_le (mem_toList_of_mem_entries he))
      · have hnk : n.interval.lo ≤ k.interval.lo := Std.not_lt.mp hk
        rcases ihr ht.right with ⟨A, B, hA, hB, hAk, hBk⟩
        refine ⟨l.entries ++ (n.interval, n.seq) :: A, B, by simp [hA], ?_, ?_, hBk⟩
        · simp [place, hk, hB]
        · intro e he
          simp only [List.mem_append, List.mem_cons] at he
          rcases he with he | rfl | he
          · exact Std.le_trans (ht.le_top (mem_toList_of_mem_entries he)) hnk
          · exact hnk
          · exact hAk e he

/-- Inserting into a sorted tree adds one entry, numbered `seq`, and keeps every other. -/
theorem entries_insert_perm {t : Tree α} (ht : t.Sorted) (seq : Nat) (iv : Interval α) :
    (t.insert seq iv).entries.Perm (t.entries ++ [(iv, seq)]) := by
  rcases place_entries ⟨seq, .red, iv, iv.hi⟩ ht with ⟨A, B, hAB, hnew, -, -⟩
  rw [entries_insert, hnew, hAB]
  exact List.perm_middle.trans (List.perm_append_singleton _ _).symm

end Tree
end IntervalIndex
