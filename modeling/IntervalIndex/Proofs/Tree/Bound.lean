import IntervalIndex.Proofs.Tree.Order

/-!
# Exact subtree bounds

Every node carries a bound that is meant to be the greatest upper bound among the intervals of
its subtree. `Tree.maxEnd` computes that value from the in-order list, and `Tree.MaxExact`
says that the bound of every node equals it.

An insertion does not keep the bounds exact on its way. The nodes above the new one keep the
bounds they had, which miss the new interval, and a rotation recomputes the two nodes it moves
from children whose bounds may miss it too. What holds meanwhile is `Tree.Stale`: every bound
lies between the greatest upper bound of its subtree without the new interval and the greatest
one with it (`Tree.Bracket`), and every node's bound covers its own interval. Rebuilding,
painting and rotating keep it (`Tree.Stale.place`). The new node's own bound is then exact, and
raising every node above it to that bound closes the gap (`Tree.Stale.absorbAbove`), so that
insertion into an exact tree gives an exact tree (`Tree.MaxExact.insert`).
-/

namespace IntervalIndex

theorem toNat_max (a b : UInt32) : (max a b).toNat = max a.toNat b.toNat := by
  show (if a ≤ b then b else a).toNat = _
  split <;> rename_i h <;> simp only [UInt32.le_iff_toNat_le] at h <;> omega

theorem UInt32.max_assoc (a b c : UInt32) : max (max a b) c = max a (max b c) := by
  apply UInt32.toNat.inj
  simp only [toNat_max]
  omega

namespace Tree

variable {α : Type}

/-- The greatest upper bound among the intervals of the tree, `0` for the empty tree. -/
def maxEnd (t : Tree α) : UInt32 :=
  t.toList.foldr (fun iv m => max iv.hi m) 0

/-- The subtrees rooted at the nodes of the tree, the whole tree first. -/
def subtrees : Tree α → List (Tree α)
  | leaf => []
  | node l n r => node l n r :: (l.subtrees ++ r.subtrees)

/-- The bound of every node is the greatest upper bound of its subtree. -/
def MaxExact (t : Tree α) : Prop :=
  ∀ s ∈ t.subtrees, s.maxHi = s.maxEnd

@[simp] theorem subtrees_leaf : (leaf : Tree α).subtrees = [] := rfl

@[simp] theorem subtrees_node (l : Tree α) (n : Node α) (r : Tree α) :
    (node l n r).subtrees = node l n r :: (l.subtrees ++ r.subtrees) := rfl

theorem self_mem_subtrees {t : Tree α} (h : t.size ≠ 0) : t ∈ t.subtrees := by
  cases t with
  | leaf =>
      exact absurd rfl h
  | node l n r =>
      exact List.mem_cons_self

@[simp] theorem maxHi_leaf : (leaf : Tree α).maxHi = 0 := rfl

@[simp] theorem maxHi_node (l : Tree α) (n : Node α) (r : Tree α) :
    (node l n r).maxHi = n.maxHi := rfl

/-!
## The greatest upper bound
-/

private theorem foldr_max_hi (xs : List (Interval α)) (m : UInt32) :
    xs.foldr (fun iv m => max iv.hi m) m = max (xs.foldr (fun iv m => max iv.hi m) 0) m := by
  induction xs with
  | nil =>
      apply UInt32.toNat.inj
      simp [toNat_max]
  | cons x xs ih =>
      apply UInt32.toNat.inj
      simp only [List.foldr_cons, ih, toNat_max]
      omega

@[simp] theorem maxEnd_leaf : (leaf : Tree α).maxEnd = 0 := rfl

theorem maxEnd_node (l : Tree α) (n : Node α) (r : Tree α) :
    (node l n r).maxEnd = max n.interval.hi (max l.maxEnd r.maxEnd) := by
  apply UInt32.toNat.inj
  simp only [maxEnd, toList_node, List.foldr_append, List.foldr_cons]
  rw [foldr_max_hi l.toList]
  simp only [toNat_max]
  omega

theorem maxEnd_eq_of_perm {s u : Tree α} (h : s.toList.Perm u.toList) : s.maxEnd = u.maxEnd := by
  unfold maxEnd
  apply h.foldr_eq'
  intro x _ y _ m
  apply UInt32.toNat.inj
  simp only [toNat_max]
  omega

theorem toNat_maxEnd_of_perm_cons {s u : Tree α} {iv : Interval α}
    (h : s.toList.Perm (iv :: u.toList)) :
    s.maxEnd.toNat = max iv.hi.toNat u.maxEnd.toNat := by
  unfold maxEnd
  rw [h.foldr_eq' (fun x _ y _ m => UInt32.toNat.inj (by simp only [toNat_max]; omega)),
    List.foldr_cons, toNat_max]

theorem hi_le_maxEnd {t : Tree α} {iv : Interval α} (h : iv ∈ t.toList) : iv.hi ≤ t.maxEnd := by
  induction t with
  | leaf =>
      cases h
  | node l n r ihl ihr =>
      simp only [toList_node, List.mem_append, List.mem_cons] at h
      rw [maxEnd_node, UInt32.le_iff_toNat_le, toNat_max, toNat_max]
      rcases h with h | rfl | h
      · have := UInt32.le_iff_toNat_le.mp (ihl h)
        omega
      · omega
      · have := UInt32.le_iff_toNat_le.mp (ihr h)
        omega

theorem exists_le_hi_of_le_maxEnd {t : Tree α} {x : UInt32} (ht : t ≠ leaf) (hx : x ≤ t.maxEnd) :
    ∃ iv ∈ t.toList, x ≤ iv.hi := by
  induction t with
  | leaf =>
      exact absurd rfl ht
  | node l n r ihl ihr =>
      by_cases hn : x ≤ n.interval.hi
      · exact ⟨n.interval, by simp, hn⟩
      rw [maxEnd_node, UInt32.le_iff_toNat_le, toNat_max, toNat_max] at hx
      rw [UInt32.le_iff_toNat_le] at hn
      have hlr : x.toNat ≤ l.maxEnd.toNat ∨ x.toNat ≤ r.maxEnd.toNat := by omega
      rcases hlr with hl | hr
      · have hne : l ≠ leaf := by
          rintro rfl
          simp at hl
          omega
        obtain ⟨iv, hiv, hle⟩ := ihl hne (UInt32.le_iff_toNat_le.mpr hl)
        exact ⟨iv, by simp [hiv], hle⟩
      · have hne : r ≠ leaf := by
          rintro rfl
          simp at hr
          omega
        obtain ⟨iv, hiv, hle⟩ := ihr hne (UInt32.le_iff_toNat_le.mpr hr)
        exact ⟨iv, by simp [hiv], hle⟩

theorem numbers_subset_of_mem_subtrees {s t : Tree α} (hs : s ∈ t.subtrees) :
    ∀ x ∈ s.numbers, x ∈ t.numbers := by
  induction t with
  | leaf =>
      cases hs
  | node l n r ihl ihr =>
      intro x hx
      simp only [subtrees_node, List.mem_cons, List.mem_append] at hs
      rcases hs with rfl | hs | hs
      · exact hx
      · simp [ihl hs x hx]
      · simp [ihr hs x hx]

/-!
## Exact trees
-/

theorem MaxExact.maxHi_eq {t : Tree α} (h : t.MaxExact) : t.maxHi = t.maxEnd := by
  cases t with
  | leaf =>
      rfl
  | node l n r =>
      exact h _ List.mem_cons_self

theorem MaxExact.left {l : Tree α} {n : Node α} {r : Tree α} (h : (node l n r).MaxExact) :
    l.MaxExact := by
  intro s hs
  exact h s (by simp [hs])

theorem MaxExact.right {l : Tree α} {n : Node α} {r : Tree α} (h : (node l n r).MaxExact) :
    r.MaxExact := by
  intro s hs
  exact h s (by simp [hs])

theorem MaxExact.leaf : (leaf : Tree α).MaxExact := by
  simp [MaxExact]

theorem MaxExact.node {l r : Tree α} {n : Node α} (hl : l.MaxExact) (hr : r.MaxExact)
    (htop : n.maxHi = (node l n r).maxEnd) : (node l n r).MaxExact := by
  intro s hs
  simp only [subtrees_node, List.mem_cons, List.mem_append] at hs
  rcases hs with rfl | hs | hs
  · exact htop
  · exact hl s hs
  · exact hr s hs

theorem MaxExact.hi_le {t : Tree α} (h : t.MaxExact) :
    ∀ n ∈ t.nodes, n.interval.hi.toNat ≤ n.maxHi.toNat := by
  induction t with
  | leaf =>
      simp
  | node l n r ihl ihr =>
      intro m hm
      simp only [nodes_node, List.mem_append, List.mem_cons] at hm
      rcases hm with hm | rfl | hm
      · exact ihl h.left m hm
      · have htop := h.maxHi_eq
        rw [maxHi_node, maxEnd_node] at htop
        rw [htop, toNat_max]
        omega
      · exact ihr h.right m hm

/-!
## Bounds during an insertion

Below, the interval being inserted is numbered `z` and ends at `e`.
-/

section Stale

variable (z : Nat) (e : UInt32)

/-- `e` where the tree holds the node numbered `z`, `0` elsewhere. -/
def newEnd (s : Tree α) : Nat := if z ∈ s.numbers then e.toNat else 0

/-- The bound of `s` is at most the greatest upper bound of its intervals, and falls short of it
only where the new interval reaches higher. -/
def Bracket (s : Tree α) : Prop :=
  s.maxHi.toNat ≤ s.maxEnd.toNat ∧ s.maxEnd.toNat ≤ max s.maxHi.toNat (newEnd z e s)

/-- The bounds of a tree while the interval numbered `z`, ending at `e`, is inserted: every
subtree is bracketed and every node's bound covers its own interval. -/
structure Stale (t : Tree α) : Prop where
  bracket : ∀ s ∈ t.subtrees, Bracket z e s
  own : ∀ n ∈ t.nodes, n.interval.hi.toNat ≤ n.maxHi.toNat

variable {z e}

theorem newEnd_le {s u : Tree α} (h : ∀ x ∈ s.numbers, x ∈ u.numbers) :
    newEnd z e s ≤ newEnd z e u := by
  unfold newEnd
  by_cases hs : z ∈ s.numbers
  · simp [hs, h z hs]
  · simp [hs]

theorem Bracket.leaf : Bracket z e (leaf : Tree α) := by
  simp [Bracket]

theorem Bracket.of_exact {s : Tree α} (h : s.maxHi = s.maxEnd) : Bracket z e s := by
  unfold Bracket
  rw [h]
  omega

theorem Bracket.exact {s : Tree α} (h : Bracket z e s) (hz : z ∉ s.numbers) :
    s.maxHi = s.maxEnd := by
  unfold Bracket newEnd at h
  rw [if_neg hz] at h
  apply UInt32.toNat.inj
  omega

theorem Bracket.join {l r : Tree α} (hl : Bracket z e l) (hr : Bracket z e r) (n : Node α) :
    Bracket z e (Tree.join l n r) := by
  have hzl : newEnd z e l ≤ newEnd z e (Tree.join l n r) :=
    newEnd_le fun x hx => by simp [Tree.join, hx]
  have hzr : newEnd z e r ≤ newEnd z e (Tree.join l n r) :=
    newEnd_le fun x hx => by simp [Tree.join, hx]
  have hhi : (Tree.join l n r).maxHi = max n.interval.hi (max l.maxHi r.maxHi) := rfl
  have hend : (Tree.join l n r).maxEnd = max n.interval.hi (max l.maxEnd r.maxEnd) :=
    maxEnd_node l _ r
  unfold Bracket at hl hr ⊢
  rw [hhi, hend]
  simp only [toNat_max]
  omega

theorem Bracket.of_old {s u : Tree α} {iv : Interval α} (hiv : iv.hi = e)
    (hperm : s.toList.Perm (iv :: u.toList)) (hold : s.maxHi = u.maxEnd) (hz : z ∈ s.numbers) :
    Bracket z e s := by
  have hend := toNat_maxEnd_of_perm_cons hperm
  unfold Bracket newEnd
  rw [if_pos hz, hend, hold, hiv]
  omega

theorem Stale.bracket_self {t : Tree α} (h : Stale z e t) : Bracket z e t := by
  cases t with
  | leaf =>
      exact Bracket.leaf
  | node l n r =>
      exact h.bracket _ List.mem_cons_self

theorem Stale.left {l r : Tree α} {n : Node α} (h : Stale z e (node l n r)) : Stale z e l :=
  ⟨fun s hs => h.bracket s (by simp [hs]), fun m hm => h.own m (by simp [hm])⟩

theorem Stale.right {l r : Tree α} {n : Node α} (h : Stale z e (node l n r)) : Stale z e r :=
  ⟨fun s hs => h.bracket s (by simp [hs]), fun m hm => h.own m (by simp [hm])⟩

theorem Stale.node {l r : Tree α} {n : Node α} (hl : Stale z e l) (hr : Stale z e r)
    (htop : Bracket z e (Tree.node l n r)) (hown : n.interval.hi.toNat ≤ n.maxHi.toNat) :
    Stale z e (Tree.node l n r) := by
  constructor
  · intro s hs
    simp only [subtrees_node, List.mem_cons, List.mem_append] at hs
    rcases hs with rfl | hs | hs
    · exact htop
    · exact hl.bracket s hs
    · exact hr.bracket s hs
  · intro m hm
    simp only [nodes_node, List.mem_append, List.mem_cons] at hm
    rcases hm with hm | rfl | hm
    · exact hl.own m hm
    · exact hown
    · exact hr.own m hm

theorem MaxExact.stale {t : Tree α} (h : t.MaxExact) : Stale z e t :=
  ⟨fun s hs => .of_exact (h s hs), h.hi_le⟩

theorem Stale.join {l r : Tree α} (hl : Stale z e l) (hr : Stale z e r) (n : Node α) :
    Stale z e (Tree.join l n r) := by
  refine .node hl hr (hl.bracket_self.join hr.bracket_self n) ?_
  simp only [toNat_max]
  omega

theorem Stale.paint {t : Tree α} (h : Stale z e t) (c : Color) : Stale z e (t.paint c) := by
  cases t with
  | leaf =>
      exact h
  | node l n r =>
      refine .node h.left h.right ?_ (h.own n (by simp))
      have htop := h.bracket_self
      unfold Bracket newEnd at htop ⊢
      simpa [maxEnd_node] using htop

theorem Stale.rotateLeft {t : Tree α} (h : Stale z e t) : Stale z e t.rotateLeft := by
  unfold Tree.rotateLeft
  split
  · exact (h.left.join h.right.left _).join h.right.right _
  · exact h

theorem Stale.rotateRight {t : Tree α} (h : Stale z e t) : Stale z e t.rotateRight := by
  unfold Tree.rotateRight
  split
  · exact h.left.left.join (h.left.right.join h.right _) _
  · exact h

theorem Stale.exact {t : Tree α} (h : Stale z e t) (hz : z ∉ t.numbers) : t.MaxExact := by
  intro s hs
  apply (h.bracket s hs).exact
  intro hzs
  exact hz (numbers_subset_of_mem_subtrees hs z hzs)

theorem Stale.node_of_old {X Y u : Tree α} {m : Node α} {iv : Interval α} (hX : Stale z e X)
    (hY : Stale z e Y) (hiv : iv.hi = e)
    (hperm : (X.toList ++ m.interval :: Y.toList).Perm (iv :: u.toList))
    (hold : m.maxHi = u.maxEnd) (hz : z ∈ X.numbers) (hown : m.interval.hi.toNat ≤ m.maxHi.toNat) :
    Stale z e (Tree.node X m Y) :=
  hX.node hY (Bracket.of_old hiv hperm hold (by simp [hz])) hown

theorem Stale.node_of_old' {X Y u : Tree α} {m : Node α} {iv : Interval α} (hX : Stale z e X)
    (hY : Stale z e Y) (hiv : iv.hi = e)
    (hperm : (X.toList ++ m.interval :: Y.toList).Perm (iv :: u.toList))
    (hold : m.maxHi = u.maxEnd) (hz : z ∈ Y.numbers) (hown : m.interval.hi.toNat ≤ m.maxHi.toNat) :
    Stale z e (Tree.node X m Y) :=
  hX.node hY (Bracket.of_old hiv hperm hold (by simp [hz])) hown

theorem Stale.settleLeft {L l r : Tree α} {n : Node α} {iv : Interval α} (rep : Repair)
    (hL : Stale z e L) (hr : Stale z e r) (hiv : iv.hi = e) (hperm : L.toList.Perm (iv :: l.toList))
    (hz : z ∈ L.numbers) (hold : n.maxHi = (Tree.node l n r).maxEnd)
    (hown : n.interval.hi.toNat ≤ n.maxHi.toNat) : Stale z e (Tree.settleLeft L rep n r).1 := by
  have hperm' : (L.toList ++ n.interval :: r.toList).Perm (iv :: (Tree.node l n r).toList) :=
    hperm.append_right _
  have hrot : ∀ X : Tree α, Stale z e X → X.toList = L.toList → z ∈ X.numbers →
      Stale z e (Tree.node (X.paint .black) { n with color := .red } r).rotateRight :=
    fun X hX hXl hXz =>
      ((hX.paint _).node_of_old (m := { n with color := .red }) hr hiv
        (by simpa [hXl] using hperm') hold (by simpa using hXz) hown).rotateRight
  cases rep with
  | settled =>
      exact hL.node_of_old hr hiv hperm' hold hz hown
  | redTop =>
      exact hL.node_of_old hr hiv hperm' hold hz hown
  | redPair side =>
      simp only [Tree.settleLeft]
      split
      · exact (hL.paint _).node_of_old (hr.paint _) hiv (by simpa using hperm') hold
          (by simpa using hz) hown
      · cases side with
        | left =>
            exact hrot L hL rfl hz
        | right =>
            exact hrot L.rotateLeft hL.rotateLeft (toList_rotateLeft L) (by simpa using hz)

theorem Stale.settleRight {l R r : Tree α} {n : Node α} {iv : Interval α} (rep : Repair)
    (hl : Stale z e l) (hR : Stale z e R) (hiv : iv.hi = e) (hperm : R.toList.Perm (iv :: r.toList))
    (hz : z ∈ R.numbers) (hold : n.maxHi = (Tree.node l n r).maxEnd)
    (hown : n.interval.hi.toNat ≤ n.maxHi.toNat) : Stale z e (Tree.settleRight l n R rep).1 := by
  have hperm' : (l.toList ++ n.interval :: R.toList).Perm (iv :: (Tree.node l n r).toList) := by
    exact (((hperm.cons n.interval).trans (List.Perm.swap iv n.interval r.toList)).append_left
      l.toList).trans List.perm_middle
  have hrot : ∀ X : Tree α, Stale z e X → X.toList = R.toList → z ∈ X.numbers →
      Stale z e (Tree.node l { n with color := .red } (X.paint .black)).rotateLeft :=
    fun X hX hXr hXz =>
      (hl.node_of_old' (m := { n with color := .red }) (hX.paint _) hiv
        (by simpa [hXr] using hperm') hold (by simpa using hXz) hown).rotateLeft
  cases rep with
  | settled =>
      exact hl.node_of_old' hR hiv hperm' hold hz hown
  | redTop =>
      exact hl.node_of_old' hR hiv hperm' hold hz hown
  | redPair side =>
      simp only [Tree.settleRight]
      split
      · exact (hl.paint _).node_of_old' (hR.paint _) hiv (by simpa using hperm') hold
          (by simpa using hz) hown
      · cases side with
        | right =>
            exact hrot R hR rfl hz
        | left =>
            exact hrot R.rotateRight hR.rotateRight (toList_rotateRight R) (by simpa using hz)

theorem Stale.place {t : Tree α} (h : t.MaxExact) (k : Node α) (hk : k.maxHi = k.interval.hi) :
    Stale k.seq k.interval.hi (Tree.place k t).1 := by
  induction t with
  | leaf =>
      refine MaxExact.stale (MaxExact.node MaxExact.leaf MaxExact.leaf ?_)
      apply UInt32.toNat.inj
      simp [maxEnd_node, hk, toNat_max]
  | node l n r ihl ihr =>
      have hold : n.maxHi = (Tree.node l n r).maxEnd := h.maxHi_eq
      have hown := h.hi_le n (by simp)
      by_cases hlt : k.interval.lo < n.interval.lo
      · rw [place_node_of_lt k hlt]
        exact .settleLeft _ (ihl h.left) h.right.stale rfl (toList_place_perm k l)
          (seq_mem_numbers_place k l) hold hown
      · rw [place_node_of_not_lt k hlt]
        exact .settleRight _ h.left.stale (ihr h.right) rfl (toList_place_perm k r)
          (seq_mem_numbers_place k r) hold hown

theorem maxEnd_absorbAbove (k : Nat) (v : UInt32) (t : Tree α) :
    (t.absorbAbove k v).maxEnd = t.maxEnd := by
  simp [maxEnd]

/-- Raising every node above the node numbered `z` to that node's bound `v` makes the bounds
exact; on the way up, `v` lies between `e` and the greatest upper bound of every subtree that
holds the new node. -/
theorem Stale.absorbAbove {t : Tree α} {v : UInt32} (h : Stale z e t) (hnd : t.numbers.Nodup)
    (hv : ∀ m ∈ t.nodes, m.seq = z → m.interval.hi = e ∧ m.maxHi = v) :
    (t.absorbAbove z v).MaxExact ∧
      (z ∈ t.numbers → e.toNat ≤ v.toNat ∧ v.toNat ≤ t.maxEnd.toNat) := by
  induction t with
  | leaf =>
      exact ⟨MaxExact.leaf, by simp⟩
  | node l n r ihl ihr =>
      simp only [numbers_node, List.nodup_append, List.nodup_cons, List.mem_cons] at hnd
      obtain ⟨hndl, ⟨hnr, hndr⟩, hlr⟩ := hnd
      obtain ⟨hexl, hupl⟩ := ihl h.left hndl fun m hm => hv m (by simp [hm])
      obtain ⟨hexr, hupr⟩ := ihr h.right hndr fun m hm => hv m (by simp [hm])
      have hown := h.own n (by simp)
      have hzin : ∀ hz : z ∈ (Tree.node l n r).numbers,
          n.maxHi.toNat ≤ (Tree.node l n r).maxEnd.toNat ∧
            (Tree.node l n r).maxEnd.toNat ≤ max n.maxHi.toNat e.toNat := by
        intro hz
        have htop := h.bracket_self
        unfold Bracket newEnd at htop
        rwa [if_pos hz] at htop
      by_cases hn : n.seq = z
      · subst hn
        have hzl : n.seq ∉ l.numbers := fun hz => hlr _ hz _ (.inl rfl) rfl
        obtain ⟨he, rfl⟩ := hv n (by simp) rfl
        obtain ⟨hlo, hhi⟩ := hzin (by simp)
        have hexact : n.maxHi.toNat = (Tree.node l n r).maxEnd.toNat := by
          rw [he] at hown
          omega
        rw [Tree.absorbAbove, if_pos rfl]
        refine ⟨.node (h.left.exact hzl) (h.right.exact hnr) (UInt32.toNat.inj hexact),
          fun _ => ⟨he ▸ hown, hexact.le⟩⟩
      · have hnz : ∀ hz : z ∈ (Tree.node l n r).numbers,
            (max n.maxHi v).toNat = (Tree.node l n r).maxEnd.toNat ∧
              e.toNat ≤ v.toNat ∧ v.toNat ≤ (Tree.node l n r).maxEnd.toNat := by
          intro hz
          obtain ⟨hlo, hhi⟩ := hzin hz
          have hzlr : z ∈ l.numbers ∨ z ∈ r.numbers := by
            simp only [numbers_node, List.mem_append, List.mem_cons] at hz
            rcases hz with hz | hz | hz
            · exact .inl hz
            · exact absurd hz.symm hn
            · exact .inr hz
          have hvz : e.toNat ≤ v.toNat ∧ v.toNat ≤ (Tree.node l n r).maxEnd.toNat := by
            rcases hzlr with hz | hz
            · obtain ⟨hev, hvl⟩ := hupl hz
              rw [maxEnd_node, toNat_max, toNat_max]
              omega
            · obtain ⟨hev, hvr⟩ := hupr hz
              rw [maxEnd_node, toNat_max, toNat_max]
              omega
          rw [toNat_max]
          omega
        rw [Tree.absorbAbove, if_neg hn]
        by_cases hzl : z ∈ l.numbers
        · rw [if_pos hzl]
          have hzr : z ∉ r.numbers := fun hz => hlr _ hzl _ (.inr hz) rfl
          obtain ⟨hmax, hvz⟩ := hnz (by simp [hzl])
          refine ⟨.node hexl (h.right.exact hzr) (UInt32.toNat.inj ?_), fun _ => hvz⟩
          rw [hmax, maxEnd_node, maxEnd_node, maxEnd_absorbAbove]
        · rw [if_neg hzl]
          by_cases hzr : z ∈ r.numbers
          · rw [if_pos hzr]
            obtain ⟨hmax, hvz⟩ := hnz (by simp [hzr])
            refine ⟨.node (h.left.exact hzl) hexr (UInt32.toNat.inj ?_), fun _ => hvz⟩
            rw [hmax, maxEnd_node, maxEnd_node, maxEnd_absorbAbove]
          · rw [if_neg hzr]
            have hz : z ∉ (Tree.node l n r).numbers := by
              simp [hzl, hzr, Ne.symm hn]
            exact ⟨h.exact hz, fun h' => absurd h' hz⟩

end Stale

/-- Inserting an interval under a fresh number into an exact tree whose numbers are distinct
gives an exact tree: the bounds left stale on the way are all raised by `absorbAbove`. -/
theorem MaxExact.insert {t : Tree α} (h : t.MaxExact) (hnd : t.numbers.Nodup) {seq : Nat}
    (hseq : seq ∉ t.numbers) (iv : Interval α) : (t.insert seq iv).MaxExact := by
  let k : Node α := ⟨seq, .red, iv, iv.hi⟩
  let t' := (place k t).1.paint .black
  have hst : Stale seq iv.hi t' := (Stale.place h k rfl).paint _
  have hperm : t'.numbers.Perm (seq :: t.numbers) := by
    simpa [t'] using numbers_place_perm k t
  have hnd' : t'.numbers.Nodup := hperm.nodup_iff.mpr (List.nodup_cons.mpr ⟨hseq, hnd⟩)
  obtain ⟨m, hm⟩ := exists_lookup_eq_some (hperm.mem_iff.mpr List.mem_cons_self)
  obtain ⟨hmt, hmseq⟩ := lookup_spec hm
  have hv : ∀ m' ∈ t'.nodes, m'.seq = seq → m'.interval.hi = iv.hi ∧ m'.maxHi = m.maxHi := by
    intro m' hm' hseq'
    obtain rfl := eq_of_seq_eq hnd' hm' hmt (hseq'.trans hmseq.symm)
    have hent : (m'.interval, seq) ∈ (iv, seq) :: t.entries := by
      have hmem := mem_entries_of_mem_nodes hm'
      rw [hseq', entries_paint] at hmem
      exact (entries_place_perm k t).mem_iff.mp hmem
    have hnew : m'.interval = iv := by
      rcases List.mem_cons.mp hent with heq | hold
      · exact (Prod.mk.inj heq).1
      · have : seq ∈ t.numbers := by
          rw [numbers_eq_map_snd_entries]
          exact List.mem_map_of_mem (f := Prod.snd) hold
        exact absurd this hseq
    exact ⟨by rw [hnew], rfl⟩
  have hex := (hst.absorbAbove hnd' hv).1
  simpa [Tree.insert, k, t', hm] using hex

end Tree
end IntervalIndex
