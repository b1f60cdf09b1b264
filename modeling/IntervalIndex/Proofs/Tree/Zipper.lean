import IntervalIndex.Proofs.Tree.Bound

/-!
# Paths into a tree

A `Tree.Frame` is one step of a path down a tree: the node passed, the side taken and the subtree
left on the other side. A path is kept deepest frame first, as a climb back up meets it, and
`Tree.plugAll` puts a subtree back into the hole at its end.

The insertion of `Tree.place` is a descent along `Tree.descent` followed by a climb that repairs
on the way back up. `Tree.place_eq_fixUp` shows that the climb is `Tree.fixUp`: looking from the
red node at its parent and grandparent, two frames at a time, recolouring and going on two
levels up, or rotating and stopping. That is the shape of a repair that follows parent links.
`Tree.absorbAbove_plugAll` says that raising the bounds above a node raises the nodes of its
path and nothing else.
-/

namespace IntervalIndex

namespace Tree

variable {α : Type}

/-- The tree with `c` on `side` of the node `n` and `s` on the other side. -/
def nodeOn (side : Side) (c : Tree α) (n : Node α) (s : Tree α) : Tree α :=
  match side with
  | .left => node c n s
  | .right => node s n c

/-- The rotation that takes the top down on `side`. -/
def rotate : Side → Tree α → Tree α
  | .left => rotateLeft
  | .right => rotateRight

/-- The number of the top node, `none` for the empty tree. -/
def top? : Tree α → Option Nat
  | leaf => none
  | node _ n _ => some n.seq

/-- The tree with the bound of its top recomputed from its interval and its children's bounds. -/
def rebuild : Tree α → Tree α
  | leaf => leaf
  | node l n r => join l n r

/-- One step of a path: from `node`, down on `side`, leaving `sibling` on the other side. -/
structure Frame (α : Type) where
  side : Side
  node : Node α
  sibling : Tree α

/-- The tree whose hole at the frame holds `t`. -/
def Frame.plug (f : Frame α) (t : Tree α) : Tree α := nodeOn f.side t f.node f.sibling

/-- The tree whose path `fs`, deepest frame first, ends at `t`. -/
def plugAll : List (Frame α) → Tree α → Tree α
  | [], t => t
  | f :: fs, t => plugAll fs (f.plug t)

/-- The path a node of lower bound `k` goes down to a leaf: left of a greater lower bound and
right otherwise, deepest frame first. -/
def descent (k : UInt32) : Tree α → List (Frame α)
  | leaf => []
  | node l n r =>
    if k < n.interval.lo then descent k l ++ [⟨.left, n, r⟩] else descent k r ++ [⟨.right, n, l⟩]

/-- The repair of the red top of the subtree at the hole, given the frame of its parent. -/
def Frame.settle (f : Frame α) (t : Tree α) (rep : Repair) : Tree α × Repair :=
  match f.side with
  | .left => settleLeft t rep f.node f.sibling
  | .right => settleRight f.sibling f.node t rep

/-- The climb of the repair from the red top of `s` along the path, looking at the parent and
the grandparent at each round: nothing to do under a black parent; with a red uncle, recolour and
go on from the grandparent; otherwise rotate once or twice and stop. -/
def fixUp : Tree α → List (Frame α) → Tree α
  | s, [] => s
  | s, [fp] => fp.plug s
  | s, fp :: fg :: rest =>
    if fp.node.color = .red then
      if fg.sibling.isRed then
        fixUp (nodeOn fg.side ((fp.plug s).paint .black) { fg.node with color := .red }
          (fg.sibling.paint .black)) rest
      else
        let p := if fp.side = fg.side then fp.plug s else (fp.plug s).rotate fg.side
        plugAll rest
          ((nodeOn fg.side (p.paint .black) { fg.node with color := .red } fg.sibling).rotate
            fg.side.other)
    else plugAll (fp :: fg :: rest) s

/-- The number of the node right above the end of the path. -/
def parentLink (fs : List (Frame α)) : Option Nat := fs.head?.map (·.node.seq)

/-- The numbers of the nodes of the path and of the subtrees it leaves aside. -/
def frameNumbers (fs : List (Frame α)) : List Nat :=
  fs.flatMap fun f => f.node.seq :: f.sibling.numbers

/-- The frame with its node's bound raised to at least `v`. -/
def Frame.raise (v : UInt32) (f : Frame α) : Frame α :=
  { f with node := { f.node with maxHi := max f.node.maxHi v } }

@[simp] theorem Side.other_left : Side.left.other = .right := rfl

@[simp] theorem Side.other_right : Side.right.other = .left := rfl

@[simp] theorem Side.other_other (side : Side) : side.other.other = side := by
  cases side <;> rfl

theorem Side.other_ne (side : Side) : side.other ≠ side := by
  cases side <;> decide

@[simp] theorem top?_leaf : (leaf : Tree α).top? = none := rfl

@[simp] theorem top?_node (l : Tree α) (n : Node α) (r : Tree α) :
    (node l n r).top? = some n.seq := rfl

@[simp] theorem top?_nodeOn (side : Side) (c : Tree α) (n : Node α) (s : Tree α) :
    (nodeOn side c n s).top? = some n.seq := by
  cases side <;> rfl

@[simp] theorem top?_paint (c : Color) (t : Tree α) : (t.paint c).top? = t.top? := by
  cases t <;> rfl

@[simp] theorem top?_rebuild (t : Tree α) : t.rebuild.top? = t.top? := by
  cases t <;> rfl

theorem mem_numbers_of_top? {t : Tree α} {k : Nat} (h : t.top? = some k) : k ∈ t.numbers := by
  cases t with
  | leaf =>
      cases h
  | node l n r =>
      simp only [top?_node, Option.some.injEq] at h
      simp [h]

@[simp] theorem numbers_rebuild (t : Tree α) : t.rebuild.numbers = t.numbers := by
  cases t <;> simp [rebuild, join]

@[simp] theorem toList_rebuild (t : Tree α) : t.rebuild.toList = t.toList := by
  cases t <;> simp [rebuild]

@[simp] theorem parentLink_nil : parentLink ([] : List (Frame α)) = none := rfl

@[simp] theorem parentLink_cons (f : Frame α) (fs : List (Frame α)) :
    parentLink (f :: fs) = some f.node.seq := rfl

@[simp] theorem frameNumbers_nil : frameNumbers ([] : List (Frame α)) = [] := rfl

@[simp] theorem frameNumbers_cons (f : Frame α) (fs : List (Frame α)) :
    frameNumbers (f :: fs) = f.node.seq :: f.sibling.numbers ++ frameNumbers fs := by
  simp [frameNumbers]

theorem rotate_nodeOn (side : Side) (A : Tree α) (xn : Node α) (B : Tree α) (yn : Node α)
    (C : Tree α) :
    (nodeOn side A xn (nodeOn side B yn C)).rotate side =
      (nodeOn side (nodeOn side A xn B).rebuild yn C).rebuild := by
  cases side <;> rfl

theorem rotate_nodeOn_leaf (side : Side) (A : Tree α) (xn : Node α) :
    (nodeOn side A xn leaf).rotate side = nodeOn side A xn leaf := by
  cases side with
  | left =>
      rfl
  | right =>
      cases A <;> rfl

theorem length_numbers (t : Tree α) : t.numbers.length = t.size := by
  induction t with
  | leaf =>
      rfl
  | node l n r ihl ihr =>
      simp only [numbers_node, List.length_append, List.length_cons, ihl, ihr, size]
      omega

theorem height_le_size (t : Tree α) : t.height ≤ t.size := by
  induction t with
  | leaf =>
      exact Nat.le_refl 0
  | node l n r ihl ihr =>
      simp only [height, size]
      omega

@[simp] theorem Frame.plug_mk (side : Side) (n : Node α) (sib t : Tree α) :
    (⟨side, n, sib⟩ : Frame α).plug t = nodeOn side t n sib := rfl

@[simp] theorem plugAll_nil (t : Tree α) : plugAll [] t = t := rfl

@[simp] theorem plugAll_cons (f : Frame α) (fs : List (Frame α)) (t : Tree α) :
    plugAll (f :: fs) t = plugAll fs (f.plug t) := rfl

theorem plugAll_append (fs gs : List (Frame α)) (t : Tree α) :
    plugAll (fs ++ gs) t = plugAll gs (plugAll fs t) := by
  induction fs generalizing t with
  | nil =>
      rfl
  | cons f fs ih =>
      exact ih (f.plug t)

theorem nodeOn_other (side : Side) (c : Tree α) (n : Node α) (u : Tree α) :
    nodeOn side.other c n u = nodeOn side u n c := by
  cases side <;> rfl

theorem exists_nodeOn (side : Side) (l : Tree α) (n : Node α) (r : Tree α) :
    ∃ B C, node l n r = nodeOn side B n C := by
  cases side
  · exact ⟨l, r, rfl⟩
  · exact ⟨r, l, rfl⟩

@[simp] theorem paint_nodeOn (c : Color) (side : Side) (b : Tree α) (n : Node α) (u : Tree α) :
    (nodeOn side b n u).paint c = nodeOn side b { n with color := c } u := by
  cases side <;> rfl

theorem rebuild_nodeOn (side : Side) (c : Tree α) (n : Node α) (u : Tree α) :
    ∃ v, (nodeOn side c n u).rebuild = nodeOn side c { n with maxHi := v } u := by
  cases side
  · exact ⟨_, rfl⟩
  · exact ⟨_, rfl⟩

theorem plugAll_cons_swap (f : Frame α) (fs : List (Frame α)) (t : Tree α) :
    plugAll (f :: fs) t = plugAll (⟨f.side.other, f.node, t⟩ :: fs) f.sibling := by
  simp only [plugAll_cons, Frame.plug, nodeOn_other]

theorem top_not_mem_of_nodup {l r : Tree α} {n : Node α} (hnd : (node l n r).numbers.Nodup) :
    n.seq ∉ l.numbers ∧ n.seq ∉ r.numbers := by
  simp only [numbers_node, List.nodup_append, List.nodup_cons] at hnd
  exact ⟨fun hl => hnd.2.2 _ hl _ List.mem_cons_self rfl, hnd.2.1.1⟩

theorem plug_node (f : Frame α) (t : Tree α) : ∃ l r, f.plug t = node l f.node r := by
  unfold Frame.plug nodeOn
  split
  · exact ⟨_, _, rfl⟩
  · exact ⟨_, _, rfl⟩

theorem plug_node_raise (f : Frame α) (t : Tree α) (v : UInt32) :
    ∃ l r, f.plug t = node l f.node r ∧ (f.raise v).plug t = node l (f.raise v).node r := by
  obtain ⟨side, n, sib⟩ := f
  cases side
  · exact ⟨_, _, rfl, rfl⟩
  · exact ⟨_, _, rfl, rfl⟩

theorem numbers_nodeOn (side : Side) (c : Tree α) (n : Node α) (s : Tree α) :
    (nodeOn side c n s).numbers.Perm (c.numbers ++ n.seq :: s.numbers) := by
  cases side with
  | left =>
      simp [nodeOn]
  | right =>
      simpa [nodeOn] using
        (List.perm_middle.trans (List.perm_append_comm.cons _)).trans List.perm_middle.symm

@[simp] theorem toList_nodeOn_left (c : Tree α) (n : Node α) (s : Tree α) :
    (nodeOn .left c n s).toList = c.toList ++ n.interval :: s.toList := rfl

@[simp] theorem toList_nodeOn_right (c : Tree α) (n : Node α) (s : Tree α) :
    (nodeOn .right c n s).toList = s.toList ++ n.interval :: c.toList := rfl

theorem numbers_sublist_plug (f : Frame α) (t : Tree α) : t.numbers.Sublist (f.plug t).numbers := by
  unfold Frame.plug nodeOn
  split <;> simp

theorem numbers_sublist_plugAll (fs : List (Frame α)) (t : Tree α) :
    t.numbers.Sublist (plugAll fs t).numbers := by
  induction fs generalizing t with
  | nil =>
      exact List.Sublist.refl _
  | cons f fs ih =>
      exact (numbers_sublist_plug f t).trans (ih _)

theorem numbers_plugAll (fs : List (Frame α)) (t : Tree α) :
    (plugAll fs t).numbers.Perm (t.numbers ++ frameNumbers fs) := by
  induction fs generalizing t with
  | nil =>
      simp
  | cons f fs ih =>
      refine (ih (f.plug t)).trans ?_
      rw [frameNumbers_cons, ← List.append_assoc]
      refine List.Perm.append_right _ ?_
      exact (numbers_nodeOn f.side t f.node f.sibling)

theorem not_mem_frameNumbers {fs : List (Frame α)} {t : Tree α}
    (hnd : (plugAll fs t).numbers.Nodup) {x : Nat} (hx : x ∈ t.numbers) : x ∉ frameNumbers fs := by
  rw [(numbers_plugAll fs t).nodup_iff, List.nodup_append] at hnd
  exact fun h => hnd.2.2 x hx x h rfl

theorem mem_frameNumbers_of_parentLink {fs : List (Frame α)} {i : Nat}
    (h : parentLink fs = some i) : i ∈ frameNumbers fs := by
  cases fs with
  | nil =>
      cases h
  | cons f fs =>
      simp only [parentLink_cons, Option.some.injEq] at h
      simp [h]

theorem frame_not_mem_sibling {f : Frame α} {t : Tree α} (hnd : (f.plug t).numbers.Nodup) :
    f.node.seq ∉ f.sibling.numbers := by
  have hperm : (f.plug t).numbers.Perm _ := numbers_nodeOn f.side t f.node f.sibling
  rw [hperm.nodup_iff, List.nodup_append, List.nodup_cons] at hnd
  exact hnd.2.1.1

theorem frame_not_mem_frameNumbers {f : Frame α} {fs : List (Frame α)} {t : Tree α}
    (hnd : (plugAll (f :: fs) t).numbers.Nodup) : f.node.seq ∉ frameNumbers fs := by
  obtain ⟨l, r, hlr⟩ := plug_node f t
  refine not_mem_frameNumbers (t := f.plug t) hnd ?_
  rw [hlr]
  simp

theorem numbers_nodeOn_congr {side : Side} {c c' u u' : Tree α} {n n' : Node α}
    (hc : c.numbers = c'.numbers) (hn : n.seq = n'.seq) (hu : u.numbers = u'.numbers) :
    (nodeOn side c n u).numbers = (nodeOn side c' n' u').numbers := by
  cases side <;> simp [nodeOn, hc, hn, hu]

theorem numbers_plugAll_congr (fs : List (Frame α)) {t t' : Tree α}
    (h : t.numbers = t'.numbers) : (plugAll fs t).numbers = (plugAll fs t').numbers := by
  induction fs generalizing t t' with
  | nil =>
      exact h
  | cons f fs ih =>
      exact ih (numbers_nodeOn_congr h rfl rfl)

theorem entries_plugAll_congr (fs : List (Frame α)) {t t' : Tree α}
    (h : t.entries = t'.entries) : (plugAll fs t).entries = (plugAll fs t').entries := by
  induction fs generalizing t t' with
  | nil =>
      exact h
  | cons f fs ih =>
      refine ih ?_
      unfold Frame.plug nodeOn
      cases f.side <;> simp [h]

theorem top?_plugAll_cons (f : Frame α) (fs : List (Frame α)) (u u' : Tree α) :
    (plugAll (f :: fs) u).top? = (plugAll (f :: fs) u').top? := by
  induction fs generalizing f u u' with
  | nil =>
      simp [Frame.plug]
  | cons g fs ih =>
      exact ih g (f.plug u) (f.plug u')

theorem numbers_plugAll_perm (fs : List (Frame α)) {t t' : Tree α}
    (h : t.numbers.Perm t'.numbers) : (plugAll fs t).numbers.Perm (plugAll fs t').numbers :=
  ((numbers_plugAll fs t).trans (h.append_right _)).trans (numbers_plugAll fs t').symm

theorem mem_numbers_nodeOn {side : Side} {c : Tree α} {n : Node α} {u : Tree α} {x : Nat} :
    x ∈ (nodeOn side c n u).numbers ↔ x ∈ c.numbers ∨ x = n.seq ∨ x ∈ u.numbers := by
  rw [(numbers_nodeOn _ _ _ _).mem_iff]
  simp

theorem mem_numbers_plug {f : Frame α} {t : Tree α} {x : Nat} :
    x ∈ (f.plug t).numbers ↔ x ∈ t.numbers ∨ x = f.node.seq ∨ x ∈ f.sibling.numbers :=
  mem_numbers_nodeOn

theorem not_mem_frame_of_nodup {f : Frame α} {t : Tree α} (hnd : (f.plug t).numbers.Nodup)
    {x : Nat} (hx : x ∈ t.numbers) : f.node.seq ≠ x ∧ x ∉ f.sibling.numbers := by
  have hperm : (f.plug t).numbers.Perm _ := numbers_nodeOn f.side t f.node f.sibling
  rw [hperm.nodup_iff, List.nodup_append] at hnd
  obtain ⟨-, hsib, hdis⟩ := hnd
  refine ⟨fun h => hdis x hx _ (List.mem_cons_self) h.symm, fun h => ?_⟩
  exact hdis x hx x (List.mem_cons_of_mem _ h) rfl

theorem numbers_sublist_nodeOn (side : Side) (c : Tree α) (n : Node α) (u : Tree α) :
    c.numbers.Sublist (nodeOn side c n u).numbers := by
  cases side <;> simp [nodeOn]

theorem numbers_sublist_nodeOn_other (side : Side) (c : Tree α) (n : Node α) (u : Tree α) :
    u.numbers.Sublist (nodeOn side c n u).numbers := by
  cases side <;> simp [nodeOn]

@[simp] theorem numbers_rotate (side : Side) (t : Tree α) :
    (t.rotate side).numbers = t.numbers := by
  cases side <;> simp [rotate]

@[simp] theorem entries_rotate (side : Side) (t : Tree α) :
    (t.rotate side).entries = t.entries := by
  cases side <;> simp [rotate]

theorem numbers_rotate_perm (side : Side) (A : Tree α) (xn : Node α) (B : Tree α) (yn : Node α)
    (C : Tree α) :
    (nodeOn side (nodeOn side A xn B) yn C).numbers.Perm
      (nodeOn side A xn (nodeOn side B yn C)).numbers := by
  refine ((numbers_nodeOn _ _ _ _).trans ?_).trans
    ((numbers_nodeOn _ _ _ _).trans (((numbers_nodeOn _ _ _ _).cons _).append_left _)).symm
  simpa using (numbers_nodeOn side A xn B).append_right (yn.seq :: C.numbers)

theorem nodup_rotate_parts {side : Side} {A B C : Tree α} {xn yn : Node α}
    (hnd : (nodeOn side A xn (nodeOn side B yn C)).numbers.Nodup) :
    xn.seq ≠ yn.seq ∧ xn.seq ∉ A.numbers ∧ xn.seq ∉ B.numbers ∧ xn.seq ∉ C.numbers ∧
      yn.seq ∉ A.numbers ∧ yn.seq ∉ B.numbers ∧ yn.seq ∉ C.numbers ∧
        ∀ i ∈ B.numbers, i ∉ A.numbers ∧ i ∉ C.numbers := by
  have hperm : (nodeOn side A xn (nodeOn side B yn C)).numbers.Perm
      (A.numbers ++ xn.seq :: (B.numbers ++ yn.seq :: C.numbers)) :=
    (numbers_nodeOn _ _ _ _).trans (((numbers_nodeOn _ _ _ _).cons _).append_left _)
  rw [hperm.nodup_iff] at hnd
  simp only [List.nodup_append, List.nodup_cons, List.mem_append, List.mem_cons, not_or] at hnd
  obtain ⟨-, ⟨⟨hxB, hxy, hxC⟩, -, ⟨hyC, -⟩, hBC⟩, hA⟩ := hnd
  refine ⟨hxy, fun h => hA _ h _ (.inl rfl) rfl, hxB, hxC,
    fun h => hA _ h _ (.inr (.inr (.inl rfl))) rfl, fun h => hBC _ h _ (.inl rfl) rfl, hyC,
    fun i hi => ⟨fun h => hA _ h _ (.inr (.inl hi)) rfl, fun h => hBC _ hi _ (.inr h) rfl⟩⟩

theorem plugAll_descent (k : UInt32) (t : Tree α) : plugAll (descent k t) leaf = t := by
  induction t with
  | leaf =>
      rfl
  | node l n r ihl ihr =>
      unfold descent
      split
      · rw [plugAll_append, ihl]
        rfl
      · rw [plugAll_append, ihr]
        rfl

theorem parentLink_append_singleton (fs : List (Frame α)) (f : Frame α) :
    parentLink (fs ++ [f]) = (parentLink fs).or (some f.node.seq) := by
  cases fs <;> rfl

theorem side_of_mem_descent {k : UInt32} {t : Tree α} {f : Frame α} (hf : f ∈ descent k t) :
    f.side = if k < f.node.interval.lo then .left else .right := by
  induction t with
  | leaf =>
      cases hf
  | node l n r ihl ihr =>
      unfold descent at hf
      split at hf
      · rcases List.mem_append.mp hf with hf | hf
        · exact ihl hf
        · rw [List.mem_singleton.mp hf]
          simp [*]
      · rcases List.mem_append.mp hf with hf | hf
        · exact ihr hf
        · rw [List.mem_singleton.mp hf]
          simp [*]

theorem length_le_size_plugAll (fs : List (Frame α)) (t : Tree α) :
    fs.length + t.size ≤ (plugAll fs t).size := by
  induction fs generalizing t with
  | nil =>
      simp
  | cons f fs ih =>
      have hplug : t.size + 1 ≤ (f.plug t).size := by
        unfold Frame.plug nodeOn
        split <;> simp only [size] <;> omega
      have := ih (f.plug t)
      simp only [List.length_cons, plugAll_cons]
      omega

theorem length_descent_le (k : UInt32) (t : Tree α) : (descent k t).length ≤ t.size := by
  induction t with
  | leaf =>
      simp [descent]
  | node l n r ihl ihr =>
      unfold descent size
      split
      · simp only [List.length_append, List.length_singleton]
        omega
      · simp only [List.length_append, List.length_singleton]
        omega

/-!
## The climb
-/

theorem settle_settled (fs : List (Frame α)) (t : Tree α) :
    fs.foldl (fun acc f => f.settle acc.1 acc.2) (t, .settled) = (plugAll fs t, .settled) := by
  induction fs generalizing t with
  | nil =>
      rfl
  | cons f fs ih =>
      rw [List.foldl_cons]
      have hstep : f.settle t .settled = (f.plug t, .settled) := by
        unfold Frame.settle Frame.plug nodeOn
        split <;> rfl
      rw [hstep, ih]
      rfl

/-- Placing `k` is descending to a leaf and settling the frames of the path deepest first. -/
theorem place_eq_settle (k : Node α) (t : Tree α) :
    place k t = (descent k.interval.lo t).foldl (fun acc f => f.settle acc.1 acc.2)
      (node leaf { k with color := .red } leaf, .redTop) := by
  induction t with
  | leaf =>
      rfl
  | node l n r ihl ihr =>
      unfold descent
      by_cases hk : k.interval.lo < n.interval.lo
      · rw [place_node_of_lt k hk, if_pos hk, List.foldl_append, ← ihl]
        rfl
      · rw [place_node_of_not_lt k hk, if_neg hk, List.foldl_append, ← ihr]
        rfl

theorem settle_redTop_red (fp : Frame α) (s : Tree α) (hred : fp.node.color = .red) :
    fp.settle s .redTop = (fp.plug s, .redPair fp.side) := by
  unfold Frame.settle Frame.plug nodeOn
  split <;> simp [settleLeft, settleRight, *]

theorem settle_redTop_black (fp : Frame α) (s : Tree α) (hblack : fp.node.color ≠ .red) :
    fp.settle s .redTop = (fp.plug s, .settled) := by
  unfold Frame.settle Frame.plug nodeOn
  split <;> simp [settleLeft, settleRight, hblack]

theorem settle_redPair_red (fg : Frame α) (l : Tree α) (side : Side) (hred : fg.sibling.isRed) :
    fg.settle l (.redPair side) =
      (nodeOn fg.side (l.paint .black) { fg.node with color := .red } (fg.sibling.paint .black),
        .redTop) := by
  unfold Frame.settle nodeOn
  split <;> simp [settleLeft, settleRight, hred]

theorem settle_redPair_black (fg : Frame α) (l : Tree α) (side : Side)
    (hblack : fg.sibling.isRed = false) :
    fg.settle l (.redPair side) =
      (((nodeOn fg.side ((if side = fg.side then l else l.rotate fg.side).paint .black)
        { fg.node with color := .red } fg.sibling).rotate fg.side.other), .settled) := by
  unfold Frame.settle
  cases hg : fg.side <;> cases side <;> simp [settleLeft, settleRight, hblack, nodeOn, rotate,
    Side.other]

theorem foldl_settle_redTop (fs : List (Frame α)) (s : Tree α) :
    (fs.foldl (fun acc f => f.settle acc.1 acc.2) (s, .redTop)).1 = fixUp s fs := by
  induction fs using List.twoStepInduction generalizing s with
  | nil =>
      rfl
  | singleton fp =>
      rw [List.foldl_cons, List.foldl_nil]
      by_cases hred : fp.node.color = .red
      · rw [settle_redTop_red fp s hred]
        rfl
      · rw [settle_redTop_black fp s hred]
        rfl
  | cons_cons fp fg rest ih _ =>
      rw [List.foldl_cons]
      unfold fixUp
      by_cases hred : fp.node.color = .red
      · rw [settle_redTop_red fp s hred, List.foldl_cons, if_pos hred]
        cases hsib : fg.sibling.isRed with
        | true =>
            rw [settle_redPair_red fg _ _ hsib, if_pos rfl, ih]
        | false =>
            rw [settle_redPair_black fg _ _ hsib, settle_settled]
            rfl
      · rw [settle_redTop_black fp s hred, if_neg hred, settle_settled]
        rfl

theorem numbers_fixUp (s : Tree α) (fs : List (Frame α)) :
    (fixUp s fs).numbers = (plugAll fs s).numbers := by
  fun_induction fixUp s fs with
  | case1 =>
      rfl
  | case2 =>
      rfl
  | case3 s fp fg rest _ _ ih =>
      rw [ih]
      exact numbers_plugAll_congr rest
        (numbers_nodeOn_congr (numbers_paint _ _) rfl (numbers_paint _ _))
  | case4 s fp fg rest _ _ p =>
      refine numbers_plugAll_congr rest ?_
      rw [numbers_rotate]
      refine numbers_nodeOn_congr ?_ rfl rfl
      simp only [p, numbers_paint]
      split <;> simp
  | case5 =>
      rfl

theorem place_eq_fixUp (k : Node α) (t : Tree α) :
    (place k t).1 = fixUp (node leaf { k with color := .red } leaf) (descent k.interval.lo t) := by
  rw [place_eq_settle, foldl_settle_redTop]

/-!
## Paths to a node and the bounds above it
-/

theorem subtrees_subset_plugAll (fs : List (Frame α)) {u : Tree α} :
    ∀ s ∈ u.subtrees, s ∈ (plugAll fs u).subtrees := by
  induction fs generalizing u with
  | nil =>
      exact fun _ hs => hs
  | cons f fs ih =>
      intro s hs
      refine ih s ?_
      unfold Frame.plug nodeOn
      cases f.side <;> simp [hs]

theorem mem_subtrees_plugAll (fs : List (Frame α)) (l : Tree α) (n : Node α) (r : Tree α) :
    node l n r ∈ (plugAll fs (node l n r)).subtrees :=
  subtrees_subset_plugAll fs _ List.mem_cons_self

theorem exists_plugAll_of_mem {t : Tree α} {z : Nat} (hz : z ∈ t.numbers) :
    ∃ fs l n r, t = plugAll fs (node l n r) ∧ n.seq = z := by
  induction t with
  | leaf =>
      cases hz
  | node l n r ihl ihr =>
      simp only [numbers_node, List.mem_append, List.mem_cons] at hz
      rcases hz with hz | hz | hz
      · obtain ⟨fs, a, m, b, rfl, hm⟩ := ihl hz
        exact ⟨fs ++ [⟨.left, n, r⟩], a, m, b, by rw [plugAll_append]; rfl, hm⟩
      · exact ⟨[], l, n, r, rfl, hz.symm⟩
      · obtain ⟨fs, a, m, b, rfl, hm⟩ := ihr hz
        exact ⟨fs ++ [⟨.right, n, l⟩], a, m, b, by rw [plugAll_append]; rfl, hm⟩

theorem absorbAbove_plug {f : Frame α} {u : Tree α} {z : Nat} (v : UInt32) (hz : z ∈ u.numbers)
    (hnd : (f.plug u).numbers.Nodup) :
    (f.plug u).absorbAbove z v = (f.raise v).plug (u.absorbAbove z v) := by
  obtain ⟨hn, hsib⟩ := not_mem_frame_of_nodup hnd hz
  unfold Frame.plug Frame.raise nodeOn
  cases hs : f.side <;> simp [absorbAbove, hn, hsib, hz]

/-- Raising the bounds above the node numbered `z` raises the frames of the path above the
subtree that holds it. -/
theorem absorbAbove_plugAll {fs : List (Frame α)} {u : Tree α} {z : Nat} (v : UInt32)
    (hz : z ∈ u.numbers) (hnd : (plugAll fs u).numbers.Nodup) :
    (plugAll fs u).absorbAbove z v = plugAll (fs.map (Frame.raise v)) (u.absorbAbove z v) := by
  induction fs generalizing u with
  | nil =>
      rfl
  | cons f fs ih =>
      have hz' : z ∈ (f.plug u).numbers := mem_numbers_plug.mpr (.inl hz)
      rw [plugAll_cons, ih hz' hnd,
        absorbAbove_plug v hz ((numbers_sublist_plugAll fs _).nodup hnd)]
      rfl

theorem absorbAbove_top (l r : Tree α) (n : Node α) (v : UInt32) :
    (node l n r).absorbAbove n.seq v = node l n r := by
  simp [absorbAbove]

/-!
## The subtree at a number
-/

/-- The subtree whose top is numbered `i`, the empty tree if there is none. -/
def subtreeAt (i : Nat) : Tree α → Tree α
  | leaf => leaf
  | node l n r =>
    if n.seq = i then node l n r else if i ∈ l.numbers then l.subtreeAt i else r.subtreeAt i

@[simp] theorem subtreeAt_top (l r : Tree α) (n : Node α) :
    (node l n r).subtreeAt n.seq = node l n r := by
  simp [subtreeAt]

theorem subtreeAt_of_not_mem {t : Tree α} {i : Nat} (h : i ∉ t.numbers) : t.subtreeAt i = leaf := by
  induction t with
  | leaf =>
      rfl
  | node l n r ihl ihr =>
      simp only [numbers_node, List.mem_append, List.mem_cons, not_or] at h
      have hne : n.seq ≠ i := fun e => h.2.1 e.symm
      simp [subtreeAt, hne, h.1, ihr h.2.2]

theorem subtreeAt_nodeOn_of_mem {side : Side} {c s : Tree α} {n : Node α} {i : Nat}
    (hnd : (nodeOn side c n s).numbers.Nodup) (hi : i ∈ c.numbers) :
    (nodeOn side c n s).subtreeAt i = c.subtreeAt i := by
  rw [(numbers_nodeOn side c n s).nodup_iff, List.nodup_append] at hnd
  have hin : n.seq ≠ i := fun h => hnd.2.2 i hi _ List.mem_cons_self h.symm
  have his : i ∉ s.numbers := fun h => hnd.2.2 i hi i (List.mem_cons_of_mem _ h) rfl
  cases side with
  | left =>
      simp [nodeOn, subtreeAt, hin, hi]
  | right =>
      simp [nodeOn, subtreeAt, hin, his]

theorem subtreeAt_nodeOn_of_mem_other {side : Side} {c s : Tree α} {n : Node α} {i : Nat}
    (hnd : (nodeOn side c n s).numbers.Nodup) (hi : i ∈ s.numbers) :
    (nodeOn side c n s).subtreeAt i = s.subtreeAt i := by
  rw [← nodeOn_other] at hnd ⊢
  exact subtreeAt_nodeOn_of_mem hnd hi

theorem subtreeAt_plugAll {fs : List (Frame α)} {u : Tree α} {i : Nat}
    (hnd : (plugAll fs u).numbers.Nodup) (hi : i ∈ u.numbers) :
    (plugAll fs u).subtreeAt i = u.subtreeAt i := by
  induction fs generalizing u with
  | nil =>
      rfl
  | cons f fs ih =>
      rw [plugAll_cons, ih hnd (mem_numbers_plug.mpr (.inl hi))]
      exact subtreeAt_nodeOn_of_mem ((numbers_sublist_plugAll fs _).nodup hnd) hi

theorem numbers_subtreeAt_plugAll_congr {fs : List (Frame α)} {u u' : Tree α} {i : Nat}
    (hnd : (plugAll fs u).numbers.Nodup) (hu : u.numbers = u'.numbers) (hi : i ∉ u.numbers) :
    ((plugAll fs u).subtreeAt i).numbers = ((plugAll fs u').subtreeAt i).numbers := by
  induction fs generalizing u u' with
  | nil =>
      rw [plugAll_nil, plugAll_nil, subtreeAt_of_not_mem hi, subtreeAt_of_not_mem (hu ▸ hi)]
  | cons f fs ih =>
      have hplug : (f.plug u).numbers = (f.plug u').numbers := numbers_nodeOn_congr hu rfl rfl
      rw [plugAll_cons, plugAll_cons]
      rw [plugAll_cons] at hnd
      by_cases hf : i ∈ (f.plug u).numbers
      · have hnd' : (plugAll fs (f.plug u')).numbers.Nodup := by
          rwa [← numbers_plugAll_congr fs hplug]
        have hndf := (numbers_sublist_plugAll fs _).nodup hnd
        have hndf' := (numbers_sublist_plugAll fs _).nodup hnd'
        rw [subtreeAt_plugAll hnd hf, subtreeAt_plugAll hnd' (hplug ▸ hf)]
        rcases mem_numbers_plug.mp hf with hu' | rfl | hs
        · exact absurd hu' hi
        · obtain ⟨l, r, hlr⟩ := plug_node f u
          obtain ⟨l', r', hlr'⟩ := plug_node f u'
          rw [hlr, hlr', subtreeAt_top, subtreeAt_top, ← hlr, ← hlr']
          exact hplug
        · unfold Frame.plug at hndf hndf' ⊢
          rw [subtreeAt_nodeOn_of_mem_other hndf hs, subtreeAt_nodeOn_of_mem_other hndf' hs]
      · exact ih hnd hplug hf

theorem subtreeAt_rotate {side : Side} {A B C : Tree α} {xn yn : Node α} {i : Nat}
    (hnd : (nodeOn side A xn (nodeOn side B yn C)).numbers.Nodup) (hx : i ≠ xn.seq)
    (hy : i ≠ yn.seq) :
    ((nodeOn side (nodeOn side A xn B).rebuild yn C).rebuild).subtreeAt i =
      (nodeOn side A xn (nodeOn side B yn C)).subtreeAt i := by
  obtain ⟨v', hm'⟩ := rebuild_nodeOn side A xn B
  obtain ⟨v, hm⟩ := rebuild_nodeOn side (nodeOn side A { xn with maxHi := v' } B) yn C
  rw [hm', hm]
  have hnd' : (nodeOn side (nodeOn side A { xn with maxHi := v' } B) { yn with maxHi := v }
      C).numbers.Nodup := by
    have heq : (nodeOn side (nodeOn side A { xn with maxHi := v' } B) { yn with maxHi := v }
        C).numbers = (nodeOn side (nodeOn side A xn B) yn C).numbers :=
      numbers_nodeOn_congr (numbers_nodeOn_congr rfl rfl rfl) rfl rfl
    rw [heq]
    exact ((numbers_rotate_perm side A xn B yn C).nodup_iff).mpr hnd
  have hYnd := (numbers_sublist_nodeOn_other side A xn _).nodup hnd
  have hXnd := (numbers_sublist_nodeOn side _ _ C).nodup hnd'
  by_cases hA : i ∈ A.numbers
  · rw [subtreeAt_nodeOn_of_mem hnd hA,
      subtreeAt_nodeOn_of_mem hnd' (by simp [mem_numbers_nodeOn, hA]),
      subtreeAt_nodeOn_of_mem hXnd hA]
  by_cases hB : i ∈ B.numbers
  · rw [subtreeAt_nodeOn_of_mem_other hnd (by simp [mem_numbers_nodeOn, hB]),
      subtreeAt_nodeOn_of_mem hYnd hB,
      subtreeAt_nodeOn_of_mem hnd' (by simp [mem_numbers_nodeOn, hB]),
      subtreeAt_nodeOn_of_mem_other hXnd hB]
  by_cases hC : i ∈ C.numbers
  · rw [subtreeAt_nodeOn_of_mem_other hnd (by simp [mem_numbers_nodeOn, hC]),
      subtreeAt_nodeOn_of_mem_other hYnd hC, subtreeAt_nodeOn_of_mem_other hnd' hC]
  have hout : i ∉ (nodeOn side A xn (nodeOn side B yn C)).numbers := by
    simp [mem_numbers_nodeOn, hA, hB, hC, hx, hy]
  rw [subtreeAt_of_not_mem hout, subtreeAt_of_not_mem]
  simp [mem_numbers_nodeOn, hA, hB, hC, hx, hy]

@[simp] theorem lookup_top (l r : Tree α) (n : Node α) : (node l n r).lookup n.seq = some n := by
  simp [lookup]

theorem lookup_plug {f : Frame α} {u : Tree α} {z : Nat} (hz : z ∈ u.numbers)
    (hnd : (f.plug u).numbers.Nodup) : (f.plug u).lookup z = u.lookup z := by
  obtain ⟨hn, hsib⟩ := not_mem_frame_of_nodup hnd hz
  unfold Frame.plug nodeOn
  cases f.side <;> simp [lookup, hn, lookup_eq_none hsib]

theorem lookup_plugAll {fs : List (Frame α)} {u : Tree α} {z : Nat} (hz : z ∈ u.numbers)
    (hnd : (plugAll fs u).numbers.Nodup) : (plugAll fs u).lookup z = u.lookup z := by
  induction fs generalizing u with
  | nil =>
      rfl
  | cons f fs ih =>
      have hz' : z ∈ (f.plug u).numbers := mem_numbers_plug.mpr (.inl hz)
      rw [plugAll_cons, ih hz' hnd, lookup_plug hz ((numbers_sublist_plugAll fs _).nodup hnd)]

end Tree

end IntervalIndex
