import IntervalIndex.Proofs.Arena.Linked
import IntervalIndex.Proofs.Tree.Bound

/-!
# Rotations in the arena

`Arena.rotate side x` rewrites the links of the node `x`, of its child `y` on the other side, of
the subtree that changes hands, and of the link into `x` from above, and then recomputes the
bounds of `x` and of `y`. On an arena that holds a tree, it holds the tree rotated at `x`
(`Arena.Linked.rotate`): the same nodes, in the same order, with `y` in the place of `x`.
-/

namespace IntervalIndex

namespace Arena

variable {α : Type} {a : Arena α}

theorem Linked.recompute {l r : Tree α} {n : Node α} {x p : Option Nat}
    (h : Linked a x p (.node l n r)) (hl : n.seq ∉ l.numbers) (hr : n.seq ∉ r.numbers) :
    Linked (a.recompute n.seq) x p (Tree.join l n r) := by
  obtain ⟨hx, s, hslot, hp, hn, hls, hrs⟩ := h
  have hlsum : ((a.child .left n.seq).map a.summary).getD 0 = l.maxHi := by
    rw [child_of_slot hslot]
    exact hls.summary
  have hrsum : ((a.child .right n.seq).map a.summary).getD 0 = r.maxHi := by
    rw [child_of_slot hslot]
    exact hrs.summary
  refine ⟨hx, { s with maxHi := max (max s.interval.hi l.maxHi) r.maxHi }, ?_, hp, ?_,
    hls.modify_of_not_mem hl _, hrs.modify_of_not_mem hr _⟩
  · simp only [Arena.recompute, slots_modify_self, hslot, Option.map_some, hlsum, hrsum]
  · obtain ⟨seq, c, iv, m⟩ := n
    simp only [Slot.toNode, Node.mk.injEq] at hn
    obtain ⟨-, rfl, rfl, rfl⟩ := hn
    simp [Slot.toNode, UInt32.max_assoc]

theorem Linked.recompute_join {l r : Tree α} {n : Node α} {x p : Option Nat}
    (h : Linked a x p (Tree.join l n r)) : a.recompute n.seq = a := by
  obtain ⟨-, s, hslot, -, hn, hls, hrs⟩ := h
  have hslot' : a.slots[n.seq]? = some s := hslot
  have hlsum : ((a.child .left n.seq).map a.summary).getD 0 = l.maxHi := by
    rw [child_of_slot hslot']
    exact hls.summary
  have hrsum : ((a.child .right n.seq).map a.summary).getD 0 = r.maxHi := by
    rw [child_of_slot hslot']
    exact hrs.summary
  have hiv : s.interval = n.interval := congrArg Node.interval hn
  have hmax : s.maxHi = max n.interval.hi (max l.maxHi r.maxHi) := congrArg Node.maxHi hn
  have hval : max (max s.interval.hi l.maxHi) r.maxHi = s.maxHi := by
    rw [hiv, UInt32.max_assoc, ← hmax]
  simp only [Arena.recompute, hlsum, hrsum]
  refine modify_eq_self hslot' ?_
  rw [hval]

theorem Linked.recompute_rebuild {side : Tree.Side} {c u : Tree α} {n : Node α}
    {x p : Option Nat} (h : Linked a x p (Tree.nodeOn side c n u).rebuild) :
    a.recompute n.seq = a := by
  cases side
  · exact Linked.recompute_join h
  · exact Linked.recompute_join h

theorem Linked.recompute_top {x p : Option Nat} {t : Tree α} {i : Nat} (h : Linked a x p t)
    (ht : t.top? = some i) (hnd : t.numbers.Nodup) : Linked (a.recompute i) x p t.rebuild := by
  cases t with
  | leaf =>
      cases ht
  | node l n r =>
      simp only [Tree.top?_node, Option.some.injEq] at ht
      subst ht
      obtain ⟨hl, hr⟩ := Tree.top_not_mem_of_nodup hnd
      exact h.recompute hl hr

theorem replaceParent_above {fs : List (Tree.Frame α)} {t : Tree α} {x y : Nat} {sx : Slot α}
    (habove : Above a fs (some x)) (hsx : a.slots[x]? = some sx)
    (hpar : sx.parent = Tree.parentLink fs) (hnd : (Tree.plugAll fs t).numbers.Nodup)
    (hx : x ∈ t.numbers) (hy : y ∈ t.numbers) (hxy : x ≠ y) :
    Above (a.replaceParent x y) fs (some y) ∧
      (a.replaceParent x y).slots[y]? =
        (a.slots[y]?).map (fun s => { s with parent := Tree.parentLink fs }) ∧
      (a.replaceParent x y).slots[x]? = (a.slots[x]?).map (fun s => { s with parent := some y }) ∧
      (∀ i, i ≠ x → i ≠ y → some i ≠ Tree.parentLink fs →
        (a.replaceParent x y).slots[i]? = a.slots[i]?) ∧
      (a.replaceParent x y).size = a.size := by
  have hxF := Tree.not_mem_frameNumbers hnd hx
  have hyF := Tree.not_mem_frameNumbers hnd hy
  cases fs with
  | nil =>
      have heq : a.replaceParent x y =
          ({ a.setParent y none with root := some y } : Arena α).setParent x (some y) := by
        simp only [replaceParent, parent_of_slot hsx, hpar, Tree.parentLink_nil]
      rw [heq]
      refine ⟨rfl, ?_, ?_, ?_, by simp [size, modify]⟩
      · simp [slots_modify, hxy]
      · simp [slots_modify, Ne.symm hxy]
      · intro i hix hiy _
        simp [slots_modify, Ne.symm hix, Ne.symm hiy]
  | cons f fs =>
      obtain ⟨sp, hsp, hc, hsib, -, -⟩ := habove.slot
      have hpx : f.node.seq ≠ x := fun h => hxF (h ▸ by simp)
      have hpy : f.node.seq ≠ y := fun h => hyF (h ▸ by simp)
      have hsp₁ : (a.setParent y (some f.node.seq)).slots[f.node.seq]? = some sp := by
        rw [setParent_eq, slots_modify_of_ne _ _ (Ne.symm hpy), hsp]
      have hrelink : ∀ b : Arena α, b.slots[f.node.seq]? = some sp →
          (if b.child .left f.node.seq = some x then b.setChild .left f.node.seq (some y)
            else b.setChild .right f.node.seq (some y)) =
            b.setChild f.side f.node.seq (some y) := by
        intro b hb
        rw [child_of_slot hb]
        cases hside : f.side with
        | left =>
            simp only [hside] at hc
            simp [hc]
        | right =>
            simp only [hside, Tree.Side.other_right, Slot.child_left] at hsib
            have hsibx : f.sibling.top? ≠ some x := fun h =>
              hxF (by simp [Tree.mem_numbers_of_top? h])
            rw [Slot.child_left, if_neg (by rw [hsib]; exact hsibx)]
      have heq : a.replaceParent x y =
          ((a.setParent y (some f.node.seq)).setChild f.side f.node.seq (some y)).setParent x
            (some y) := by
        rw [← hrelink _ hsp₁]
        simp only [replaceParent, parent_of_slot hsx, hpar, Tree.parentLink_cons]
      rw [heq]
      have hp₁ : f.node.seq ∉ f.sibling.numbers := Tree.frame_not_mem_sibling
        ((Tree.numbers_sublist_plugAll fs _).nodup hnd)
      have hp₂ : f.node.seq ∉ Tree.frameNumbers fs := Tree.frame_not_mem_frameNumbers hnd
      refine ⟨?_, ?_, ?_, ?_, by simp [size, modify]⟩
      · exact ((habove.modify_of_not_mem hyF _).repoint hp₁ hp₂ (some y)).modify_of_not_mem hxF _
      · simp [slots_modify, hxy, hpy]
      · simp [slots_modify, Ne.symm hxy, hpx]
      · intro i hix hiy hip
        have hip' : f.node.seq ≠ i := fun h => hip (by simp [h])
        simp [slots_modify, Ne.symm hix, Ne.symm hiy, hip']

theorem rotate_eq_hang {x y : Nat} {sx sy : Slot α} {B : Tree α} (side : Tree.Side)
    (hsx : a.slots[x]? = some sx) (hyx : sx.child side.other = some y)
    (hsy : a.slots[y]? = some sy) (hB : Linked a (sy.child side) (some y) B)
    (hBnd : B.numbers.Nodup) (hxB : x ∉ B.numbers) (hyB : y ∉ B.numbers) (hxy : x ≠ y) :
    ∃ a₂ : Arena α, a.rotate side x =
        (((a₂.replaceParent x y).setChild side y (some x)).recompute x).recompute y ∧
      a₂.slots[x]? = some (sx.withChild (sy.child side) side.other) ∧
      a₂.slots[y]? = some sy ∧ Linked a₂ (sy.child side) (some x) B ∧
      (∀ i, i ≠ x → some i ≠ sy.child side → a₂.slots[i]? = a.slots[i]?) ∧
      (∀ i, i ≠ x → (a₂.slots[i]?).map (·.toNode i) = (a.slots[i]?).map (·.toNode i)) ∧
      a₂.size = a.size ∧ a₂.root = a.root := by
  have hB₁ : Linked (a.setChild side.other x (sy.child side)) (sy.child side) (some y) B :=
    hB.modify_of_not_mem hxB _
  cases hb : sy.child side with
  | none =>
      refine ⟨a.setChild side.other x none, ?_, by simp [hsx], ?_, ?_, ?_, ?_, by simp, rfl⟩
      · rw [Arena.rotate, child_of_slot hsx, hyx]
        simp only [child_of_slot hsy, hb]
      · simp [slots_modify, hxy, hsy]
      · cases B with
        | leaf =>
            rfl
        | node lB nB rB =>
            rw [hb] at hB
            exact absurd hB.1 (by simp)
      · intro i hix _
        simp [slots_modify, Ne.symm hix]
      · intro i hix
        simp [slots_modify, Ne.symm hix]
  | some bi =>
      rw [hb] at hB₁
      cases B with
      | leaf =>
          exact absurd hB₁ (by simp)
      | node lB nB rB =>
          have hbi : bi = nB.seq := Option.some.inj hB₁.1
          subst hbi
          have hbx : nB.seq ≠ x := fun h => hxB (by simp [h])
          obtain ⟨hlB, hrB⟩ := Tree.top_not_mem_of_nodup hBnd
          obtain ⟨sb, hsb, -, hsbn, hB₂⟩ :=
            hB₁.modify_top hlB hrB (fun s => { s with parent := some x }) fun _ => ⟨rfl, rfl⟩
          refine ⟨(a.setChild side.other x (some nB.seq)).setParent nB.seq (some x), ?_, ?_, ?_,
            ?_, ?_, ?_, by simp, rfl⟩
          · rw [Arena.rotate, child_of_slot hsx, hyx]
            simp only [child_of_slot hsy, hb]
          · simp [slots_modify, hsx, hbx]
          · have hby : nB.seq ≠ y := fun h => hyB (by simp [h])
            simp [slots_modify, hxy, hby, hsy]
          · simpa [hsbn] using hB₂
          · intro i hix hib
            have hib' : nB.seq ≠ i := fun h => hib (by simp [h])
            simp [slots_modify, Ne.symm hix, hib']
          · intro i hix
            by_cases hib : nB.seq = i
            · subst hib
              simp [slots_modify, Ne.symm hix, Option.map_map, Function.comp_def]
            · simp [slots_modify, Ne.symm hix, hib]

/-- A rotation at the top `x` of a subtree at the end of a path, whose child `y` on the other side
is a node: the arena then holds the tree rotated at `x`. Only the slots of `x`, of `y`, of the top
of the subtree that changes hands and of the node above `x` are written, and only `x` and `y` come
to stand for other nodes. -/
theorem rotate_spec {fs : List (Tree.Frame α)} {A B C : Tree α} {xn yn : Node α}
    (side : Tree.Side)
    (h : Linked a a.root none (Tree.plugAll fs (Tree.nodeOn side A xn (Tree.nodeOn side B yn C))))
    (hnd : (Tree.plugAll fs (Tree.nodeOn side A xn (Tree.nodeOn side B yn C))).numbers.Nodup) :
    Linked (a.rotate side xn.seq) (a.rotate side xn.seq).root none
        (Tree.plugAll fs (Tree.nodeOn side (Tree.nodeOn side A xn B).rebuild yn C).rebuild) ∧
      (a.rotate side xn.seq).size = a.size ∧
      (∀ i, i ≠ xn.seq → i ≠ yn.seq → some i ≠ B.top? → some i ≠ Tree.parentLink fs →
        (a.rotate side xn.seq).slots[i]? = a.slots[i]?) ∧
      (∀ i, i ≠ xn.seq → i ≠ yn.seq →
        ((a.rotate side xn.seq).slots[i]?).map (·.toNode i) = (a.slots[i]?).map (·.toNode i)) := by
  obtain ⟨habove, hs⟩ := linked_plugAll_iff.mp h
  rw [Tree.top?_nodeOn] at habove hs
  obtain ⟨-, sx, hsx, hsxp, hsxn, hA, hY⟩ := linked_nodeOn.mp hs
  obtain ⟨hyx, sy, hsy, -, hsyn, hB, hC⟩ := linked_nodeOn.mp hY
  have hsnd := (Tree.numbers_sublist_plugAll fs _).nodup hnd
  obtain ⟨hxy, hxA, hxB, hxC, hyA, hyB, hyC, hBAC⟩ := Tree.nodup_rotate_parts hsnd
  have hYs := Tree.numbers_sublist_nodeOn_other side A xn (Tree.nodeOn side B yn C)
  have hBs := (Tree.numbers_sublist_nodeOn side B yn C).trans hYs
  have hCs := (Tree.numbers_sublist_nodeOn_other side B yn C).trans hYs
  have hAs := Tree.numbers_sublist_nodeOn side A xn (Tree.nodeOn side B yn C)
  have hxs : xn.seq ∈ (Tree.nodeOn side A xn (Tree.nodeOn side B yn C)).numbers :=
    Tree.mem_numbers_nodeOn.mpr (.inr (.inl rfl))
  have hys : yn.seq ∈ (Tree.nodeOn side A xn (Tree.nodeOn side B yn C)).numbers :=
    hYs.subset (Tree.mem_numbers_nodeOn.mpr (.inr (.inl rfl)))
  have hF : ∀ i ∈ (Tree.nodeOn side A xn (Tree.nodeOn side B yn C)).numbers,
      i ∉ Tree.frameNumbers fs := fun i hi => Tree.not_mem_frameNumbers hnd hi
  have hb : sy.child side = B.top? := hB.eq_top
  have hbB : ∀ i, some i = sy.child side → i ∈ B.numbers := fun i hi =>
    Tree.mem_numbers_of_top? (hb ▸ hi.symm)
  have hPs : ∀ i, some i = Tree.parentLink fs → i ∈ Tree.frameNumbers fs :=
    fun _ hi => Tree.mem_frameNumbers_of_parentLink hi.symm
  obtain ⟨a₂, hrot, hx₂, hy₂, hB₂, hsame₂, hnode₂, hsize₂, hroot₂⟩ :=
    rotate_eq_hang side hsx hyx hsy hB (hBs.nodup hsnd) hxB hyB hxy
  have habove₂ : Above a₂ fs (some xn.seq) :=
    habove.congr (fun i hi => hsame₂ i (fun h => hF _ hxs (h ▸ hi))
      (fun h => hF _ (hBs.subset (hbB i h)) hi)) hroot₂
  obtain ⟨habove₃, hy₃, hx₃, hsame₃, hsize₃⟩ := replaceParent_above habove₂ hx₂
    (by simpa using hsxp) hnd hxs hys hxy
  obtain ⟨a₄, ha₄⟩ : ∃ a₄, a₄ = (a₂.replaceParent xn.seq yn.seq).setChild side yn.seq
      (some xn.seq) := ⟨_, rfl⟩
  rw [← ha₄] at hrot
  have hsame₄ : ∀ i, i ≠ xn.seq → i ≠ yn.seq → some i ≠ sy.child side →
      some i ≠ Tree.parentLink fs → a₄.slots[i]? = a.slots[i]? := by
    intro i hix hiy hib hip
    rw [ha₄, setChild_eq, slots_modify_of_ne _ _ (Ne.symm hiy), hsame₃ i hix hiy hip,
      hsame₂ i hix hib]
  have hA₄ : Linked a₄ (sx.child side) (some xn.seq) A :=
    hA.congr fun i hi => hsame₄ i (fun h => hxA (h ▸ hi)) (fun h => hyA (h ▸ hi))
      (fun h => (hBAC i (hbB i h)).1 hi) (fun h => hF i (hAs.subset hi) (hPs i h))
  have hC₄ : Linked a₄ (sy.child side.other) (some yn.seq) C :=
    hC.congr fun i hi => hsame₄ i (fun h => hxC (h ▸ hi)) (fun h => hyC (h ▸ hi))
      (fun h => (hBAC i (hbB i h)).2 hi) (fun h => hF i (hCs.subset hi) (hPs i h))
  have hB₄ : Linked a₄ (sy.child side) (some xn.seq) B :=
    hB₂.congr fun i hi => by
      rw [ha₄, setChild_eq, slots_modify_of_ne _ _ (fun (h : yn.seq = i) => hyB (h ▸ hi)),
        hsame₃ i (fun h => hxB (h ▸ hi)) (fun h => hyB (h ▸ hi))
          (fun h => hF i (hBs.subset hi) (hPs i h))]
  have hX₄ : Linked a₄ (some xn.seq) (some yn.seq) (Tree.nodeOn side A xn B) := by
    refine linked_nodeOn.mpr ⟨rfl, { sx.withChild (sy.child side) side.other with
      parent := some yn.seq }, ?_, rfl, by simpa using hsxn, by simpa using hA₄,
      by simpa using hB₄⟩
    simp [ha₄, slots_modify, Ne.symm hxy, hx₃, hx₂]
  have hT₄ : Linked a₄ (some yn.seq) (Tree.parentLink fs)
      (Tree.nodeOn side (Tree.nodeOn side A xn B) yn C) := by
    refine linked_nodeOn.mpr ⟨rfl, ({ sy with parent := Tree.parentLink fs } : Slot α).withChild
      (some xn.seq) side, ?_, by simp, by simpa using hsyn, by simpa using hX₄,
      by simpa using hC₄⟩
    simp [ha₄, hy₃, hy₂]
  have hrnd : (Tree.nodeOn side (Tree.nodeOn side A xn B) yn C).numbers.Nodup :=
    (Tree.numbers_rotate_perm side A xn B yn C).nodup_iff.mpr hsnd
  have hXnd := (Tree.numbers_sublist_nodeOn side _ yn C).nodup hrnd
  have hT₅ : Linked (a₄.recompute xn.seq) (some yn.seq) (Tree.parentLink fs)
      (Tree.nodeOn side (Tree.nodeOn side A xn B).rebuild yn C) := by
    obtain ⟨-, sy₄, hsy₄, hp₄, hn₄, hX, hC⟩ := linked_nodeOn.mp hT₄
    refine linked_nodeOn.mpr ⟨rfl, sy₄, ?_, hp₄, hn₄, ?_, hC.modify_of_not_mem hxC _⟩
    · rw [recompute, slots_modify_of_ne _ _ hxy, hsy₄]
    · exact hX.recompute_top (Tree.top?_nodeOn _ _ _ _) hXnd
  have hrnd' : (Tree.nodeOn side (Tree.nodeOn side A xn B).rebuild yn C).numbers.Nodup := by
    cases side <;> simpa [Tree.nodeOn] using hrnd
  have hT₆ := hT₅.recompute_top (Tree.top?_nodeOn _ _ _ _) hrnd'
  have habove₆ : Above ((a₄.recompute xn.seq).recompute yn.seq) fs (some yn.seq) := by
    simp only [ha₄, recompute, setChild_eq]
    exact ((habove₃.modify_of_not_mem (hF _ hys) _).modify_of_not_mem (hF _ hxs) _)
      |>.modify_of_not_mem (hF _ hys) _
  rw [hrot]
  refine ⟨linked_plugAll_iff.mpr ⟨by simpa using habove₆, by simpa using hT₆⟩,
    by simp [recompute, ha₄, hsize₃, hsize₂], ?_, ?_⟩
  · intro i hix hiy hib hip
    simp only [recompute]
    rw [slots_modify_of_ne _ _ (Ne.symm hiy), slots_modify_of_ne _ _ (Ne.symm hix),
      hsame₄ i hix hiy (by rwa [hb]) hip]
  · intro i hix hiy
    simp only [recompute]
    rw [slots_modify_of_ne _ _ (Ne.symm hiy), slots_modify_of_ne _ _ (Ne.symm hix), ha₄,
      setChild_eq, slots_modify_of_ne _ _ (Ne.symm hiy)]
    by_cases hip : some i = Tree.parentLink fs
    · cases fs with
      | nil =>
          cases hip
      | cons f fs =>
          simp only [Tree.parentLink_cons, Option.some.injEq] at hip
          subst hip
          obtain ⟨s₃, hs₃, -, -, hn₃, -⟩ := habove₃.slot
          obtain ⟨s, hs, -, -, hn, -⟩ := habove.slot
          rw [hs₃, hs, Option.map_some, Option.map_some, hn₃, hn]
    · rw [hsame₃ i hix hiy hip]
      exact hnode₂ i hix

theorem rotate_of_child_none {x : Nat} {side : Tree.Side} (h : a.child side.other x = none) :
    a.rotate side x = a := by
  rw [Arena.rotate, h]

/-- A rotation at the top of a subtree at the end of a path gives the arena that holds the tree
with that subtree rotated. -/
theorem Linked.rotate {fs : List (Tree.Frame α)} {A Y : Tree α} {xn : Node α} (side : Tree.Side)
    (h : Linked a a.root none (Tree.plugAll fs (Tree.nodeOn side A xn Y)))
    (hnd : (Tree.plugAll fs (Tree.nodeOn side A xn Y)).numbers.Nodup) :
    Linked (a.rotate side xn.seq) (a.rotate side xn.seq).root none
        (Tree.plugAll fs ((Tree.nodeOn side A xn Y).rotate side)) ∧
      (a.rotate side xn.seq).size = a.size := by
  cases Y with
  | leaf =>
      obtain ⟨-, hs⟩ := linked_plugAll_iff.mp h
      rw [Tree.top?_nodeOn] at hs
      obtain ⟨-, sx, hsx, -, -, -, hY⟩ := linked_nodeOn.mp hs
      rw [rotate_of_child_none (by rw [child_of_slot hsx]; exact hY), Tree.rotate_nodeOn_leaf]
      exact ⟨h, rfl⟩
  | node l yn r =>
      obtain ⟨B, C, hBC⟩ := Tree.exists_nodeOn side l yn r
      rw [hBC] at h hnd ⊢
      obtain ⟨hlink, hsize, -⟩ := rotate_spec side h hnd
      rw [Tree.rotate_nodeOn]
      exact ⟨hlink, hsize⟩

/-- On an arena that holds a tree, the rotation at a node `x` with a child `y` on the other side
gives an arena that holds a tree with the same entries in the same order. It writes no slot but
those of `x`, of `y`, of the top of the subtree that changes hands and of the node above `x`,
and the root only when `x` is the root; it keeps the colour and interval of every slot and the
bound of every slot but those of `x` and `y`; every other node keeps its descendants; and the
bounds of `x` and then of `y` are those their new children give, so that recomputing them
changes nothing. -/
theorem rotate_frame {t : Tree α} (h : Represents a t) (side : Tree.Side) {x y : Nat}
    (hy : a.child side.other x = some y) :
    ∃ t', Represents (a.rotate side x) t' ∧ t'.entries = t.entries ∧
      (∀ i, i ≠ x → i ≠ y → some i ≠ a.child side y → some i ≠ a.parent x →
        (a.rotate side x).slots[i]? = a.slots[i]?) ∧
      (a.parent x ≠ none → (a.rotate side x).root = a.root) ∧
      (∀ i : Nat, ((a.rotate side x).slots[i]?).map (fun s : Slot α => (s.color, s.interval)) =
        (a.slots[i]?).map (fun s : Slot α => (s.color, s.interval))) ∧
      (∀ i, i ≠ x → i ≠ y → (a.rotate side x).summary i = a.summary i) ∧
      (∀ i < a.size, i ≠ x → i ≠ y → ∀ j,
        (∃ path, (a.rotate side x).follow (some i) path = some j) ↔
          ∃ path, a.follow (some i) path = some j) ∧
      (a.rotate side x).recompute x = a.rotate side x ∧
      (a.rotate side x).recompute y = a.rotate side x := by
  obtain ⟨hxs, -, -⟩ := h.child_link hy
  obtain ⟨fs, l, xn, r, rfl, rfl, hlink⟩ := h.exists_path hxs
  obtain ⟨A, Y, hAY⟩ := Tree.exists_nodeOn side l xn r
  rw [hAY] at h hlink ⊢
  obtain ⟨-, sx, hsx, -, hsxn, -, hlY⟩ := linked_nodeOn.mp hlink
  rw [child_of_slot hsx] at hy
  rw [hy] at hlY
  obtain ⟨B, yn, C, rfl, rfl⟩ : ∃ B yn C, Y = Tree.nodeOn side B yn C ∧ yn.seq = y := by
    cases Y with
    | leaf =>
        cases hlY
    | node l' yn r' =>
        obtain ⟨B, C, hBC⟩ := Tree.exists_nodeOn side l' yn r'
        exact ⟨B, yn, C, hBC, (Option.some.inj hlY.1).symm⟩
  obtain ⟨-, sy, hsy, -, hsyn, hlB, -⟩ := linked_nodeOn.mp hlY
  obtain ⟨hl', hsize', hframe, hnode⟩ := rotate_spec side h.linked h.nodup
  have hU : (Tree.nodeOn side (Tree.nodeOn side A xn B).rebuild yn C).rebuild.entries =
      (Tree.nodeOn side A xn (Tree.nodeOn side B yn C)).entries := by
    rw [← Tree.rotate_nodeOn, Tree.entries_rotate]
  have hUn : (Tree.nodeOn side (Tree.nodeOn side A xn B).rebuild yn C).rebuild.numbers =
      (Tree.nodeOn side A xn (Tree.nodeOn side B yn C)).numbers := by
    rw [Tree.numbers_eq_map_snd_entries, hU, ← Tree.numbers_eq_map_snd_entries]
  have hentries := Tree.entries_plugAll_congr fs hU
  have hnumbers := Tree.numbers_plugAll_congr fs hUn
  have hrep : Represents (a.rotate side xn.seq) (Tree.plugAll fs
      (Tree.nodeOn side (Tree.nodeOn side A xn B).rebuild yn C).rebuild) :=
    ⟨hl', by rw [hnumbers, hsize']; exact h.numbers_perm⟩
  have htop' := (linked_plugAll_iff.mp hl').2
  have hrecy := htop'.recompute_rebuild
  obtain ⟨v, hv⟩ := Tree.rebuild_nodeOn side (Tree.nodeOn side A xn B).rebuild yn C
  rw [hv, Tree.top?_nodeOn] at htop'
  obtain ⟨-, sy', hsy', -, hsyn', hlX, -⟩ := linked_nodeOn.mp htop'
  have hrecx := hlX.recompute_rebuild
  obtain ⟨v', hv'⟩ := Tree.rebuild_nodeOn side A xn B
  rw [hv'] at hlX
  obtain ⟨-, sx', hsx', -, hsxn', -⟩ := linked_nodeOn.mp hlX
  have hsx'' : (a.rotate side xn.seq).slots[xn.seq]? = some sx' := hsx'
  have hsy'' : (a.rotate side xn.seq).slots[yn.seq]? = some sy' := hsy'
  refine ⟨_, hrep, hentries, ?_, ?_, ?_, ?_, ?_, hrecx, hrecy⟩
  · intro i hix hiy hib hip
    refine hframe i hix hiy (by rwa [← hlB.eq_top, ← child_of_slot hsy]) ?_
    rwa [← hlink.parent_of_some.1]
  · intro hpx
    cases fs with
    | nil =>
        exact absurd hlink.parent_of_some.1 hpx
    | cons f fs =>
        rw [hl'.eq_top, h.linked.eq_top]
        exact Tree.top?_plugAll_cons f fs _ _
  · intro i
    by_cases hix : i = xn.seq
    · subst hix
      rw [hsx'', hsx, Option.map_some, Option.map_some,
        Slot.color_interval_eq_of_toNode hsxn hsxn']
    by_cases hiy : i = yn.seq
    · subst hiy
      rw [hsy'', hsy, Option.map_some, Option.map_some,
        Slot.color_interval_eq_of_toNode hsyn hsyn']
    have hmap := congrArg (Option.map fun n : Node α => (n.color, n.interval)) (hnode i hix hiy)
    simpa only [Option.map_map, Function.comp_def, Slot.toNode] using hmap
  · intro i hix hiy
    have hmap := congrArg (Option.map Node.maxHi) (hnode i hix hiy)
    simp only [Option.map_map, Function.comp_def, Slot.toNode] at hmap
    simp only [summary, hmap]
  · intro i hi hix hiy j
    have hit := h.mem_numbers_iff.mpr hi
    obtain ⟨q, hq⟩ := h.linked.subtreeAt h.nodup hit
    obtain ⟨q', hq'⟩ := hrep.linked.subtreeAt hrep.nodup (hnumbers ▸ hit)
    rw [hq'.follow_iff, hq.follow_iff]
    by_cases hiU : i ∈ (Tree.nodeOn side A xn (Tree.nodeOn side B yn C)).numbers
    · rw [Tree.subtreeAt_plugAll hrep.nodup (hUn ▸ hiU), Tree.subtreeAt_plugAll h.nodup hiU,
        Tree.subtreeAt_rotate ((Tree.numbers_sublist_plugAll fs _).nodup h.nodup) hix hiy]
    · rw [Tree.numbers_subtreeAt_plugAll_congr h.nodup hUn.symm hiU]

theorem rotate_frame_two_nodes :
    let a : Arena String := ⟨#[⟨none, some 1, none, .black, ⟨1, 5, "a"⟩, 10⟩,
      ⟨none, none, some 0, .red, ⟨6, 10, "b"⟩, 10⟩], some 0⟩
    a.child Tree.Side.left.other 0 = some 1 ∧ (a.rotate .left 0).recompute 0 = a.rotate .left 0 ∧
      (a.rotate .left 0).recompute 1 = a.rotate .left 0 := by
  intro a
  have hrep : Represents a (.node .leaf ⟨0, .black, ⟨1, 5, "a"⟩, 10⟩
      (.node .leaf ⟨1, .red, ⟨6, 10, "b"⟩, 10⟩ .leaf)) :=
    ⟨⟨rfl, _, rfl, rfl, rfl, rfl, rfl, _, rfl, rfl, rfl, rfl, rfl⟩, List.Perm.refl _⟩
  have hy : a.child Tree.Side.left.other 0 = some 1 := rfl
  obtain ⟨-, -, -, -, -, -, -, -, hx, hy'⟩ := rotate_frame hrep .left hy
  exact ⟨hy, hx, hy'⟩

end Arena

end IntervalIndex
