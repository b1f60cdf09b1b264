import IntervalIndex.Proofs.Arena.Rotate

/-!
# Insertion into the arena

`Arena.insert` appends the new node and links it in three passes, and each pass holds the tree
that its part of `Tree.insert` builds:

* `Arena.insertInner_spec`: the descent hangs the new node at the end of `Tree.descent`;
* `Arena.Climbing.fixLoop`: the repair, one round per `Arena.fixStep`, follows `Tree.fixUp` two
  frames at a time; after a rotation round the next round finds a black parent and stops;
* `Arena.Linked.absorbUp`: raising the bounds along the parent links raises the frames of the
  path to the new node, as `Tree.absorbAbove` does.

`Arena.Represents.insert` puts them together: an arena that holds `t` and has room holds
`t.insert z iv` after the insert, where `z`, its old size, is the position it reports.
-/

namespace IntervalIndex

namespace Arena

variable {α : Type} {a : Arena α}

theorem Linked.setColor_top {x p : Option Nat} {t : Tree α} {i : Nat} (h : Linked a x p t)
    (ht : t.top? = some i) (hnd : t.numbers.Nodup) (c : Color) :
    Linked (a.setColor i c) x p (t.paint c) := by
  cases t with
  | leaf =>
      cases ht
  | node l n r =>
      simp only [Tree.top?_node, Option.some.injEq] at ht
      subst ht
      obtain ⟨hl, hr⟩ := Tree.top_not_mem_of_nodup hnd
      obtain ⟨s, -, hp, hn, h'⟩ :=
        h.modify_top hl hr (fun s => { s with color := c }) fun _ => ⟨rfl, rfl⟩
      have hnode : ({ s with color := c } : Slot α).toNode n.seq = { n with color := c } := by
        rw [← hn]
        rfl
      rw [hnode, hp] at h'
      exact h'

/-!
## The descent
-/

theorem Linked.descend {key : UInt32} {x p : Option Nat} {t : Tree α} (h : Linked a x p t)
    {fuel : Nat} (hf : t.height ≤ fuel) :
    a.descend key fuel p x = (Tree.parentLink (Tree.descent key t)).or p := by
  induction t generalizing x p fuel with
  | leaf =>
      rw [h]
      cases fuel <;> rfl
  | node l n r ihl ihr =>
      have hkey := h.key_top
      obtain ⟨rfl, s, hs, -, -, hl, hr⟩ := h
      obtain ⟨fuel, rfl⟩ : ∃ f, fuel = f + 1 := ⟨fuel - 1, by simp [Tree.height] at hf; omega⟩
      simp only [Tree.height, Nat.add_le_add_iff_right, Nat.max_le] at hf
      rw [Arena.descend, sideFor, hkey, Tree.descent]
      by_cases hk : key < n.interval.lo
      · rw [if_pos hk, if_pos hk, child_of_slot hs, Slot.child_left, ihl hl hf.1,
          Tree.parentLink_append_singleton]
        cases Tree.parentLink (Tree.descent key l) <;> rfl
      · rw [if_neg hk, if_neg hk, child_of_slot hs, Slot.child_right, ihr hr hf.2,
          Tree.parentLink_append_singleton]
        cases Tree.parentLink (Tree.descent key r) <;> rfl

theorem Linked.push {x p : Option Nat} {t : Tree α} (h : Linked a x p t) (s : Slot α) :
    Linked { a with slots := a.slots.push s } x p t :=
  h.congr fun i hi => by
    have hlt : i < a.slots.size := h.lt_size i hi
    simp [Array.getElem?_push, Nat.ne_of_lt hlt]

theorem frameNumbers_subset {fs : List (Tree.Frame α)} {t : Tree α} {i : Nat}
    (hi : i ∈ Tree.frameNumbers fs) : i ∈ (Tree.plugAll fs t).numbers :=
  (Tree.numbers_plugAll fs t).mem_iff.mpr (List.mem_append_right _ hi)

/-- Hanging the new node, detached in the slot after the old ones: the arena holds the tree with
the node, red, at the end of the descent of its key. -/
theorem insertInner_spec {t : Tree α} (h : Represents a t) (iv : Interval α) :
    Linked (({ a with slots := a.slots.push (Slot.fresh iv) } : Arena α).insertInner a.size)
        (({ a with slots := a.slots.push (Slot.fresh iv) } : Arena α).insertInner a.size).root none
        (Tree.plugAll (Tree.descent iv.lo t) (.node .leaf ⟨a.size, .red, iv, iv.hi⟩ .leaf)) ∧
      (({ a with slots := a.slots.push (Slot.fresh iv) } : Arena α).insertInner a.size).size =
        a.size + 1 := by
  obtain ⟨a₀, ha₀⟩ : ∃ a₀ : Arena α, a₀ = { a with slots := a.slots.push (Slot.fresh iv) } :=
    ⟨_, rfl⟩
  rw [← ha₀]
  have hz : a₀.slots[a.size]? = some (Slot.fresh iv) := by
    rw [ha₀]
    exact Array.getElem?_push_size
  have hsize₀ : a₀.size = a.size + 1 := by
    simp [ha₀, size]
  have hlink₀ : Linked a₀ a₀.root none t := by
    rw [ha₀]
    exact h.linked.push _
  have hkey : a₀.key a.size = iv.lo := by
    rw [key_of_slot hz]
    rfl
  have hdesc : a₀.descend iv.lo a₀.size none a₀.root = Tree.parentLink (Tree.descent iv.lo t) := by
    rw [hlink₀.descend (by rw [hsize₀, h.size_eq]; exact Nat.le_succ_of_le (Tree.height_le_size t))]
    cases Tree.parentLink (Tree.descent iv.lo t) <;> rfl
  obtain ⟨fs, hfs⟩ : ∃ fs, fs = Tree.descent iv.lo t := ⟨_, rfl⟩
  rw [← hfs] at hdesc ⊢
  have ht : Tree.plugAll fs .leaf = t := hfs ▸ Tree.plugAll_descent iv.lo t
  have habove : Above a₀ fs none := by
    rw [← ht] at hlink₀
    exact (linked_plugAll_iff.mp hlink₀).1
  have hzF : a.size ∉ Tree.frameNumbers fs := fun hF =>
    Nat.lt_irrefl _ (h.mem_numbers_iff.mp (ht ▸ frameNumbers_subset hF))
  have hnd : (Tree.plugAll fs .leaf).numbers.Nodup := ht ▸ h.nodup
  have hnew : Linked (a₀.setParent a.size (Tree.parentLink fs)) (some a.size)
      (Tree.parentLink fs) (.node .leaf ⟨a.size, .red, iv, iv.hi⟩ .leaf) :=
    ⟨rfl, { Slot.fresh iv with parent := Tree.parentLink fs },
      by rw [setParent_eq, slots_modify_self, hz]; rfl, rfl, rfl, rfl, rfl⟩
  have hsize₁ : (a₀.setParent a.size (Tree.parentLink fs)).size = a.size + 1 := by
    rw [setParent_eq, size_modify, hsize₀]
  cases fs with
  | nil =>
      have hres : a₀.insertInner a.size =
          { a₀.setParent a.size none with root := some a.size } := by
        simp only [insertInner, hkey, hdesc, Tree.parentLink_nil]
      rw [hres]
      exact ⟨linked_plugAll_iff.mpr ⟨rfl, hnew.congr fun _ _ => rfl⟩, hsize₁⟩
  | cons f fs =>
      obtain ⟨sp, hsp, -, -, hn, -⟩ := habove.slot
      have hfz : f.node.seq ≠ a.size := fun hf => hzF (by simp [hf])
      have hkeyf : (a₀.setParent a.size (some f.node.seq)).key f.node.seq =
          f.node.interval.lo := by
        rw [key_of_slot (by rw [setParent_eq, slots_modify_of_ne _ _ (Ne.symm hfz), hsp]), ← hn]
        rfl
      have hside : (a₀.setParent a.size (some f.node.seq)).sideFor iv.lo f.node.seq =
          f.side := by
        rw [sideFor, hkeyf, Tree.side_of_mem_descent (hfs ▸ List.mem_cons_self)]
      have hres : a₀.insertInner a.size =
          (a₀.setParent a.size (Tree.parentLink (f :: fs))).setChild f.side f.node.seq
            (some a.size) := by
        simp only [insertInner, hkey, hdesc, Tree.parentLink_cons]
        rw [hside]
      have hp₁ : f.node.seq ∉ f.sibling.numbers := Tree.frame_not_mem_sibling
        ((Tree.numbers_sublist_plugAll fs _).nodup hnd)
      have hp₂ : f.node.seq ∉ Tree.frameNumbers fs := Tree.frame_not_mem_frameNumbers hnd
      rw [hres]
      refine ⟨linked_plugAll_iff.mpr ⟨?_, ?_⟩, by rw [setChild_eq, size_modify, hsize₁]⟩
      · exact (habove.modify_of_not_mem hzF _).repoint hp₁ hp₂ (some a.size)
      · refine hnew.congr fun i hi => ?_
        simp only [Tree.numbers_node, Tree.numbers_leaf, List.nil_append, List.mem_cons,
          List.not_mem_nil, or_false] at hi
        rw [hi, setChild_eq, slots_modify_of_ne _ _ hfz]

theorem Linked.setColor_child {x p : Option Nat} {side : Tree.Side} {c u : Tree α} {n : Node α}
    {i : Nat} (h : Linked a x p (Tree.nodeOn side c n u)) (hc : c.top? = some i)
    (hnd : (Tree.nodeOn side c n u).numbers.Nodup) (col : Color) :
    Linked (a.setColor i col) x p (Tree.nodeOn side (c.paint col) n u) := by
  obtain ⟨hx, s, hs, hp, hn, hcl, hul⟩ := linked_nodeOn.mp h
  have hperm := Tree.numbers_nodeOn side c n u
  rw [hperm.nodup_iff, List.nodup_append, List.nodup_cons] at hnd
  have hic : i ∈ c.numbers := Tree.mem_numbers_of_top? hc
  have hin : i ≠ n.seq := fun h => hnd.2.2 i hic _ List.mem_cons_self h
  have hiu : i ∉ u.numbers := fun h => hnd.2.2 i hic _ (List.mem_cons_of_mem _ h) rfl
  refine linked_nodeOn.mpr ⟨hx, s, ?_, hp, hn, hcl.setColor_top hc hnd.1 col,
    hul.modify_of_not_mem hiu _⟩
  rw [setColor_eq, slots_modify_of_ne _ _ hin, hs]

theorem Linked.setColor_hole {fs : List (Tree.Frame α)} {t : Tree α} {i : Nat}
    (h : Linked a a.root none (Tree.plugAll fs t)) (hnd : (Tree.plugAll fs t).numbers.Nodup)
    (ht : t.top? = some i) (c : Color) :
    Linked (a.setColor i c) (a.setColor i c).root none (Tree.plugAll fs (t.paint c)) := by
  obtain ⟨habove, hlink⟩ := linked_plugAll_iff.mp h
  have hi : i ∈ t.numbers := Tree.mem_numbers_of_top? ht
  refine linked_plugAll_iff.mpr ⟨?_, ?_⟩
  · rw [Tree.top?_paint]
    exact habove.modify_of_not_mem (Tree.not_mem_frameNumbers hnd hi) _
  · rw [Tree.top?_paint, ht]
    rw [ht] at hlink
    exact hlink.setColor_top ht ((Tree.numbers_sublist_plugAll fs t).nodup hnd) c

/-!
## The repair
-/

/-- The arena during the repair: it holds the tree whose path `fs` ends at the subtree `s` with
the top `z`, and whose numbers are apart. -/
structure Climbing (a : Arena α) (fs : List (Tree.Frame α)) (s : Tree α) (z : Nat) : Prop where
  linked : Linked a a.root none (Tree.plugAll fs s)
  nodup : (Tree.plugAll fs s).numbers.Nodup
  top : s.top? = some z

theorem Climbing.parent {fs : List (Tree.Frame α)} {s : Tree α} {z : Nat}
    (h : Climbing a fs s z) : a.parent z = Tree.parentLink fs := by
  obtain ⟨-, hs⟩ := linked_plugAll_iff.mp h.linked
  cases s with
  | leaf =>
      cases h.top
  | node l n r =>
      have hz := h.top
      simp only [Tree.top?_node, Option.some.injEq] at hz
      subst hz
      exact hs.parent_top

theorem Climbing.fixStep_nil {s : Tree α} {z : Nat} (h : Climbing a [] s z) :
    a.fixStep z = (a, none) := by
  rw [fixStep, h.parent]
  rfl

theorem Climbing.fixStep_singleton {fp : Tree.Frame α} {s : Tree α} {z : Nat}
    (h : Climbing a [fp] s z) : a.fixStep z = (a, none) := by
  obtain ⟨habove, -⟩ := linked_plugAll_iff.mp h.linked
  obtain ⟨sp, hsp, -, -, -, hpar⟩ := habove.slot
  rw [fixStep, h.parent, Tree.parentLink_cons]
  simp only [parent_of_slot hsp, hpar, Tree.parentLink_nil]
  split <;> rfl

section TwoFrames

variable {fp fg : Tree.Frame α} {rest : List (Tree.Frame α)} {s : Tree α} {z : Nat}
  (h : Climbing a (fp :: fg :: rest) s z)
include h

theorem Climbing.nodup_parent : (fp.plug s).numbers.Nodup :=
  (Tree.numbers_sublist_plugAll (fg :: rest) _).nodup h.nodup

theorem Climbing.nodup_grandparent : (fg.plug (fp.plug s)).numbers.Nodup :=
  (Tree.numbers_sublist_plugAll rest _).nodup h.nodup

theorem Climbing.mem_z : z ∈ s.numbers := Tree.mem_numbers_of_top? h.top

theorem Climbing.reads :
    a.parent z = some fp.node.seq ∧
      a.isBlack fp.node.seq = (fp.node.color == .black) ∧
      a.parent fp.node.seq = some fg.node.seq ∧
      a.sideOf fg.node.seq fp.node.seq = fg.side ∧
      (a.child fg.side.other fg.node.seq).filter a.isRed =
        (if fg.sibling.isRed then fg.sibling.top? else none) ∧
      (a.child fg.side.other fp.node.seq = some z ↔ fp.side ≠ fg.side) := by
  obtain ⟨habove, -⟩ := linked_plugAll_iff.mp h.linked
  rw [h.top] at habove
  obtain ⟨sp, hsp, hcp, hsibp, hnp, hparp, habove'⟩ := habove
  obtain ⟨sg, hsg, hcg, hsibg, hng, -⟩ := habove'
  obtain ⟨-, hzsib⟩ := Tree.not_mem_frame_of_nodup h.nodup_parent h.mem_z
  obtain ⟨-, hpsib⟩ := Tree.not_mem_frame_of_nodup h.nodup_grandparent
    (Tree.mem_numbers_plug.mpr (.inr (.inl rfl)))
  refine ⟨h.parent, ?_, by rw [parent_of_slot hsp, hparp]; rfl, ?_, ?_, ?_⟩
  · rw [isBlack_of_slot hsp, ← hnp]
    rfl
  · rw [sideOf, child_of_slot hsg]
    cases hside : fg.side with
    | left =>
        rw [hside] at hcg
        simp [hcg]
    | right =>
        rw [hside, Tree.Side.other_right] at hsibg
        have hne : sg.child .left ≠ some fp.node.seq := by
          rw [hsibg.eq_top]
          exact fun ht => hpsib (Tree.mem_numbers_of_top? ht)
        simp only [Slot.child_left] at hne
        simp [hne]
  · rw [child_of_slot hsg, hsibg.eq_top]
    cases hu : fg.sibling with
    | leaf =>
        rfl
    | node l un r =>
        rw [hu] at hsibg
        simp [Option.filter_some, hsibg.isRed_top, Tree.isRed]
  · rw [child_of_slot hsp]
    have hsibz : sp.child fp.side.other ≠ some z := by
      rw [hsibp.eq_top]
      exact fun ht => hzsib (Tree.mem_numbers_of_top? ht)
    by_cases hside : fp.side = fg.side
    · rw [← hside]
      exact ⟨fun h' => absurd h' hsibz, fun h' => absurd rfl h'⟩
    · have hother : fg.side.other = fp.side := by
        revert hside
        cases fp.side <;> cases fg.side <;> simp [Tree.Side.other]
      rw [hother, hcp]
      exact ⟨fun _ => hside, fun _ => rfl⟩

theorem Climbing.fixStep_recolor (hred : fp.node.color = .red) (hu : fg.sibling.isRed = true) :
    ∃ a', a.fixStep z = (a', some fg.node.seq) ∧
      Climbing a' rest (Tree.nodeOn fg.side ((fp.plug s).paint .black)
        { fg.node with color := .red } (fg.sibling.paint .black)) fg.node.seq ∧
      a'.size = a.size := by
  obtain ⟨hz, hpb, hpg, hside, hunc, -⟩ := h.reads
  obtain ⟨l, un, r, hsib⟩ : ∃ l un r, fg.sibling = .node l un r := by
    cases hs : fg.sibling with
    | leaf =>
        rw [hs] at hu
        cases hu
    | node l un r =>
        exact ⟨l, un, r, rfl⟩
  rw [hu, if_pos rfl, hsib, Tree.top?_node] at hunc
  have hnum : ∀ X Y : Tree α, X.numbers = (fp.plug s).numbers → Y.numbers = fg.sibling.numbers →
      ∀ n : Node α, n.seq = fg.node.seq →
        (Tree.plugAll rest (Tree.nodeOn fg.side X n Y)).numbers =
          (Tree.plugAll (fp :: fg :: rest) s).numbers :=
    fun X Y hX hY n hn => Tree.numbers_plugAll_congr rest (Tree.numbers_nodeOn_congr hX hn hY)
  have hl₀ : Linked a a.root none (Tree.plugAll (fg :: rest) (fp.plug s)) := h.linked
  have hl₁ := hl₀.setColor_hole (i := fp.node.seq) h.nodup (Tree.top?_nodeOn _ _ _ _) .black
  rw [Tree.plugAll_cons_swap] at hl₁
  have hl₂ := hl₁.setColor_hole (by rw [← Tree.plugAll_cons_swap, Tree.plugAll_cons,
    Tree.Frame.plug, hnum _ _ (by simp) rfl _ rfl]; exact h.nodup) (by rw [hsib]; rfl) .black
  rw [Tree.plugAll_cons, Tree.Frame.plug_mk, Tree.nodeOn_other] at hl₂
  have hl₃ := hl₂.setColor_hole (by
    rw [hnum ((fp.plug s).paint .black) (fg.sibling.paint .black) (by simp) (by simp) fg.node rfl]
    exact h.nodup) (Tree.top?_nodeOn _ _ _ _) .red
  rw [Tree.paint_nodeOn] at hl₃
  refine ⟨_, ?_, ⟨hl₃, ?_, Tree.top?_nodeOn _ _ _ _⟩, by simp⟩
  · rw [fixStep, hz]
    simp only [hpb, hred, hpg, hside, hunc]
    rfl
  · rw [hnum ((fp.plug s).paint .black) (fg.sibling.paint .black) (by simp) (by simp)
      { fg.node with color := .red } rfl]
    exact h.nodup

theorem Climbing.straighten :
    ∃ a₁ z' p' C pn B,
      (if a.child fg.side.other fp.node.seq = some z then
          (a.rotate fg.side fp.node.seq, fp.node.seq, z)
        else (a, z, fp.node.seq)) = (a₁, z', p') ∧
      (if fp.side = fg.side then fp.plug s else (fp.plug s).rotate fg.side) =
        Tree.nodeOn fg.side C pn B ∧
      pn.seq = p' ∧ C.top? = some z' ∧
      Linked a₁ a₁.root none (Tree.plugAll (fg :: rest) (Tree.nodeOn fg.side C pn B)) ∧
      (Tree.plugAll (fg :: rest) (Tree.nodeOn fg.side C pn B)).numbers.Nodup ∧
      a₁.size = a.size := by
  obtain ⟨-, -, -, -, -, hinner⟩ := h.reads
  obtain ⟨l, zn, r, rfl, rfl⟩ : ∃ l zn r, s = .node l zn r ∧ zn.seq = z := by
    cases s with
    | leaf =>
        cases h.top
    | node l zn r =>
        exact ⟨l, zn, r, rfl, Option.some.inj h.top⟩
  by_cases hs : fp.side = fg.side
  · have hplug :
        fp.plug (.node l zn r) = Tree.nodeOn fg.side (.node l zn r) fp.node fp.sibling := by
      rw [Tree.Frame.plug, hs]
    refine ⟨a, zn.seq, fp.node.seq, .node l zn r, fp.node, fp.sibling,
      if_neg fun hi => hinner.mp hi hs, by rw [if_pos hs, hplug], rfl, rfl, ?_, ?_, rfl⟩
    · rw [← hplug]
      exact h.linked
    · rw [← hplug]
      exact h.nodup
  · have hother : fp.side = fg.side.other := by
      revert hs
      cases fp.side <;> cases fg.side <;> simp [Tree.Side.other]
    obtain ⟨Bs, Cs, hBC⟩ := Tree.exists_nodeOn fg.side l zn r
    have hplug : fp.plug (.node l zn r) =
        Tree.nodeOn fg.side fp.sibling fp.node (Tree.nodeOn fg.side Bs zn Cs) := by
      rw [Tree.Frame.plug, hother, Tree.nodeOn_other, hBC]
    have hl : Linked a a.root none (Tree.plugAll (fg :: rest)
        (Tree.nodeOn fg.side fp.sibling fp.node (Tree.nodeOn fg.side Bs zn Cs))) := by
      rw [← hplug]
      exact h.linked
    have hnd : (Tree.plugAll (fg :: rest) (Tree.nodeOn fg.side fp.sibling fp.node
        (Tree.nodeOn fg.side Bs zn Cs))).numbers.Nodup := by
      rw [← hplug]
      exact h.nodup
    obtain ⟨hlr, hsize⟩ := hl.rotate fg.side hnd
    rw [Tree.rotate_nodeOn] at hlr
    obtain ⟨v, hm⟩ :=
      Tree.rebuild_nodeOn fg.side (Tree.nodeOn fg.side fp.sibling fp.node Bs).rebuild zn Cs
    rw [hm] at hlr
    refine ⟨_, fp.node.seq, zn.seq, (Tree.nodeOn fg.side fp.sibling fp.node Bs).rebuild,
      { zn with maxHi := v }, Cs, if_pos (hinner.mpr hs), ?_, rfl, by simp, hlr, ?_, hsize⟩
    · rw [if_neg hs, hplug, Tree.rotate_nodeOn, hm]
    · have hperm : (Tree.plugAll (fg :: rest) (Tree.nodeOn fg.side
          (Tree.nodeOn fg.side fp.sibling fp.node Bs).rebuild
            { zn with maxHi := v } Cs)).numbers =
          (Tree.plugAll (fg :: rest)
            (Tree.nodeOn fg.side (Tree.nodeOn fg.side fp.sibling fp.node Bs) zn Cs)).numbers :=
        Tree.numbers_plugAll_congr _ (Tree.numbers_nodeOn_congr (by simp) rfl rfl)
      rw [hperm]
      exact ((Tree.numbers_plugAll_perm _
        (Tree.numbers_rotate_perm _ _ _ _ _ _)).nodup_iff).mpr hnd

theorem Climbing.fixStep_rotate (hred : fp.node.color = .red) (hu : fg.sibling.isRed = false) :
    ∃ a' z', a.fixStep z = (a', some z') ∧ a'.fixStep z' = (a', none) ∧
      Linked a' a'.root none (Tree.plugAll rest
        ((Tree.nodeOn fg.side ((if fp.side = fg.side then fp.plug s else
          (fp.plug s).rotate fg.side).paint .black) { fg.node with color := .red }
            fg.sibling).rotate fg.side.other)) ∧
      a'.size = a.size := by
  obtain ⟨hz, hpb, hpg, hside, hunc, -⟩ := h.reads
  rw [hu, if_neg Bool.false_ne_true] at hunc
  obtain ⟨a₁, z', p', C, pn, B, hfirst, hP, hpn, hC, hl₁, hnd₁, hsize₁⟩ := h.straighten
  subst hpn
  have hl₂ := hl₁.setColor_hole hnd₁ (Tree.top?_nodeOn _ _ _ _) .black
  have hnd₂ :
      (Tree.plugAll (fg :: rest) ((Tree.nodeOn fg.side C pn B).paint .black)).numbers.Nodup := by
    rwa [Tree.numbers_plugAll_congr _ (Tree.numbers_paint _ _)]
  rw [Tree.plugAll_cons] at hl₂ hnd₂
  have hl₃ := hl₂.setColor_hole hnd₂ (Tree.top?_nodeOn _ _ _ _) .red
  have hnd₃ : (Tree.plugAll rest ((fg.plug ((Tree.nodeOn fg.side C pn B).paint .black)).paint
      .red)).numbers.Nodup := by
    rwa [Tree.numbers_plugAll_congr _ (Tree.numbers_paint _ _)]
  rw [Tree.Frame.plug, Tree.paint_nodeOn, ← Tree.nodeOn_other fg.side fg.sibling] at hl₃ hnd₃
  obtain ⟨hl₄, hsize₄⟩ := hl₃.rotate fg.side.other hnd₃
  refine ⟨((a₁.setColor pn.seq .black).setColor fg.node.seq .red).rotate fg.side.other fg.node.seq,
    z', ?_, ?_, ?_, ?_⟩
  · rw [fixStep, hz]
    simp only [hpb, hred, hpg, hside, hunc]
    simp [hfirst]
  · rw [Tree.paint_nodeOn, ← Tree.nodeOn_other fg.side B, Tree.rotate_nodeOn] at hl₄
    obtain ⟨v, hm⟩ := Tree.rebuild_nodeOn fg.side.other
      (Tree.nodeOn fg.side.other fg.sibling { fg.node with color := .red } B).rebuild
      { pn with color := .black } C
    rw [hm] at hl₄
    obtain ⟨-, sl, hsl, -, hsn, -, hlC⟩ := linked_nodeOn.mp (linked_plugAll_iff.mp hl₄).2
    cases C with
    | leaf =>
        cases hC
    | node cl zn' cr =>
        cases hC
        have hblack : sl.color = .black := congrArg Node.color hsn
        rw [fixStep, hlC.parent_top]
        simp only [isBlack_of_slot hsl, hblack, beq_self_eq_true, ite_true]
  · rw [hP, ← Tree.nodeOn_other fg.side fg.sibling]
    exact hl₄
  · exact hsize₄.trans (by simp [hsize₁])

theorem Climbing.fixStep_black (hblack : fp.node.color ≠ .red) : a.fixStep z = (a, none) := by
  obtain ⟨hz, hpb, -⟩ := h.reads
  have hc : fp.node.color = .black := by
    cases hcol : fp.node.color
    · exact absurd hcol hblack
    · rfl
  rw [fixStep, hz]
  simp [hpb, hc]

end TwoFrames

/-- With a round of fuel for each frame, the rounds of the repair climb the path as
`Tree.fixUp` does. -/
theorem Climbing.fixLoop {fs : List (Tree.Frame α)} {s : Tree α} {z fuel : Nat}
    (h : Climbing a fs s z) (hfuel : fs.length < fuel) :
    Linked (a.fixLoop z fuel) (a.fixLoop z fuel).root none (Tree.fixUp s fs) ∧
      (a.fixLoop z fuel).size = a.size := by
  obtain ⟨k, rfl⟩ := Nat.exists_eq_add_of_lt hfuel
  clear hfuel
  fun_induction Tree.fixUp s fs generalizing a z k with
  | case1 s =>
      rw [Arena.fixLoop, h.fixStep_nil]
      exact ⟨h.linked, rfl⟩
  | case2 s fp =>
      rw [Arena.fixLoop, h.fixStep_singleton]
      exact ⟨h.linked, rfl⟩
  | case3 s fp fg rest hred hu ih =>
      obtain ⟨a', hstep, h', hsize⟩ := h.fixStep_recolor hred hu
      have hk : (fp :: fg :: rest).length + k = rest.length + (k + 1) + 1 := by
        simp only [List.length_cons]
        omega
      rw [Arena.fixLoop, hstep]
      dsimp only
      rw [hk]
      obtain ⟨hl, hs⟩ := ih h' (k + 1)
      exact ⟨hl, hs.trans hsize⟩
  | case4 s fp fg rest hred hu =>
      obtain ⟨a', z', hstep, hstop, hl, hsize⟩ := h.fixStep_rotate hred (by simpa using hu)
      have hk : (fp :: fg :: rest).length + k = rest.length + k + 1 + 1 := by
        simp only [List.length_cons]
        omega
      rw [Arena.fixLoop, hstep]
      dsimp only
      rw [hk, Arena.fixLoop, hstop]
      exact ⟨hl, hsize⟩
  | case5 s fp fg rest hblack =>
      rw [Arena.fixLoop, h.fixStep_black hblack]
      exact ⟨h.linked, rfl⟩

theorem Climbing.insertFixup {fs : List (Tree.Frame α)} {s : Tree α} {z : Nat}
    (h : Climbing a fs s z) (hfuel : fs.length < a.size) :
    Linked (a.insertFixup z) (a.insertFixup z).root none ((Tree.fixUp s fs).paint .black) ∧
      (a.insertFixup z).size = a.size := by
  obtain ⟨hl, hsize⟩ := h.fixLoop hfuel
  have hnd : (Tree.plugAll [] (Tree.fixUp s fs)).numbers.Nodup := by
    rw [Tree.plugAll_nil, Tree.numbers_fixUp]
    exact h.nodup
  cases ht : Tree.fixUp s fs with
  | leaf =>
      rw [ht] at hl
      have hr : (a.fixLoop z a.size).root = none := hl
      simp only [Arena.insertFixup, hr]
      exact ⟨rfl, hsize⟩
  | node l n r =>
      rw [ht] at hl hnd
      have hr : (a.fixLoop z a.size).root = some n.seq := hl.eq_top
      simp only [Arena.insertFixup, hr]
      have hl₀ : Linked (a.fixLoop z a.size) (a.fixLoop z a.size).root none
          (Tree.plugAll [] (.node l n r)) := hl
      exact ⟨hl₀.setColor_hole hnd rfl .black, by simp [hsize]⟩

/-!
## Raising the bounds above the new node
-/

/-- Following the parent links from the end of a path, `absorbUp` raises the bound of each node
of the path and of no other. -/
theorem Linked.absorbUp {fs : List (Tree.Frame α)} {u : Tree α} {fuel : Nat} (v : UInt32)
    (h : Linked a a.root none (Tree.plugAll fs u)) (hnd : (Tree.plugAll fs u).numbers.Nodup)
    (hfuel : fs.length ≤ fuel) :
    Linked (a.absorbUp v fuel (Tree.parentLink fs)) (a.absorbUp v fuel (Tree.parentLink fs)).root
        none (Tree.plugAll (fs.map (Tree.Frame.raise v)) u) ∧
      (a.absorbUp v fuel (Tree.parentLink fs)).size = a.size := by
  induction fs generalizing a u fuel with
  | nil =>
      cases fuel <;> exact ⟨h, rfl⟩
  | cons f fs ih =>
      obtain ⟨k, rfl⟩ : ∃ k, fuel = k + 1 := ⟨fuel - 1, by simp at hfuel; omega⟩
      obtain ⟨l, r, hplug, hraise⟩ := Tree.plug_node_raise f u v
      have hraised : (Tree.plugAll fs ((f.raise v).plug u)).numbers =
          (Tree.plugAll fs (f.plug u)).numbers :=
        Tree.numbers_plugAll_congr fs (Tree.numbers_nodeOn_congr rfl rfl rfl)
      have hnd' : (Tree.plugAll fs ((f.raise v).plug u)).numbers.Nodup := by
        rwa [hraised]
      rw [Tree.plugAll_cons, hplug] at h hnd
      obtain ⟨habove, htop⟩ := linked_plugAll_iff.mp h
      obtain ⟨hl, hr⟩ := Tree.top_not_mem_of_nodup ((Tree.numbers_sublist_plugAll fs _).nodup hnd)
      obtain ⟨sl, hsl, hpar, hn, htop'⟩ := htop.modify_top hl hr
        (fun s => { s with maxHi := max s.maxHi v }) fun _ => ⟨rfl, rfl⟩
      have hnode : ({ sl with maxHi := max sl.maxHi v } : Slot α).toNode f.node.seq =
          (f.raise v).node := by
        show _ = { f.node with maxHi := max f.node.maxHi v }
        rw [← hn]
        rfl
      rw [hnode, hpar] at htop'
      have hlink : Linked (a.modify f.node.seq fun s => { s with maxHi := max s.maxHi v })
          (a.modify f.node.seq fun s => { s with maxHi := max s.maxHi v }).root none
          (Tree.plugAll fs ((f.raise v).plug u)) := by
        rw [hraise]
        refine linked_plugAll_iff.mpr ⟨?_, htop'⟩
        exact habove.modify_of_not_mem (Tree.frame_not_mem_frameNumbers (t := u)
          (by rwa [Tree.plugAll_cons, hplug])) _
      have hparent : (a.modify f.node.seq fun s => { s with maxHi := max s.maxHi v }).parent
          f.node.seq = Tree.parentLink fs := by
        rw [parent_of_slot (by rw [slots_modify_self, hsl]; rfl)]
        exact hpar
      obtain ⟨hl', hs'⟩ := ih hlink hnd' (by simp at hfuel; omega)
      simp only [Tree.parentLink_cons, Arena.absorbUp, hparent]
      exact ⟨hl', hs'.trans (size_modify _ _ _)⟩

theorem insert_of_full {bits : Nat} (iv : Interval α)
    (h : NodeIndex.ofNat bits a.size = NodeIndex.sentinel bits) :
    a.insert bits iv = (a, .error .outOfMemory) := by
  simp [Arena.insert, h]

namespace Represents

variable {t : Tree α} (h : Represents a t)
include h

theorem propagateUp {z : Nat} (hz : z ∈ t.numbers) :
    Represents (a.propagateUp z) (t.absorbAbove z (((t.lookup z).map (·.maxHi)).getD 0)) := by
  obtain ⟨fs, l, n, r, rfl, rfl⟩ := Tree.exists_plugAll_of_mem hz
  obtain ⟨-, htop⟩ := linked_plugAll_iff.mp h.linked
  have hsum : a.summary n.seq = n.maxHi := htop.summary
  have hfuel : fs.length ≤ a.size := by
    have := Tree.length_le_size_plugAll fs (.node l n r)
    rw [h.size_eq]
    omega
  obtain ⟨hl, hsize⟩ := h.linked.absorbUp n.maxHi h.nodup hfuel
  have hn : n.seq ∈ (Tree.node l n r).numbers := by simp
  rw [Tree.lookup_plugAll hn h.nodup, Tree.lookup_top, Option.map_some, Option.getD_some]
  unfold propagateUp
  rw [hsum, htop.parent_top]
  refine ⟨?_, ?_⟩
  · rw [Tree.absorbAbove_plugAll _ hn h.nodup, Tree.absorbAbove_top]
    exact hl
  · rw [Tree.numbers_absorbAbove, hsize]
    exact h.numbers_perm

/-- Adding an interval to an arena that holds `t`, with a position to spare below the reserved
one: the new node takes the next position, and the arena then holds `t.insert` of it. -/
theorem insert {bits : Nat} (iv : Interval α) (hroom : a.size < NodeIndex.sentinel bits) :
    (a.insert bits iv).2 = .ok a.size ∧ Represents (a.insert bits iv).1 (t.insert a.size iv) := by
  have hz : NodeIndex.ofNat bits a.size = a.size :=
    Nat.mod_eq_of_lt (by unfold NodeIndex.sentinel at hroom; omega)
  simp only [Arena.insert, hz, if_neg (Nat.ne_of_lt hroom), true_and]
  obtain ⟨hl₁, hsize₁⟩ := insertInner_spec h iv
  obtain ⟨a₁, ha₁⟩ : ∃ a₁,
      a₁ = ({ a with slots := a.slots.push (Slot.fresh iv) } : Arena α).insertInner a.size :=
    ⟨_, rfl⟩
  rw [← ha₁] at hl₁ hsize₁ ⊢
  have hperm : (Tree.plugAll (Tree.descent iv.lo t)
      (.node .leaf ⟨a.size, .red, iv, iv.hi⟩ .leaf)).numbers.Perm (List.range (a.size + 1)) := by
    have ht := (Tree.numbers_plugAll (Tree.descent iv.lo t) .leaf).symm
    rw [Tree.plugAll_descent, Tree.numbers_leaf, List.nil_append] at ht
    refine (Tree.numbers_plugAll _ _).trans ?_
    rw [List.range_succ]
    simp only [Tree.numbers_node, Tree.numbers_leaf, List.nil_append, List.singleton_append]
    exact ((ht.trans h.numbers_perm).cons _).trans (List.perm_append_singleton _ _).symm
  have hclimb : Climbing a₁ (Tree.descent iv.lo t) (.node .leaf ⟨a.size, .red, iv, iv.hi⟩ .leaf)
      a.size := ⟨hl₁, hperm.nodup_iff.mpr List.nodup_range, rfl⟩
  have hfuel : (Tree.descent iv.lo t).length < a₁.size := by
    rw [hsize₁, h.size_eq]
    exact Nat.lt_succ_of_le (Tree.length_descent_le iv.lo t)
  obtain ⟨hl₂, hsize₂⟩ := hclimb.insertFixup hfuel
  have hrep : Represents (a₁.insertFixup a.size)
      ((Tree.place ⟨a.size, .red, iv, iv.hi⟩ t).1.paint .black) := by
    rw [Tree.place_eq_fixUp]
    refine ⟨hl₂, ?_⟩
    rw [Tree.numbers_paint, Tree.numbers_fixUp, hsize₂, hsize₁]
    exact hperm
  exact hrep.propagateUp (hrep.mem_numbers_iff.mpr (by rw [hsize₂, hsize₁]; omega))

end Represents

end Arena

end IntervalIndex
