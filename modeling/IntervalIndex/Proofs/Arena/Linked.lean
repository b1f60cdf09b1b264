import IntervalIndex.Arena.Insert
import IntervalIndex.Tree.Search
import IntervalIndex.Proofs.Tree.Zipper

/-!
# Arenas that hold a tree

`Arena.Linked a x p t` says that the link `x`, from the node at position `p`, leads to the tree
`t`: every node of `t` is stored at the position of its number, in a slot that names its parent
and stands for the node, and whose child links lead to its subtrees. `Arena.Represents a t` adds
that the numbers of `t` are the positions `0, …, size - 1`, each once, so that every slot is a
node of the tree reached from the root along one path. The tree read from the root is then `t`
(`Arena.Represents.tree_eq`).

A link depends only on the slots of the nodes it leads to (`Arena.Linked.congr`), so a write to
any other slot keeps it. `Arena.Above a fs x` describes the nodes of a path from the root down to
the link `x`, and `Arena.linked_plugAll_iff` splits a tree at the end of a path into these two
parts: a change below the hole and a change of the link into it are then proved apart.
-/

namespace IntervalIndex

namespace Slot

variable {α : Type}

@[simp] theorem child_left (s : Slot α) : s.child .left = s.left := rfl

@[simp] theorem child_right (s : Slot α) : s.child .right = s.right := rfl

@[simp] theorem child_withChild_self (s : Slot α) (c : Option Nat) (side : Tree.Side) :
    (s.withChild c side).child side = c := by
  cases side <;> rfl

@[simp] theorem child_withChild_other (s : Slot α) (c : Option Nat) (side : Tree.Side) :
    (s.withChild c side).child side.other = s.child side.other := by
  cases side <;> rfl

@[simp] theorem parent_withChild (s : Slot α) (c : Option Nat) (side : Tree.Side) :
    (s.withChild c side).parent = s.parent := by
  cases side <;> rfl

@[simp] theorem toNode_withChild (s : Slot α) (c : Option Nat) (side : Tree.Side) (i : Nat) :
    (s.withChild c side).toNode i = s.toNode i := by
  cases side <;> rfl

@[simp] theorem child_withChild_of_other (s : Slot α) (c : Option Nat) (side : Tree.Side) :
    (s.withChild c side.other).child side = s.child side := by
  cases side <;> rfl

@[simp] theorem child_withParent (s : Slot α) (p : Option Nat) (side : Tree.Side) :
    ({ s with parent := p } : Slot α).child side = s.child side := by
  cases side <;> rfl

@[simp] theorem seq_toNode (s : Slot α) (i : Nat) : (s.toNode i).seq = i := rfl

@[simp] theorem toNode_withParent (s : Slot α) (p : Option Nat) (i : Nat) :
    ({ s with parent := p } : Slot α).toNode i = s.toNode i := rfl

theorem color_interval_eq_of_toNode {s s' : Slot α} {i i' : Nat} {n : Node α} {v : UInt32}
    (h : s.toNode i = n) (h' : s'.toNode i' = { n with maxHi := v }) :
    (s'.color, s'.interval) = (s.color, s.interval) := by
  subst h
  simp only [toNode, Node.mk.injEq] at h'
  rw [h'.2.1, h'.2.2.1]

end Slot

namespace Arena

variable {α : Type} {a b : Arena α}

/-!
## Reads and writes
-/

@[simp] theorem size_modify (a : Arena α) (i : Nat) (f : Slot α → Slot α) :
    (a.modify i f).size = a.size := by
  simp [modify, size]

@[simp] theorem root_modify (a : Arena α) (i : Nat) (f : Slot α → Slot α) :
    (a.modify i f).root = a.root := rfl

theorem slots_modify (a : Arena α) (i : Nat) (f : Slot α → Slot α) (j : Nat) :
    (a.modify i f).slots[j]? = if i = j then (a.slots[j]?).map f else a.slots[j]? :=
  Array.getElem?_modify

@[simp] theorem slots_modify_self (a : Arena α) (i : Nat) (f : Slot α → Slot α) :
    (a.modify i f).slots[i]? = (a.slots[i]?).map f := by
  simp [slots_modify]

theorem slots_modify_of_ne (a : Arena α) {i j : Nat} (f : Slot α → Slot α) (h : i ≠ j) :
    (a.modify i f).slots[j]? = a.slots[j]? := by
  simp [slots_modify, h]

@[simp] theorem setChild_eq (a : Arena α) (side : Tree.Side) (i : Nat) (c : Option Nat) :
    a.setChild side i c = a.modify i (·.withChild c side) := rfl

@[simp] theorem setParent_eq (a : Arena α) (i : Nat) (p : Option Nat) :
    a.setParent i p = a.modify i fun s => { s with parent := p } := rfl

@[simp] theorem setColor_eq (a : Arena α) (i : Nat) (c : Color) :
    a.setColor i c = a.modify i fun s => { s with color := c } := rfl

theorem modify_eq_self {i : Nat} {s : Slot α} {f : Slot α → Slot α} (hs : a.slots[i]? = some s)
    (hf : f s = s) : a.modify i f = a := by
  have hslots : a.slots.modify i f = a.slots := Array.ext_getElem? fun j => by
    have hj := slots_modify a i f j
    simp only [modify] at hj
    rw [hj]
    split
    · subst_vars
      rw [hs, Option.map_some, hf]
    · rfl
  unfold modify
  rw [hslots]

theorem lt_size_of_slot {i : Nat} {s : Slot α} (h : a.slots[i]? = some s) : i < a.size :=
  (Array.getElem?_eq_some_iff.mp h).1

section Reads

variable {i : Nat} {s : Slot α} (h : a.slots[i]? = some s)
include h

theorem child_of_slot (side : Tree.Side) : a.child side i = s.child side := by
  simp [child, h]

theorem parent_of_slot : a.parent i = s.parent := by
  simp [parent, h]

theorem isRed_of_slot : a.isRed i = (s.color == .red) := by
  simp [isRed, h]

theorem isBlack_of_slot : a.isBlack i = (s.color == .black) := by
  simp [isBlack, h]

theorem key_of_slot : a.key i = s.interval.lo := by
  simp [key, h]

theorem summary_of_slot : a.summary i = s.maxHi := by
  simp [summary, h]

end Reads

/-!
## Links to a tree
-/

/-- The link `x`, from the node at position `p`, leads to `t`: the empty link to the empty tree,
and to a node the slot at its number, which names `p` as its parent, stands for the node, and
whose links lead to the node's subtrees. -/
def Linked (a : Arena α) : Option Nat → Option Nat → Tree α → Prop
  | x, _, .leaf => x = none
  | x, p, .node l n r =>
    x = some n.seq ∧ ∃ s, a.slots[n.seq]? = some s ∧ s.parent = p ∧ s.toNode n.seq = n ∧
      Linked a s.left (some n.seq) l ∧ Linked a s.right (some n.seq) r

variable {x p : Option Nat} {t : Tree α}

@[simp] theorem linked_leaf : Linked a x p .leaf ↔ x = none := Iff.rfl

theorem linked_node {l r : Tree α} {n : Node α} :
    Linked a x p (.node l n r) ↔ x = some n.seq ∧ ∃ s, a.slots[n.seq]? = some s ∧
      s.parent = p ∧ s.toNode n.seq = n ∧ Linked a s.left (some n.seq) l ∧
        Linked a s.right (some n.seq) r := Iff.rfl

theorem linked_nodeOn {side : Tree.Side} {c u : Tree α} {n : Node α} :
    Linked a x p (Tree.nodeOn side c n u) ↔ x = some n.seq ∧ ∃ s, a.slots[n.seq]? = some s ∧
      s.parent = p ∧ s.toNode n.seq = n ∧ Linked a (s.child side) (some n.seq) c ∧
        Linked a (s.child side.other) (some n.seq) u := by
  cases side with
  | left =>
      rfl
  | right =>
      constructor
      · rintro ⟨hx, s, hs, hp, hn, hl, hr⟩
        exact ⟨hx, s, hs, hp, hn, hr, hl⟩
      · rintro ⟨hx, s, hs, hp, hn, hr, hl⟩
        exact ⟨hx, s, hs, hp, hn, hl, hr⟩

theorem Linked.eq_top (h : Linked a x p t) : x = t.top? := by
  cases t with
  | leaf =>
      exact h
  | node l n r =>
      exact h.1

theorem linked_iff_top : Linked a x p t ↔ x = t.top? ∧ Linked a t.top? p t :=
  ⟨fun h => ⟨h.eq_top, h.eq_top ▸ h⟩, fun ⟨hx, h⟩ => hx ▸ h⟩

/-!
## Reads at a linked node
-/

section Top

variable {l r : Tree α} {n : Node α} (h : Linked a x p (.node l n r))
include h

theorem Linked.parent_top : a.parent n.seq = p := by
  obtain ⟨-, s, hs, hp, -⟩ := h
  rw [parent_of_slot hs, hp]

theorem Linked.isBlack_top : a.isBlack n.seq = (n.color == .black) := by
  obtain ⟨-, s, hs, -, hn, -⟩ := h
  rw [isBlack_of_slot hs, ← hn]
  rfl

theorem Linked.isRed_top : a.isRed n.seq = (n.color == .red) := by
  obtain ⟨-, s, hs, -, hn, -⟩ := h
  rw [isRed_of_slot hs, ← hn]
  rfl

theorem Linked.key_top : a.key n.seq = n.interval.lo := by
  obtain ⟨-, s, hs, -, hn, -⟩ := h
  rw [key_of_slot hs, ← hn]
  rfl

end Top

theorem Linked.parent_of_some {j : Nat} (h : Linked a (some j) p t) :
    a.parent j = p ∧ j ∈ t.numbers := by
  cases t with
  | leaf =>
      cases h
  | node l n r =>
      obtain rfl : n.seq = j := (Option.some.inj h.1).symm
      exact ⟨h.parent_top, by simp⟩

theorem Linked.congr (h : Linked a x p t) (hs : ∀ i ∈ t.numbers, b.slots[i]? = a.slots[i]?) :
    Linked b x p t := by
  induction t generalizing x p with
  | leaf =>
      exact h
  | node l n r ihl ihr =>
      obtain ⟨hx, s, hslot, hp, hn, hl, hr⟩ := h
      refine ⟨hx, s, ?_, hp, hn, ihl hl fun i hi => hs i (by simp [hi]),
        ihr hr fun i hi => hs i (by simp [hi])⟩
      rw [hs n.seq (by simp), hslot]

theorem Linked.modify_of_not_mem (h : Linked a x p t) {i : Nat} (hi : i ∉ t.numbers)
    (f : Slot α → Slot α) : Linked (a.modify i f) x p t :=
  h.congr fun _ hj => a.slots_modify_of_ne f fun hij => hi (hij ▸ hj)

theorem Linked.lt_size (h : Linked a x p t) : ∀ i ∈ t.numbers, i < a.size := by
  induction t generalizing x p with
  | leaf =>
      simp
  | node l n r ihl ihr =>
      obtain ⟨-, s, hslot, -, -, hl, hr⟩ := h
      intro i hi
      simp only [Tree.numbers_node, List.mem_append, List.mem_cons] at hi
      rcases hi with hi | rfl | hi
      · exact ihl hl i hi
      · exact lt_size_of_slot hslot
      · exact ihr hr i hi

theorem Linked.summary (h : Linked a x p t) : (x.map a.summary).getD 0 = t.maxHi := by
  cases t with
  | leaf =>
      rw [h]
      rfl
  | node l n r =>
      obtain ⟨rfl, s, hslot, -, hn, -⟩ := h
      rw [Option.map_some, Option.getD_some, summary_of_slot hslot]
      exact congrArg Node.maxHi hn

theorem Linked.subtree_eq (h : Linked a x p t) {fuel : Nat} (hf : t.height ≤ fuel) :
    a.subtree fuel x = t := by
  induction t generalizing x p fuel with
  | leaf =>
      rw [h]
      cases fuel <;> rfl
  | node l n r ihl ihr =>
      obtain ⟨rfl, s, hslot, -, hn, hl, hr⟩ := h
      obtain ⟨fuel, rfl⟩ : ∃ f, fuel = f + 1 := ⟨fuel - 1, by simp [Tree.height] at hf; omega⟩
      simp only [Tree.height, Nat.add_le_add_iff_right, Nat.max_le] at hf
      simp only [subtree, hslot]
      rw [ihl hl hf.1, ihr hr hf.2, hn]

theorem Linked.reaches (h : Linked a x p t) (v : UInt32) : a.reaches v x = t.reaches v := by
  cases t with
  | leaf =>
      rw [h]
      rfl
  | node l n r =>
      obtain ⟨rfl, s, hslot, -, hn, -⟩ := h
      simp only [Arena.reaches, Option.bind_some, hslot, Tree.reaches]
      rw [← hn]
      rfl

/-- The pruned walk along the links finds what the pruned walk of the tree finds. -/
theorem Linked.collect (h : Linked a x p t) (rel : Relation) (q : Span) {fuel : Nat}
    (hf : t.height ≤ fuel) : a.collect rel q fuel x = t.collect rel q := by
  induction t generalizing x p fuel with
  | leaf =>
      rw [h]
      cases fuel <;> rfl
  | node l n r ihl ihr =>
      obtain ⟨rfl, s, hslot, -, hn, hl, hr⟩ := h
      obtain ⟨fuel, rfl⟩ : ∃ f, fuel = f + 1 := ⟨fuel - 1, by simp [Tree.height] at hf; omega⟩
      simp only [Tree.height, Nat.add_le_add_iff_right, Nat.max_le] at hf
      simp only [Arena.collect, hslot, Tree.collect]
      rw [ihl hl hf.1, ihr hr hf.2, ← hn]
      rfl

/-- The single path along the links answers as the single path of the tree. -/
theorem Linked.anyOverlap (h : Linked a x p t) (q : Span) {fuel : Nat} (hf : t.height ≤ fuel) :
    a.anyOverlap q fuel x = t.anyOverlap q := by
  induction t generalizing x p fuel with
  | leaf =>
      rw [h]
      cases fuel <;> rfl
  | node l n r ihl ihr =>
      obtain ⟨rfl, s, hslot, -, hn, hl, hr⟩ := h
      obtain ⟨fuel, rfl⟩ : ∃ f, fuel = f + 1 := ⟨fuel - 1, by simp [Tree.height] at hf; omega⟩
      simp only [Tree.height, Nat.add_le_add_iff_right, Nat.max_le] at hf
      simp only [Arena.anyOverlap, hslot, Tree.anyOverlap]
      rw [ihl hl hf.1, ihr hr hf.2, hl.reaches, ← hn]
      rfl

/-!
## Paths of links
-/

/-- The link reached from `x` by going down to the child on each side of `path` in turn. -/
def follow (a : Arena α) : Option Nat → List Tree.Side → Option Nat
  | x, [] => x
  | x, side :: path => a.follow (x.bind (a.child side)) path

@[simp] theorem follow_nil (x : Option Nat) : a.follow x [] = x := rfl

theorem follow_none (path : List Tree.Side) : a.follow none path = none := by
  induction path with
  | nil =>
      rfl
  | cons side path ih =>
      exact ih

theorem follow_cons_of_slot {i : Nat} {s : Slot α} (hs : a.slots[i]? = some s) (side : Tree.Side)
    (path : List Tree.Side) : a.follow (some i) (side :: path) = a.follow (s.child side) path := by
  simp [follow, child_of_slot hs]

theorem Linked.follow_iff (h : Linked a x p t) {i : Nat} :
    (∃ path, a.follow x path = some i) ↔ i ∈ t.numbers := by
  induction t generalizing x p with
  | leaf =>
      rw [h]
      simp [follow_none]
  | node l n r ihl ihr =>
      obtain ⟨rfl, s, hs, -, -, hl, hr⟩ := h
      constructor
      · rintro ⟨path, hpath⟩
        cases path with
        | nil =>
            simp_all
        | cons side path =>
            rw [follow_cons_of_slot hs] at hpath
            cases side with
            | left =>
                simp [(ihl hl).mp ⟨path, hpath⟩]
            | right =>
                simp [(ihr hr).mp ⟨path, hpath⟩]
      · intro hi
        simp only [Tree.numbers_node, List.mem_append, List.mem_cons] at hi
        rcases hi with hi | rfl | hi
        · obtain ⟨path, hpath⟩ := (ihl hl).mpr hi
          exact ⟨.left :: path, by rw [follow_cons_of_slot hs]; exact hpath⟩
        · exact ⟨[], rfl⟩
        · obtain ⟨path, hpath⟩ := (ihr hr).mpr hi
          exact ⟨.right :: path, by rw [follow_cons_of_slot hs]; exact hpath⟩

/-- Below distinct numbers, a position is reached from a link along one path only. -/
theorem Linked.follow_unique (h : Linked a x p t) (hnd : t.numbers.Nodup) {i : Nat}
    {path path' : List Tree.Side} (h₁ : a.follow x path = some i) (h₂ : a.follow x path' = some i) :
    path = path' := by
  induction t generalizing x p path path' with
  | leaf =>
      rw [h, follow_none] at h₁
      cases h₁
  | node l n r ihl ihr =>
      obtain ⟨rfl, s, hs, -, -, hl, hr⟩ := h
      obtain ⟨hnl, hnr⟩ := Tree.top_not_mem_of_nodup hnd
      simp only [Tree.numbers_node, List.nodup_append, List.nodup_cons] at hnd
      obtain ⟨hndl, ⟨-, hndr⟩, hdis⟩ := hnd
      have hside : ∀ side q, a.follow (some n.seq) (side :: q) = some i →
          (side = .left ∧ i ∈ l.numbers) ∨ (side = .right ∧ i ∈ r.numbers) := by
        intro side q hq
        rw [follow_cons_of_slot hs] at hq
        cases side with
        | left =>
            exact .inl ⟨rfl, (hl.follow_iff).mp ⟨q, hq⟩⟩
        | right =>
            exact .inr ⟨rfl, (hr.follow_iff).mp ⟨q, hq⟩⟩
      have hbelow : ∀ side q, a.follow (some n.seq) (side :: q) = some i → n.seq ≠ i := by
        intro side q hq hni
        subst hni
        rcases hside side q hq with ⟨-, hi⟩ | ⟨-, hi⟩
        · exact hnl hi
        · exact hnr hi
      cases path with
      | nil =>
          cases path' with
          | nil =>
              rfl
          | cons side' q' =>
              exact absurd (Option.some.inj h₁) (hbelow side' q' h₂)
      | cons side q =>
          cases path' with
          | nil =>
              exact absurd (Option.some.inj h₂) (hbelow side q h₁)
          | cons side' q' =>
              rcases hside side q h₁ with ⟨rfl, hi⟩ | ⟨rfl, hi⟩ <;>
                rcases hside side' q' h₂ with ⟨rfl, hi'⟩ | ⟨rfl, hi'⟩
              · rw [follow_cons_of_slot hs] at h₁ h₂
                rw [ihl hl hndl h₁ h₂]
              · exact absurd rfl (hdis _ hi _ (List.mem_cons_of_mem _ hi'))
              · exact absurd rfl (hdis _ hi' _ (List.mem_cons_of_mem _ hi))
              · rw [follow_cons_of_slot hs] at h₁ h₂
                rw [ihr hr hndr h₁ h₂]

theorem Linked.subtreeAt (h : Linked a x p t) (hnd : t.numbers.Nodup) {i : Nat}
    (hi : i ∈ t.numbers) : ∃ q, Linked a (some i) q (t.subtreeAt i) := by
  induction t generalizing x p with
  | leaf =>
      cases hi
  | node l n r ihl ihr =>
      simp only [Tree.numbers_node, List.nodup_append, List.nodup_cons] at hnd
      by_cases hni : n.seq = i
      · subst hni
        have hx : x = some n.seq := h.eq_top
        subst hx
        rw [Tree.subtreeAt_top]
        exact ⟨p, h⟩
      · obtain ⟨-, s, -, -, -, hl, hr⟩ := h
        by_cases hil : i ∈ l.numbers
        · simp only [Tree.subtreeAt, hni, hil, if_false, if_true]
          exact ihl hl hnd.1 hil
        · have hir : i ∈ r.numbers := by
            simp only [Tree.numbers_node, List.mem_append, List.mem_cons] at hi
            rcases hi with hi | hi | hi
            · exact absurd hi hil
            · exact absurd hi.symm hni
            · exact hi
          simp only [Tree.subtreeAt, hni, hil, if_false]
          exact ihr hr hnd.2.1.2 hir

theorem Linked.modify_top {l r : Tree α} {n : Node α} (h : Linked a x p (.node l n r))
    (hl : n.seq ∉ l.numbers) (hr : n.seq ∉ r.numbers) (f : Slot α → Slot α)
    (hf : ∀ s, (f s).left = s.left ∧ (f s).right = s.right) :
    ∃ s, a.slots[n.seq]? = some s ∧ s.parent = p ∧ s.toNode n.seq = n ∧
      Linked (a.modify n.seq f) x (f s).parent (.node l ((f s).toNode n.seq) r) := by
  obtain ⟨hx, s, hslot, hp, hn, hls, hrs⟩ := h
  refine ⟨s, hslot, hp, hn, hx, f s, by simp [hslot], rfl, rfl, ?_, ?_⟩
  · rw [(hf s).1]
    exact hls.modify_of_not_mem hl f
  · rw [(hf s).2]
    exact hrs.modify_of_not_mem hr f

/-!
## Paths from the root
-/

/-- The path `fs`, deepest frame first, leads from the root down to the link `x`: each frame's
node is stored with the link below it on the frame's side and its sibling on the other side, and
the topmost one is the root. -/
def Above (a : Arena α) : List (Tree.Frame α) → Option Nat → Prop
  | [], x => a.root = x
  | f :: fs, x => ∃ s, a.slots[f.node.seq]? = some s ∧ s.child f.side = x ∧
      Linked a (s.child f.side.other) (some f.node.seq) f.sibling ∧ s.toNode f.node.seq = f.node ∧
      s.parent = Tree.parentLink fs ∧ Above a fs (some f.node.seq)

/-- A tree at the end of a path is linked from the root exactly when the path leads to its top and
its top is linked below the path's last node. -/
theorem linked_plugAll_iff {fs : List (Tree.Frame α)} {t : Tree α} :
    Linked a a.root none (Tree.plugAll fs t) ↔
      Above a fs t.top? ∧ Linked a t.top? (Tree.parentLink fs) t := by
  induction fs generalizing t with
  | nil =>
      exact linked_iff_top
  | cons f fs ih =>
      rw [Tree.plugAll_cons, ih, Tree.Frame.plug, Tree.top?_nodeOn, linked_nodeOn]
      constructor
      · rintro ⟨habove, -, s, hslot, hpar, hnode, hc, hsib⟩
        exact ⟨⟨s, hslot, hc.eq_top, hsib, hnode, hpar, habove⟩, hc.eq_top ▸ hc⟩
      · rintro ⟨⟨s, hslot, hc, hsib, hnode, hpar, habove⟩, ht⟩
        exact ⟨habove, rfl, s, hslot, hpar, hnode, hc ▸ ht, hsib⟩

theorem Above.congr {fs : List (Tree.Frame α)} (h : Above a fs x)
    (hs : ∀ i ∈ Tree.frameNumbers fs, b.slots[i]? = a.slots[i]?) (hr : b.root = a.root) :
    Above b fs x := by
  induction fs generalizing x with
  | nil =>
      exact hr.trans h
  | cons f fs ih =>
      obtain ⟨s, hslot, hc, hsib, hnode, hpar, habove⟩ := h
      refine ⟨s, ?_, hc, hsib.congr fun i hi => hs i (by simp [hi]), hnode, hpar,
        ih habove fun i hi => hs i (by simp [hi])⟩
      rw [hs _ (by simp), hslot]

theorem Above.modify_of_not_mem {fs : List (Tree.Frame α)} (h : Above a fs x) {i : Nat}
    (hi : i ∉ Tree.frameNumbers fs) (f : Slot α → Slot α) : Above (a.modify i f) fs x :=
  h.congr (fun _ hj => a.slots_modify_of_ne f fun hij => hi (hij ▸ hj)) rfl

theorem Above.repoint {f : Tree.Frame α} {fs : List (Tree.Frame α)} (h : Above a (f :: fs) x)
    (hsib : f.node.seq ∉ f.sibling.numbers) (hfs : f.node.seq ∉ Tree.frameNumbers fs)
    (y : Option Nat) : Above (a.setChild f.side f.node.seq y) (f :: fs) y := by
  obtain ⟨s, hslot, -, hs, hnode, hpar, habove⟩ := h
  refine ⟨s.withChild y f.side, by simp [hslot], by simp, ?_, by simpa using hnode,
    by simpa using hpar, habove.modify_of_not_mem hfs _⟩
  rw [Slot.child_withChild_other]
  exact hs.modify_of_not_mem hsib _

theorem Above.slot {f : Tree.Frame α} {fs : List (Tree.Frame α)} (h : Above a (f :: fs) x) :
    ∃ s, a.slots[f.node.seq]? = some s ∧ s.child f.side = x ∧
      s.child f.side.other = f.sibling.top? ∧ s.toNode f.node.seq = f.node ∧
        s.parent = Tree.parentLink fs := by
  obtain ⟨s, hslot, hc, hs, hnode, hpar, -⟩ := h
  exact ⟨s, hslot, hc, hs.eq_top, hnode, hpar⟩

/-!
## Arenas that hold a tree
-/

/-- The arena holds `t`: the root leads to it, and its numbers are the positions of the arena,
each once. -/
structure Represents (a : Arena α) (t : Tree α) : Prop where
  linked : Linked a a.root none t
  numbers_perm : t.numbers.Perm (List.range a.size)

namespace Represents

variable (h : Represents a t)
include h

theorem nodup : t.numbers.Nodup :=
  h.numbers_perm.nodup_iff.mpr List.nodup_range

theorem mem_numbers_iff {i : Nat} : i ∈ t.numbers ↔ i < a.size := by
  rw [h.numbers_perm.mem_iff, List.mem_range]

theorem size_eq : a.size = t.size := by
  rw [← List.length_range (n := a.size), ← h.numbers_perm.length_eq, Tree.length_numbers]

theorem tree_eq : a.tree = t :=
  h.linked.subtree_eq (h.size_eq ▸ Tree.height_le_size t)

theorem exists_path {i : Nat} (hi : i < a.size) :
    ∃ fs l n r, t = Tree.plugAll fs (.node l n r) ∧ n.seq = i ∧
      Linked a (some i) (Tree.parentLink fs) (.node l n r) := by
  obtain ⟨fs, l, n, r, rfl, rfl⟩ := Tree.exists_plugAll_of_mem (h.mem_numbers_iff.mpr hi)
  exact ⟨fs, l, n, r, rfl, rfl, (linked_plugAll_iff.mp h.linked).2⟩

theorem root_eq_none_iff : a.root = none ↔ a.size = 0 := by
  rw [h.linked.eq_top, h.size_eq]
  cases t <;> simp [Tree.top?, Tree.size]

theorem parent_root {r : Nat} (hr : a.root = some r) : a.parent r = none :=
  (hr ▸ h.linked).parent_of_some.1

theorem child_link {i j : Nat} {side : Tree.Side} (hc : a.child side i = some j) :
    i < a.size ∧ j < a.size ∧ a.parent j = some i := by
  obtain ⟨s, hs, hsc⟩ : ∃ s, a.slots[i]? = some s ∧ s.child side = some j := by
    simpa only [child, Option.bind_eq_some_iff] using hc
  have hi := lt_size_of_slot hs
  obtain ⟨fs, l, n, r, rfl, rfl, hlink⟩ := h.exists_path hi
  obtain ⟨-, s', hs', -, -, hl, hr⟩ := hlink
  obtain rfl : s' = s := Option.some.inj (hs'.symm.trans hs)
  have hsub : ∀ u : Tree α, u.numbers ⊆ (Tree.node l n r).numbers →
      Linked a (some j) (some n.seq) u → j < a.size ∧ a.parent j = some n.seq := by
    intro u hu hlu
    obtain ⟨hpar, hj⟩ := hlu.parent_of_some
    exact ⟨h.mem_numbers_iff.mp ((Tree.numbers_sublist_plugAll fs _).subset (hu hj)), hpar⟩
  cases side with
  | left =>
      rw [Slot.child_left] at hsc
      rw [hsc] at hl
      exact ⟨hi, hsub l (by simp) hl⟩
  | right =>
      rw [Slot.child_right] at hsc
      rw [hsc] at hr
      exact ⟨hi, hsub r (by simp) hr⟩

theorem parent_link {i j : Nat} (hp : a.parent i = some j) : i < a.size ∧ j < a.size := by
  obtain ⟨s, hs, -⟩ : ∃ s, a.slots[i]? = some s ∧ s.parent = some j := by
    simpa only [parent, Option.bind_eq_some_iff] using hp
  have hi := lt_size_of_slot hs
  obtain ⟨fs, l, n, r, rfl, rfl, hlink⟩ := h.exists_path hi
  rw [hlink.parent_top] at hp
  cases fs with
  | nil =>
      cases hp
  | cons f fs =>
      obtain rfl : f.node.seq = j := Option.some.inj hp
      exact ⟨hi, h.mem_numbers_iff.mp ((Tree.numbers_sublist_plugAll fs _).subset
        (Tree.mem_numbers_plug.mpr (.inr (.inl rfl))))⟩

theorem existsUnique_follow {i : Nat} (hi : i < a.size) :
    ∃! path, a.follow a.root path = some i := by
  obtain ⟨path, hpath⟩ := h.linked.follow_iff.mpr (h.mem_numbers_iff.mpr hi)
  exact ⟨path, hpath, fun path' hpath' => h.linked.follow_unique h.nodup hpath' hpath⟩

theorem subtree_at {i : Nat} (hi : i < a.size) :
    ∃ u ∈ t.subtrees, a.subtree a.size (some i) = u ∧ a.summary i = u.maxHi := by
  obtain ⟨fs, l, n, r, rfl, rfl, hlink⟩ := h.exists_path hi
  refine ⟨_, Tree.mem_subtrees_plugAll fs l n r, hlink.subtree_eq ?_, hlink.summary⟩
  have hlen := Tree.length_le_size_plugAll fs (.node l n r)
  have hheight := Tree.height_le_size (.node l n r)
  rw [h.size_eq]
  omega

end Represents

theorem represents_empty : Represents (empty : Arena α) .leaf :=
  ⟨rfl, List.Perm.refl _⟩

end Arena

end IntervalIndex
