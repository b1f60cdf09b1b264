import IntervalIndex.Tree.Insert
import Mathlib

/-!
# Red-black balance through insertion

`Tree.Balanced t c h` is the red-black invariant: the top of `t` has colour `c`, no red node
has a red child, and every path from a node down to a leaf meets the same number of black
nodes, `h` from the top.

While `place` climbs back from the new leaf, one red node may sit under a red parent. The
`Repair` it reports says where: `Tree.Repaired` states, for each report, what the returned
subtree satisfies. It is the invariant of the repair loop. `Tree.Balanced.place` shows that
every step of the climb keeps it, and `Tree.Balanced.insert` that painting the top black closes
the last gap.

A balanced tree with a black top and `h` black levels has at least `2 ^ h - 1` nodes and at
most `2 * h` levels, so its height is at most twice the logarithm of its size
(`Tree.Balanced.height_le_log`).
-/

namespace IntervalIndex
namespace Tree

variable {α : Type}

/-- `t.Balanced c h`: the top of `t` has colour `c`, black for the empty tree, and every path
from a node of `t` down to a leaf meets the same number of black nodes, `h` from the top. A red
node has two black children of its own black height; a black node has children of any colour,
one black level below it. -/
inductive Balanced : Tree α → Color → Nat → Prop
  | leaf : Balanced leaf .black 0
  | red {l r : Tree α} {n : Node α} {h : Nat} :
      n.color = .red → Balanced l .black h → Balanced r .black h → Balanced (node l n r) .red h
  | black {l r : Tree α} {n : Node α} {cl cr : Color} {h : Nat} :
      n.color = .black → Balanced l cl h → Balanced r cr h →
        Balanced (node l n r) .black (h + 1)

/-- The number of nodes on the longest path from the top down. -/
def height : Tree α → Nat
  | leaf => 0
  | node l _ r => max l.height r.height + 1

/-- What the subtree returned by `place` satisfies, given the repair it reports; `c` and `h`
are the colour and black height of the subtree that `place` was given.

* `settled`: the subtree is balanced at height `h`, and black if the old one was.
* `redTop`: the subtree has a red top over black children; the old top was black.
* `redPair side`: the top is red and so is its child on `side`; the old top was red, so its
  parent is black and is the one to repair. -/
def Repaired (t : Tree α) (rep : Repair) (c : Color) (h : Nat) : Prop :=
  match rep, t with
  | .settled, t => ∃ c', t.Balanced c' h ∧ (c = .black → c' = .black)
  | .redTop, t => t.Balanced .red h ∧ c = .black
  | .redPair .left, node l n r =>
      c = .red ∧ n.color = .red ∧ l.Balanced .red h ∧ r.Balanced .black h
  | .redPair .right, node l n r =>
      c = .red ∧ n.color = .red ∧ l.Balanced .black h ∧ r.Balanced .red h
  | .redPair _, leaf => False

/-!
## Building balanced nodes
-/

theorem Balanced.joinRed {l r : Tree α} {n : Node α} {h : Nat} (hn : n.color = .red)
    (hl : l.Balanced .black h) (hr : r.Balanced .black h) : (join l n r).Balanced .red h :=
  .red hn hl hr

theorem Balanced.joinBlack {l r : Tree α} {n : Node α} {cl cr : Color} {h : Nat}
    (hn : n.color = .black) (hl : l.Balanced cl h) (hr : r.Balanced cr h) :
    (join l n r).Balanced .black (h + 1) :=
  .black hn hl hr

theorem Balanced.black_of_isRed_eq_false {t : Tree α} {c : Color} {h : Nat}
    (hb : t.Balanced c h) (ht : t.isRed = false) : c = .black := by
  cases hb with
  | leaf =>
      rfl
  | red hn =>
      simp [isRed, hn] at ht
  | black =>
      rfl

theorem Balanced.red_of_isRed {t : Tree α} {c : Color} {h : Nat} (hb : t.Balanced c h)
    (ht : t.isRed = true) : c = .red := by
  cases hb with
  | leaf =>
      cases ht
  | red =>
      rfl
  | black hn =>
      simp [isRed, hn] at ht

theorem Balanced.paint_of_red {t : Tree α} {h : Nat} (hb : t.Balanced .red h) :
    (t.paint .black).Balanced .black (h + 1) := by
  cases hb with
  | red _ hl hr =>
      exact .black rfl hl hr

theorem Balanced.paint_of_black {t : Tree α} {h : Nat} (hb : t.Balanced .black h) :
    (t.paint .black).Balanced .black h := by
  cases hb with
  | leaf =>
      exact .leaf
  | black _ hl hr =>
      exact .black rfl hl hr

@[simp] theorem paint_join (c : Color) (l : Tree α) (n : Node α) (r : Tree α) :
    (join l n r).paint c = join l { n with color := c } r := rfl

/-! A rotation rebuilds with `join` both nodes it moves, whatever bounds they had before. -/

@[simp] theorem rotateRight_node_node (a : Tree α) (y : Node α) (b : Tree α) (x : Node α)
    (c : Tree α) : (node (node a y b) x c).rotateRight = join a y (join b x c) := rfl

@[simp] theorem rotateRight_node_join (a : Tree α) (y : Node α) (b : Tree α) (x : Node α)
    (c : Tree α) : (node (join a y b) x c).rotateRight = join a y (join b x c) := rfl

@[simp] theorem rotateLeft_node_node (a : Tree α) (x : Node α) (b : Tree α) (y : Node α)
    (c : Tree α) : (node a x (node b y c)).rotateLeft = join (join a x b) y c := rfl

@[simp] theorem rotateLeft_node_join (a : Tree α) (x : Node α) (b : Tree α) (y : Node α)
    (c : Tree α) : (node a x (join b y c)).rotateLeft = join (join a x b) y c := rfl

/-!
## The repair loop
-/

theorem Repaired.color_of_redPair {t : Tree α} {side : Side} {c : Color} {h : Nat}
    (ht : t.Repaired (.redPair side) c h) : c = .red := by
  cases t with
  | leaf =>
      cases side <;> exact ht.elim
  | node l n r =>
      cases side with
      | left =>
          exact ht.1
      | right =>
          exact ht.1

theorem Repaired.paint_of_redPair {t : Tree α} {side : Side} {c : Color} {h : Nat}
    (ht : t.Repaired (.redPair side) c h) : (t.paint .black).Balanced .black (h + 1) := by
  cases t with
  | leaf =>
      cases side <;> exact ht.elim
  | node l n r =>
      cases side with
      | left =>
          rcases ht with ⟨-, -, hl, hr⟩
          exact .black rfl hl hr
      | right =>
          rcases ht with ⟨-, -, hl, hr⟩
          exact .black rfl hl hr

theorem Repaired.settleLeft_red {l r : Tree α} {n : Node α} {rep : Repair} {h : Nat}
    (hn : n.color = .red) (hl : l.Repaired rep .black h) (hr : r.Balanced .black h) :
    (settleLeft l rep n r).1.Repaired (settleLeft l rep n r).2 .red h := by
  cases rep with
  | settled =>
      rcases hl with ⟨c', hl', hc'⟩
      cases hc' rfl
      exact ⟨.red, .red hn hl' hr, nofun⟩
  | redTop =>
      simp only [Tree.settleLeft, hn]
      exact ⟨rfl, hn, hl.1, hr⟩
  | redPair side =>
      cases hl.color_of_redPair

theorem Repaired.settleLeft_black {l r : Tree α} {n : Node α} {rep : Repair} {cl cr : Color}
    {h : Nat} (hn : n.color = .black) (hl : l.Repaired rep cl h) (hr : r.Balanced cr h) :
    (settleLeft l rep n r).1.Repaired (settleLeft l rep n r).2 .black (h + 1) := by
  cases rep with
  | settled =>
      rcases hl with ⟨c', hl', -⟩
      exact ⟨.black, .black hn hl' hr, fun _ => rfl⟩
  | redTop =>
      simp only [Tree.settleLeft, hn]
      exact ⟨.black, .black hn hl.1 hr, fun _ => rfl⟩
  | redPair side =>
      by_cases hred : r.isRed = true
      · rcases hr.red_of_isRed hred with rfl
        simp only [Tree.settleLeft, hred, if_true]
        exact ⟨.red rfl hl.paint_of_redPair hr.paint_of_red, rfl⟩
      · rcases hr.black_of_isRed_eq_false (Bool.of_not_eq_true hred) with rfl
        cases l with
        | leaf =>
            cases side <;> exact hl.elim
        | node a m b =>
            cases side with
            | left =>
                rcases hl with ⟨-, hm, ha, hb⟩
                simp only [Tree.settleLeft, hred, Tree.paint, Bool.false_eq_true, if_false]
                refine ⟨.black, ?_, fun _ => rfl⟩
                rw [rotateRight_node_node]
                exact .joinBlack rfl ha (.joinRed rfl hb hr)
            | right =>
                rcases hl with ⟨-, hm, ha, hb⟩
                cases hb with
                | red hy hb₁ hb₂ =>
                    simp only [Tree.settleLeft, hred, Tree.rotateLeft, paint_join,
                      Bool.false_eq_true, if_false]
                    refine ⟨.black, ?_, fun _ => rfl⟩
                    rw [rotateRight_node_join]
                    exact .joinBlack rfl (.joinRed hm ha hb₁) (.joinRed rfl hb₂ hr)

theorem Repaired.settleRight_red {l r : Tree α} {n : Node α} {rep : Repair} {h : Nat}
    (hn : n.color = .red) (hl : l.Balanced .black h) (hr : r.Repaired rep .black h) :
    (settleRight l n r rep).1.Repaired (settleRight l n r rep).2 .red h := by
  cases rep with
  | settled =>
      rcases hr with ⟨c', hr', hc'⟩
      cases hc' rfl
      exact ⟨.red, .red hn hl hr', nofun⟩
  | redTop =>
      simp only [Tree.settleRight, hn]
      exact ⟨rfl, hn, hl, hr.1⟩
  | redPair side =>
      cases hr.color_of_redPair

theorem Repaired.settleRight_black {l r : Tree α} {n : Node α} {rep : Repair} {cl cr : Color}
    {h : Nat} (hn : n.color = .black) (hl : l.Balanced cl h) (hr : r.Repaired rep cr h) :
    (settleRight l n r rep).1.Repaired (settleRight l n r rep).2 .black (h + 1) := by
  cases rep with
  | settled =>
      rcases hr with ⟨c', hr', -⟩
      exact ⟨.black, .black hn hl hr', fun _ => rfl⟩
  | redTop =>
      simp only [Tree.settleRight, hn]
      exact ⟨.black, .black hn hl hr.1, fun _ => rfl⟩
  | redPair side =>
      by_cases hred : l.isRed = true
      · rcases hl.red_of_isRed hred with rfl
        simp only [Tree.settleRight, hred, if_true]
        exact ⟨.red rfl hl.paint_of_red hr.paint_of_redPair, rfl⟩
      · rcases hl.black_of_isRed_eq_false (Bool.of_not_eq_true hred) with rfl
        cases r with
        | leaf =>
            cases side <;> exact hr.elim
        | node a m b =>
            cases side with
            | right =>
                rcases hr with ⟨-, hm, ha, hb⟩
                simp only [Tree.settleRight, hred, Tree.paint, Bool.false_eq_true, if_false]
                refine ⟨.black, ?_, fun _ => rfl⟩
                rw [rotateLeft_node_node]
                exact .joinBlack rfl (.joinRed rfl hl ha) hb
            | left =>
                rcases hr with ⟨-, hm, ha, hb⟩
                cases ha with
                | red hy ha₁ ha₂ =>
                    simp only [Tree.settleRight, hred, Tree.rotateRight, paint_join,
                      Bool.false_eq_true, if_false]
                    refine ⟨.black, ?_, fun _ => rfl⟩
                    rw [rotateLeft_node_join]
                    exact .joinBlack rfl (.joinRed rfl hl ha₁) (.joinRed hm ha₂ hb)

theorem Balanced.place {t : Tree α} {c : Color} {h : Nat} (hb : t.Balanced c h) (k : Node α) :
    (place k t).1.Repaired (place k t).2 c h := by
  induction hb with
  | leaf =>
      simp only [Tree.place]
      exact ⟨.red rfl .leaf .leaf, rfl⟩
  | red hn hl hr ihl ihr =>
      simp only [Tree.place]
      split
      · exact Repaired.settleLeft_red hn ihl hr
      · exact Repaired.settleRight_red hn hl ihr
  | black hn hl hr ihl ihr =>
      simp only [Tree.place]
      split
      · exact Repaired.settleLeft_black hn ihl hr
      · exact Repaired.settleRight_black hn hl ihr

theorem Balanced.place_ne_redPair {t : Tree α} {h : Nat} (hb : t.Balanced .black h) (k : Node α)
    (side : Side) : (Tree.place k t).2 ≠ .redPair side := by
  intro hpair
  have hrep := hb.place k
  rw [hpair] at hrep
  cases hrep.color_of_redPair

theorem Balanced.absorbAbove {t : Tree α} {c : Color} {h : Nat} (hb : t.Balanced c h) (k : Nat)
    (v : UInt32) : (t.absorbAbove k v).Balanced c h := by
  induction hb with
  | leaf =>
      exact .leaf
  | red hn hl hr ihl ihr =>
      simp only [Tree.absorbAbove]
      split_ifs
      · exact .red hn hl hr
      · exact .red hn ihl hr
      · exact .red hn hl ihr
      · exact .red hn hl hr
  | black hn hl hr ihl ihr =>
      simp only [Tree.absorbAbove]
      split_ifs
      · exact .black hn hl hr
      · exact .black hn ihl hr
      · exact .black hn hl ihr
      · exact .black hn hl hr

/-- Insertion into a tree with a black top gives a tree with a black top, one black level
higher when the red top that the climb passed up is painted. -/
theorem Balanced.insert {t : Tree α} {h : Nat} (hb : t.Balanced .black h) (seq : Nat)
    (iv : Interval α) : ∃ h', (t.insert seq iv).Balanced .black h' := by
  have hrep := hb.place ⟨seq, .red, iv, iv.hi⟩
  have htop := hb.place_ne_redPair ⟨seq, .red, iv, iv.hi⟩
  suffices hpaint :
      ∃ h', ((Tree.place ⟨seq, .red, iv, iv.hi⟩ t).1.paint .black).Balanced .black h' by
    obtain ⟨h', hp⟩ := hpaint
    exact ⟨h', hp.absorbAbove _ _⟩
  generalize Tree.place ⟨seq, .red, iv, iv.hi⟩ t = p at hrep htop
  rcases p with ⟨t', rep⟩
  cases rep with
  | settled =>
      rcases hrep with ⟨c', ht', hc'⟩
      cases hc' rfl
      exact ⟨h, ht'.paint_of_black⟩
  | redTop =>
      exact ⟨h + 1, hrep.1.paint_of_red⟩
  | redPair side =>
      exact absurd rfl (htop side)

/-!
## Height
-/

theorem Balanced.height_le {t : Tree α} {c : Color} {h : Nat} (hb : t.Balanced c h) :
    t.height ≤ 2 * h + 1 ∧ (c = .black → t.height ≤ 2 * h) := by
  induction hb with
  | leaf =>
      simp [height]
  | red _ _ _ ihl ihr =>
      have hl := ihl.2 rfl
      have hr := ihr.2 rfl
      constructor
      · simp only [height]
        omega
      · intro hc
        cases hc
  | black _ _ _ ihl ihr =>
      have hl := ihl.1
      have hr := ihr.1
      simp only [height]
      constructor
      · omega
      · intro _
        omega

theorem Balanced.pow_le_size {t : Tree α} {c : Color} {h : Nat} (hb : t.Balanced c h) :
    2 ^ h ≤ t.size + 1 := by
  induction hb with
  | leaf =>
      simp [size]
  | red _ _ _ ihl ihr =>
      simp only [size]
      omega
  | black _ _ _ ihl ihr =>
      simp only [size]
      rw [Nat.pow_succ]
      omega

/-- The height of a tree with a black top is at most twice the logarithm of its size. -/
theorem Balanced.height_le_log {t : Tree α} {h : Nat} (hb : t.Balanced .black h) :
    t.height ≤ 2 * Nat.log 2 (t.size + 1) := by
  have hh : t.height ≤ 2 * h := hb.height_le.2 rfl
  have hlog : h ≤ Nat.log 2 (t.size + 1) := Nat.le_log_of_pow_le (by decide) hb.pow_le_size
  omega

end Tree
end IntervalIndex
