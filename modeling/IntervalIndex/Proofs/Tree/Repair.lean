import IntervalIndex.Proofs.Tree.Balance
import IntervalIndex.Proofs.Tree.Order

/-!
# The repair never needs its defensive branches

`rotateLeft` and `rotateRight` give a tree back unchanged when the child they would raise is
missing, and `insert` paints the top black whatever `place` reports, even a red pair whose red
parent has no parent of its own. Neither fallback is ever used. `Tree.rotateLeft?`,
`Tree.rotateRight?`, `Tree.settleLeft?`, `Tree.settleRight?`, `Tree.place?` and `Tree.insert?` are
the same repair with each fallback refused, and with the rotation cases it runs listed, each by
its number of rotations.

The invariant of the climb, `Tree.Repaired`, says where the red pair sits, and so that the child
each rotation raises is there (`Tree.settleLeft?_eq`). A rotation case leaves nothing to repair,
so nothing above it rotates again (`Tree.OneRotationCase`). The climb is a structural recursion
on the tree, so it ends. `Tree.insert?_eq_some` puts these together: on every red-black tree with a
black top the strict insertion refuses nothing, builds what `insert` builds, and rotates at most
twice, in at most one rotation case.
-/

namespace IntervalIndex

namespace Tree

variable {α : Type}

/-- `rotateLeft`, refused on a tree without a right child to raise. -/
def rotateLeft? : Tree α → Option (Tree α)
  | node a x (node b y c) => some (join (join a x b) y c)
  | _ => none

/-- `rotateRight`, refused on a tree without a left child to raise. -/
def rotateRight? : Tree α → Option (Tree α)
  | node (node a y b) x c => some (join a y (join b x c))
  | _ => none

/-- `settleLeft` with its rotations refused when they find no child to raise. It also lists the
rotation cases it ran, each by its number of rotations. -/
def settleLeft? (l : Tree α) (rep : Repair) (n : Node α) (r : Tree α) :
    Option (Tree α × Repair × List Nat) :=
  match rep with
  | .settled => some (node l n r, .settled, [])
  | .redTop => some (node l n r, if n.color == .red then .redPair .left else .settled, [])
  | .redPair side =>
    if r.isRed then
      some (node (l.paint .black) { n with color := .red } (r.paint .black), .redTop, [])
    else
      match side with
      | .left =>
        (node (l.paint .black) { n with color := .red } r).rotateRight?.map
          fun t => (t, .settled, [1])
      | .right =>
        l.rotateLeft?.bind fun l' =>
          (node (l'.paint .black) { n with color := .red } r).rotateRight?.map
            fun t => (t, .settled, [2])

/-- The mirror image of `settleLeft?`. -/
def settleRight? (l : Tree α) (n : Node α) (r : Tree α) (rep : Repair) :
    Option (Tree α × Repair × List Nat) :=
  match rep with
  | .settled => some (node l n r, .settled, [])
  | .redTop => some (node l n r, if n.color == .red then .redPair .right else .settled, [])
  | .redPair side =>
    if l.isRed then
      some (node (l.paint .black) { n with color := .red } (r.paint .black), .redTop, [])
    else
      match side with
      | .right =>
        (node l { n with color := .red } (r.paint .black)).rotateLeft?.map
          fun t => (t, .settled, [1])
      | .left =>
        r.rotateRight?.bind fun r' =>
          (node l { n with color := .red } (r'.paint .black)).rotateLeft?.map
            fun t => (t, .settled, [2])

/-- `place` with the strict repairs, collecting the rotation cases from the new leaf upwards. -/
def place? (k : Node α) : Tree α → Option (Tree α × Repair × List Nat)
  | leaf => some (node leaf { k with color := .red } leaf, .redTop, [])
  | node l n r =>
    if k.interval.lo < n.interval.lo then
      (place? k l).bind fun (l', rep, cs) =>
        (settleLeft? l' rep n r).map fun (t, rep', cs') => (t, rep', cs ++ cs')
    else
      (place? k r).bind fun (r', rep, cs) =>
        (settleRight? l n r' rep).map fun (t, rep', cs') => (t, rep', cs ++ cs')

/-- `insert` with the strict repairs, refused when a red pair is left at the top, where its red
parent would have no parent to repair it. -/
def insert? (t : Tree α) (seq : Nat) (iv : Interval α) : Option (Tree α × List Nat) :=
  (place? ⟨seq, .red, iv, iv.hi⟩ t).bind fun (t', rep, cs) =>
    match rep with
    | .redPair _ => none
    | _ =>
      let t' := t'.paint .black
      some (t'.absorbAbove seq (((t'.lookup seq).map (·.maxHi)).getD 0), cs)

/-- The rotation cases a repair ran: none, or a single one of at most two rotations, after which
nothing was left to repair. -/
def OneRotationCase (cs : List Nat) (rep : Repair) : Prop :=
  cs = [] ∨ ∃ m ≤ 2, cs = [m] ∧ rep = .settled

theorem OneRotationCase.append {cs₁ cs₂ : List Nat} {rep out : Repair}
    (h₁ : OneRotationCase cs₁ rep) (h₂ : OneRotationCase cs₂ out)
    (hs : rep = .settled → cs₂ = [] ∧ out = .settled) : OneRotationCase (cs₁ ++ cs₂) out := by
  rcases h₁ with rfl | ⟨m, hm, rfl, hrep⟩
  · simpa using h₂
  · obtain ⟨rfl, hout⟩ := hs hrep
    exact Or.inr ⟨m, hm, rfl, hout⟩

theorem Balanced.exists_node_of_red {t : Tree α} {h : Nat} (hb : t.Balanced .red h) :
    ∃ l n r, t = node l n r := by
  cases hb with
  | red _ _ _ =>
      exact ⟨_, _, _, rfl⟩

theorem settleLeft?_eq {l r : Tree α} {n : Node α} {rep : Repair} {c : Color} {h : Nat}
    (hl : l.Repaired rep c h) :
    ∃ cs, settleLeft? l rep n r = some ((settleLeft l rep n r).1, (settleLeft l rep n r).2, cs) ∧
      OneRotationCase cs (settleLeft l rep n r).2 ∧
      (rep = .settled → cs = [] ∧ (settleLeft l rep n r).2 = .settled) := by
  cases rep with
  | settled =>
      exact ⟨[], rfl, Or.inl rfl, fun _ => ⟨rfl, rfl⟩⟩
  | redTop =>
      exact ⟨[], rfl, Or.inl rfl, Repair.noConfusion⟩
  | redPair side =>
      by_cases hred : r.isRed = true
      · refine ⟨[], ?_, Or.inl rfl, Repair.noConfusion⟩
        simp only [settleLeft?, settleLeft, hred, if_true]
      cases l with
      | leaf =>
          cases side <;> exact hl.elim
      | node a m b =>
          cases side with
          | left =>
              refine ⟨[1], ?_, Or.inr ⟨1, by decide, rfl, ?_⟩, Repair.noConfusion⟩
              · simp only [settleLeft?, settleLeft, hred, Bool.false_eq_true, if_false]
                rfl
              · simp only [settleLeft, hred, Bool.false_eq_true, if_false]
          | right =>
              obtain ⟨-, -, -, hb⟩ := hl
              obtain ⟨b₁, y, b₂, rfl⟩ := hb.exists_node_of_red
              refine ⟨[2], ?_, Or.inr ⟨2, by decide, rfl, ?_⟩, Repair.noConfusion⟩
              · simp only [settleLeft?, settleLeft, hred, Bool.false_eq_true, if_false]
                rfl
              · simp only [settleLeft, hred, Bool.false_eq_true, if_false]

theorem settleRight?_eq {l r : Tree α} {n : Node α} {rep : Repair} {c : Color} {h : Nat}
    (hr : r.Repaired rep c h) :
    ∃ cs, settleRight? l n r rep = some ((settleRight l n r rep).1, (settleRight l n r rep).2, cs) ∧
      OneRotationCase cs (settleRight l n r rep).2 ∧
      (rep = .settled → cs = [] ∧ (settleRight l n r rep).2 = .settled) := by
  cases rep with
  | settled =>
      exact ⟨[], rfl, Or.inl rfl, fun _ => ⟨rfl, rfl⟩⟩
  | redTop =>
      exact ⟨[], rfl, Or.inl rfl, Repair.noConfusion⟩
  | redPair side =>
      by_cases hred : l.isRed = true
      · refine ⟨[], ?_, Or.inl rfl, Repair.noConfusion⟩
        simp only [settleRight?, settleRight, hred, if_true]
      cases r with
      | leaf =>
          cases side <;> exact hr.elim
      | node a m b =>
          cases side with
          | right =>
              refine ⟨[1], ?_, Or.inr ⟨1, by decide, rfl, ?_⟩, Repair.noConfusion⟩
              · simp only [settleRight?, settleRight, hred, Bool.false_eq_true, if_false]
                rfl
              · simp only [settleRight, hred, Bool.false_eq_true, if_false]
          | left =>
              obtain ⟨-, -, ha, -⟩ := hr
              obtain ⟨a₁, y, a₂, rfl⟩ := ha.exists_node_of_red
              refine ⟨[2], ?_, Or.inr ⟨2, by decide, rfl, ?_⟩, Repair.noConfusion⟩
              · simp only [settleRight?, settleRight, hred, Bool.false_eq_true, if_false]
                rfl
              · simp only [settleRight, hred, Bool.false_eq_true, if_false]

/-- The strict climb placing `k` in `t` refuses nothing, builds what `place` builds, and runs at
most one rotation case. -/
def PlacesStrictly (k : Node α) (t : Tree α) : Prop :=
  ∃ cs, place? k t = some ((place k t).1, (place k t).2, cs) ∧ OneRotationCase cs (place k t).2

theorem PlacesStrictly.leaf (k : Node α) : PlacesStrictly k leaf :=
  ⟨[], rfl, Or.inl rfl⟩

theorem PlacesStrictly.node {k : Node α} {l r : Tree α} {n : Node α} {cl cr : Color} {h : Nat}
    (hl : l.Balanced cl h) (hr : r.Balanced cr h) (ihl : PlacesStrictly k l)
    (ihr : PlacesStrictly k r) : PlacesStrictly k (node l n r) := by
  by_cases hk : k.interval.lo < n.interval.lo
  · obtain ⟨cs, hcs, hone⟩ := ihl
    obtain ⟨cs', hcs', hone', hs⟩ := settleLeft?_eq (n := n) (r := r) (hl.place k)
    refine ⟨cs ++ cs', ?_, ?_⟩
    · rw [place_node_of_lt k hk]
      simp only [place?, hk, if_true, hcs, hcs', Option.bind_some, Option.map_some]
    · rw [place_node_of_lt k hk]
      exact hone.append hone' hs
  · obtain ⟨cs, hcs, hone⟩ := ihr
    obtain ⟨cs', hcs', hone', hs⟩ := settleRight?_eq (l := l) (n := n) (hr.place k)
    refine ⟨cs ++ cs', ?_, ?_⟩
    · rw [place_node_of_not_lt k hk]
      simp only [place?, hk, if_false, hcs, hcs', Option.bind_some, Option.map_some]
    · rw [place_node_of_not_lt k hk]
      exact hone.append hone' hs

theorem Balanced.placesStrictly {t : Tree α} {c : Color} {h : Nat} (hb : t.Balanced c h)
    (k : Node α) : PlacesStrictly k t := by
  induction hb with
  | leaf =>
      exact PlacesStrictly.leaf k
  | red _ hl hr ihl ihr =>
      exact PlacesStrictly.node hl hr ihl ihr
  | black _ hl hr ihl ihr =>
      exact PlacesStrictly.node hl hr ihl ihr

/-- Inserting into a red-black tree with a black top: every rotation of the repair finds the child
it raises, no red pair is left at the top, the tree built is the one `insert` builds, and at
most one rotation case runs, with at most two rotations. -/
theorem insert?_eq_some {t : Tree α} {h : Nat} (hb : t.Balanced .black h) (seq : Nat)
    (iv : Interval α) :
    ∃ cases, t.insert? seq iv = some (t.insert seq iv, cases) ∧
      cases.length ≤ 1 ∧ cases.sum ≤ 2 := by
  obtain ⟨cs, hcs, hone⟩ := hb.placesStrictly ⟨seq, .red, iv, iv.hi⟩
  have htop := hb.place_ne_redPair ⟨seq, .red, iv, iv.hi⟩
  refine ⟨cs, ?_, ?_⟩
  · unfold insert? Tree.insert
    rw [hcs, Option.bind_some]
    cases hout : (place ⟨seq, .red, iv, iv.hi⟩ t).2 with
    | settled => rfl
    | redTop => rfl
    | redPair side => exact absurd hout (htop side)
  · rcases hone with rfl | ⟨m, hm, rfl, -⟩
    · simp
    · simpa using hm

theorem insert?_rotates_once :
    let t : Tree String :=
      node leaf ⟨0, .black, ⟨1, 5, "a"⟩, 6⟩ (node leaf ⟨1, .red, ⟨2, 6, "b"⟩, 6⟩ leaf)
    t.Balanced .black 1 ∧
      (∃ cases, t.insert? 2 ⟨3, 7, "c"⟩ = some (t.insert 2 ⟨3, 7, "c"⟩, cases) ∧
        cases.length ≤ 1 ∧ cases.sum ≤ 2) ∧
      (t.insert? 2 ⟨3, 7, "c"⟩).map Prod.snd = some [1] := by
  intro t
  have hb : t.Balanced .black 1 := .black rfl .leaf (.red rfl .leaf .leaf)
  exact ⟨hb, insert?_eq_some hb 2 _, by decide⟩

end Tree
end IntervalIndex
