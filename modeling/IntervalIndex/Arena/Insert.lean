import IntervalIndex.Arena.Basic

/-!
# Insertion into the arena

A new node is appended to the arena as a red leaf and linked in three passes.

* `Arena.insertInner` walks down from the root, left at a node of greater key and right
  otherwise, and hangs the new node on the empty link it reaches.
* `Arena.insertFixup` repairs red clashes from the new node upwards, recolouring or rotating
  (`Arena.rotate`), and paints the root black. A rotation rewrites the links of the two nodes it
  turns, of the subtree that changes hands and of the link from above (`Arena.replaceParent`),
  and recomputes the two turned nodes' bounds from those of their new children; no other bound
  is touched on the way.
* `Arena.propagateUp` then raises the bound of every ancestor of the new node to the new node's
  own bound, following the parent links.

The greatest word of the index width is reserved, so `Arena.insert` refuses a new node whose
truncated position would be that word.
-/

namespace IntervalIndex

namespace Arena

variable {α : Type}

/-- Puts `y` in the place of `x` in the link that leads to `x`, from its parent or as the root,
and makes `y` the parent of `x`. -/
def replaceParent (a : Arena α) (x y : Nat) : Arena α :=
  let xp := a.parent x
  let a := a.setParent y xp
  let a := match xp with
    | none => { a with root := some y }
    | some p =>
      if a.child .left p = some x then a.setChild .left p (some y)
      else a.setChild .right p (some y)
  a.setParent x (some y)

/-- Recomputes the bound of `x` from its interval and the bounds its children carry. -/
def recompute (a : Arena α) (x : Nat) : Arena α :=
  let l := (a.child .left x).map a.summary
  let r := (a.child .right x).map a.summary
  a.modify x fun s => { s with maxHi := max (max s.interval.hi (l.getD 0)) (r.getD 0) }

/-- The rotation that takes `x` down on `side`: its child `y` on the other side rises to its
place, and the subtree of `y` on `side` moves over to `x`. Nothing changes when `x` has no such
child. `left_rotate` is the rotation on the left, `right_rotate` the one on the right. -/
def rotate (a : Arena α) (side : Tree.Side) (x : Nat) : Arena α :=
  match a.child side.other x with
  | none => a
  | some y =>
    let b := a.child side y
    let a := a.setChild side.other x b
    let a := match b with
      | some bi => a.setParent bi (some x)
      | none => a
    let a := a.replaceParent x y
    let a := a.setChild side y (some x)
    (a.recompute x).recompute y

/-- The side to which a node of key `key` goes from `x`. -/
def sideFor (a : Arena α) (key : UInt32) (x : Nat) : Tree.Side :=
  if key < a.key x then .left else .right

/-- The node below which a node of key `key` is hung, found from the link `x` down by at most
`fuel` steps; `y` is the node above `x`. -/
def descend (a : Arena α) (key : UInt32) : Nat → Option Nat → Option Nat → Option Nat
  | 0, y, _ => y
  | _ + 1, y, none => y
  | fuel + 1, _, some x => a.descend key fuel (some x) (a.child (a.sideFor key x) x)

/-- Links the detached node `z` into the place its key leads to. -/
def insertInner (a : Arena α) (z : Nat) : Arena α :=
  let key := a.key z
  let y := a.descend key a.size none a.root
  let a := a.setParent z y
  match y with
  | none => { a with root := some z }
  | some yi => a.setChild (a.sideFor key yi) yi (some z)

/-- The side of `g` on which `p` hangs. -/
def sideOf (a : Arena α) (g p : Nat) : Tree.Side :=
  if a.child .left g = some p then .left else .right

/-- One round of the repair at the red node `z`: the arena after it, and the node the repair
goes on from, or `none` when the repair is over. With a red uncle the parent and the uncle turn
black and the grandparent red, and the repair goes on from the grandparent. Otherwise an inner
`z` is first rotated above its parent, and then the grandparent is rotated below the parent,
which turns black while the grandparent turns red. -/
def fixStep (a : Arena α) (z : Nat) : Arena α × Option Nat :=
  match a.parent z with
  | none => (a, none)
  | some p =>
    if a.isBlack p then (a, none)
    else
      match a.parent p with
      | none => (a, none)
      | some g =>
        let side := a.sideOf g p
        match (a.child side.other g).filter a.isRed with
        | some u => (((a.setColor p .black).setColor u .black).setColor g .red, some g)
        | none =>
          let (a, z, p) :=
            if a.child side.other p = some z then (a.rotate side p, p, z) else (a, z, p)
          (((a.setColor p .black).setColor g .red).rotate side.other g, some z)

/-- The rounds of the repair from `z`, at most `fuel` of them. -/
def fixLoop (a : Arena α) (z : Nat) : Nat → Arena α
  | 0 => a
  | fuel + 1 =>
    match a.fixStep z with
    | (a, none) => a
    | (a, some z') => a.fixLoop z' fuel

/-- Repairs the red clashes above the new node `z` and paints the root black. -/
def insertFixup (a : Arena α) (z : Nat) : Arena α :=
  let a := a.fixLoop z a.size
  match a.root with
  | some r => a.setColor r .black
  | none => a

/-- Raises to at least `v` the bound of the node at the link `p` and of every node above it, for
at most `fuel` nodes. -/
def absorbUp (a : Arena α) (v : UInt32) : Nat → Option Nat → Arena α
  | 0, _ => a
  | _ + 1, none => a
  | fuel + 1, some p =>
    let a := a.modify p fun s => { s with maxHi := max s.maxHi v }
    a.absorbUp v fuel (a.parent p)

/-- Raises the bound of every ancestor of `z` to the bound of `z`. -/
def propagateUp (a : Arena α) (z : Nat) : Arena α :=
  a.absorbUp (a.summary z) a.size (a.parent z)

/-- Adds a red node holding `iv` to the arena whose positions are kept in words of `bits` bits,
links it in and rebalances, and gives the new node's position as a word. The reserved word is
refused as `outOfMemory`, and the arena is then left as it was. -/
def insert (a : Arena α) (bits : Nat) (iv : Interval α) : Arena α × Except Fault Nat :=
  let z := NodeIndex.ofNat bits a.size
  if z = NodeIndex.sentinel bits then (a, .error .outOfMemory)
  else
    let a := { a with slots := a.slots.push (Slot.fresh iv) }
    (((a.insertInner z).insertFixup z).propagateUp z, .ok z)

end Arena

end IntervalIndex
