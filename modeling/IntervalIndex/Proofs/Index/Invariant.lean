import IntervalIndex.Index.Command
import IntervalIndex.Proofs.Tree.Walk
import IntervalIndex.Proofs.Arena.Insert

/-!
# The invariant of an index

An index is driven by commands. `Index.run` runs a list of them, and `Index.accepted` reads off
their replies which intervals the index took in since it was last emptied: those of the `add`
commands answered `done` and those that `addAll` reports as added, in order.

`Index.Stores ix hist` says that `ix` holds exactly the intervals `hist`, the one at position
`i` of the arena in the node numbered `i`. The arena holds the tree read from its root
(`Arena.Represents`) and has no more nodes than there are words below the reserved one. The
in-order entries are sorted by start and then by number, the tree is red-black with a black top,
every bound is exact, and no stored interval is inverted. Adding either refuses and changes
nothing or stores the interval at the next position (`Index.Stores.insert_cases`);
`Index.Stores.exec` shows that every command keeps the invariant, with the history its reply
reports, and `Index.stores_run` that it holds after every run from an empty index.
-/

namespace IntervalIndex

namespace Interval

variable {α : Type}

/-- The order of intervals by start alone: the comparison of a stable sort by start. -/
def startLE (a b : Interval α) : Bool := decide (a.lo ≤ b.lo)

theorem zipIdxLE_startLE {a b : Interval α × Nat} :
    List.zipIdxLE startLE a b = true ↔ a.1.lo < b.1.lo ∨ (a.1.lo = b.1.lo ∧ a.2 ≤ b.2) := by
  unfold List.zipIdxLE startLE
  by_cases h1 : a.1.lo ≤ b.1.lo <;> by_cases h2 : b.1.lo ≤ a.1.lo <;>
    simp only [UInt32.le_iff_toNat_le] at h1 h2 <;>
    simp [h1, h2, UInt32.le_iff_toNat_le, UInt32.lt_iff_toNat_lt, ← UInt32.toNat_inj] <;> omega

end Interval

namespace NodeIndex

theorem ofNat_of_le_sentinel {bits n : Nat} (h : n ≤ sentinel bits) : ofNat bits n = n :=
  Nat.mod_eq_of_lt (by
    unfold sentinel at h
    have : 0 < Nat.pow 2 bits := Nat.two_pow_pos bits
    omega)

end NodeIndex

namespace Command

variable {α : Type}

/-- The intervals stored since the index was last emptied, after a command answered `reply`,
given `hist`, those stored before it. An `add` answered `done` stores its interval, an `addAll`
answered `added k _` its first `k` intervals, and `clear` forgets all of them. -/
def stored : Command α → Reply α → List (Interval α) → List (Interval α)
  | .add iv, .done, hist => hist ++ [iv]
  | .addAll ivs, .added k _, hist => hist ++ ivs.take k
  | .clear, _, _ => []
  | _, _, hist => hist

end Command

namespace Index

variable {α : Type}

/-- The index after the commands, run in order. -/
def run (ix : Index α) : List (Command α) → Index α
  | [] => ix
  | c :: cs => (ix.exec c).1.run cs

/-- The intervals stored since the index was last emptied, as the replies to the commands
report them, given `hist`, those stored before the first command. -/
def accepted (ix : Index α) (hist : List (Interval α)) : List (Command α) → List (Interval α)
  | [] => hist
  | c :: cs => (ix.exec c).1.accepted (c.stored (ix.exec c).2.1 hist) cs

/-- The index holds the intervals `hist`, the `i`-th of them in the node at position `i`: the
arena holds the tree read from it, with no more nodes than words below the reserved one; the
tree is red-black with a black top, its entries are ordered by start and then by number, and its
bounds are exact; no stored interval is inverted. -/
structure Stores (ix : Index α) (hist : List (Interval α)) : Prop where
  represents : ix.arena.Represents ix.tree
  size_le : ix.size ≤ NodeIndex.sentinel ix.bits
  entries_perm : ix.tree.entries.Perm hist.zipIdx
  ordered : ix.tree.entries.Pairwise fun a b => List.zipIdxLE Interval.startLE a b
  size_eq : ix.size = hist.length
  valid : ∀ iv ∈ hist, iv.lo ≤ iv.hi
  balanced : ∃ h, ix.tree.Balanced .black h
  maxExact : ix.tree.MaxExact

/-!
## What a command does to the arena
-/

theorem items_eq_toList (ix : Index α) : ix.items = ix.tree.toList := by
  rw [items, Tree.Cursor.drain_start, Tree.map_interval_nodes]

theorem insert_of_lt {ix : Index α} {iv : Interval α} (hv : iv.hi < iv.lo) :
    ix.insert iv = (ix, .error (.invalidInterval iv.lo iv.hi)) := by
  have hc : Span.checked iv.lo iv.hi = .error (.invalidInterval iv.lo iv.hi) :=
    Span.checked_eq_error_iff.mpr ⟨Std.not_le.mpr hv, rfl⟩
  rw [Index.insert, hc]

theorem insert_of_le {ix : Index α} {iv : Interval α} (hv : iv.lo ≤ iv.hi) :
    ix.insert iv =
      ({ ix with arena := (ix.arena.insert ix.bits iv).1 }, (ix.arena.insert ix.bits iv).2) := by
  have hc : Span.checked iv.lo iv.hi = .ok ⟨iv.lo, iv.hi⟩ := Span.checked_eq_ok_iff.mpr ⟨hv, rfl⟩
  rw [Index.insert, hc]

theorem exec_add_of_ok {ix : Index α} {iv : Interval α} {z : Nat} (h : (ix.insert iv).2 = .ok z) :
    (ix.exec (.add iv)).1 = (ix.insert iv).1 ∧ (ix.exec (.add iv)).2.1 = .done := by
  rcases hins : ix.insert iv with ⟨ix', r⟩
  rw [hins] at h
  cases h
  simp [exec, addLogged, hins]

theorem exec_add_of_error {ix : Index α} {iv : Interval α} {f : Fault}
    (h : (ix.insert iv).2 = .error f) :
    (ix.exec (.add iv)).1 = (ix.insert iv).1 ∧ (ix.exec (.add iv)).2.1 = .refused f := by
  rcases hins : ix.insert iv with ⟨ix', r⟩
  rw [hins] at h
  cases h
  simp [exec, addLogged, hins]

theorem exec_add_fst (ix : Index α) (iv : Interval α) :
    (ix.exec (.add iv)).1 = (ix.insert iv).1 := by
  rcases hins : ix.insert iv with ⟨ix', r⟩
  cases r <;> simp [exec, addLogged, hins]

theorem addAllLogged_of_insert {P : Index α → Prop}
    (hins : ∀ (ix : Index α) (iv : Interval α), P ix → P (ix.insert iv).1) {ix : Index α}
    (h : P ix) (ivs : List (Interval α)) (count : Nat) (log : Array Entry) :
    P (ix.addAllLogged ivs count log).1 := by
  induction ivs generalizing ix count log with
  | nil =>
      exact h
  | cons iv rest ih =>
      have h' := hins ix iv h
      rcases hi : ix.insert iv with ⟨ix', r⟩
      rw [hi] at h'
      cases r with
      | ok z =>
          simp only [Index.addAllLogged, addLogged, hi]
          exact ih h' _ _
      | error f =>
          simp only [Index.addAllLogged, addLogged, hi]
          exact h'

theorem query_fst (ix : Index α) (rel : Relation) (q : Span) :
    (ix.query rel q).1 = { ix with results := (ix.query rel q).1.results } := by
  unfold Index.query
  split
  · rfl
  · dsimp only
    split <;> rfl

theorem exec_query (ix : Index α) (rel : Relation) (q : Span) :
    (ix.exec (.query rel q)).1 = (ix.query rel q).1 := by
  unfold exec queryLogged
  cases h : (ix.query rel q).2 <;> simp [h]

/-!
## The invariant
-/

private theorem pairwise_insert_entry {A B : List (Interval α × Nat)} {e : Interval α × Nat}
    (hAB : (A ++ B).Pairwise fun a b => List.zipIdxLE Interval.startLE a b)
    (hA : ∀ a ∈ A, a.1.lo ≤ e.1.lo ∧ a.2 ≤ e.2) (hB : ∀ b ∈ B, e.1.lo < b.1.lo) :
    (A ++ e :: B).Pairwise fun a b => List.zipIdxLE Interval.startLE a b := by
  rw [List.pairwise_append] at hAB ⊢
  rcases hAB with ⟨hA', hB', hAB'⟩
  refine ⟨hA', List.pairwise_cons.mpr ⟨?_, hB'⟩, ?_⟩
  · intro b hb
    exact Interval.zipIdxLE_startLE.mpr (Or.inl (hB b hb))
  · intro a ha x hx
    rcases List.mem_cons.mp hx with rfl | hx
    · rcases hA a ha with ⟨hlo, hseq⟩
      apply Interval.zipIdxLE_startLE.mpr
      simp only [UInt32.le_iff_toNat_le, UInt32.lt_iff_toNat_lt, ← UInt32.toNat_inj] at hlo ⊢
      omega
    · exact hAB' a ha x hx

namespace Stores

variable {ix : Index α} {hist : List (Interval α)}

theorem toList_perm (h : ix.Stores hist) : ix.tree.toList.Perm hist := by
  have hmap := h.entries_perm.map Prod.fst
  rwa [Tree.map_fst_entries, List.zipIdx_map_fst] at hmap

theorem sorted (h : ix.Stores hist) : ix.tree.Sorted := by
  unfold Tree.Sorted
  rw [← Tree.map_fst_entries, List.pairwise_map]
  refine h.ordered.imp fun hab => ?_
  rcases Interval.zipIdxLE_startLE.mp hab with hlt | ⟨heq, -⟩
  · exact Std.le_of_lt hlt
  · exact heq ▸ Std.le_refl _

theorem valid_toList (h : ix.Stores hist) {iv : Interval α} (hiv : iv ∈ ix.tree.toList) :
    iv.lo ≤ iv.hi :=
  h.valid iv (h.toList_perm.subset hiv)

theorem seq_lt (h : ix.Stores hist) {e : Interval α × Nat} (he : e ∈ ix.tree.entries) :
    e.2 < hist.length :=
  (List.mem_zipIdx' (h.entries_perm.subset he)).1

theorem of_empty (ha : ix.arena = .empty) : ix.Stores [] where
  represents := by
    rw [tree, ha]
    exact Arena.represents_empty
  size_le := by
    rw [size, ha]
    exact Nat.zero_le _
  entries_perm := by rw [tree, ha]; rfl
  ordered := by rw [tree, ha]; exact List.Pairwise.nil
  size_eq := by rw [size, ha]; rfl
  valid := by simp
  balanced := ⟨0, by rw [tree, ha]; exact .leaf⟩
  maxExact := by rw [tree, ha]; exact Tree.MaxExact.leaf

theorem congr (h : ix.Stores hist) {ix' : Index α} (ha : ix'.arena = ix.arena)
    (hb : ix'.bits = ix.bits) : ix'.Stores hist := by
  have ht : ix'.tree = ix.tree := by rw [tree, tree, ha]
  have hs : ix'.size = ix.size := by rw [size, size, ha]
  exact ⟨by rw [ht, ha]; exact h.represents, by rw [hs, hb]; exact h.size_le,
    ht ▸ h.entries_perm, ht ▸ h.ordered, hs ▸ h.size_eq, h.valid, ht ▸ h.balanced,
    ht ▸ h.maxExact⟩

theorem insert (h : ix.Stores hist) {iv : Interval α} (hv : iv.lo ≤ iv.hi)
    (hroom : ix.size < NodeIndex.sentinel ix.bits) :
    (ix.insert iv).1.Stores (hist ++ [iv]) ∧ (ix.insert iv).2 = .ok ix.size := by
  obtain ⟨hok, hrep⟩ := h.represents.insert iv hroom
  rw [insert_of_le hv]
  refine ⟨?_, hok⟩
  have ht : ({ ix with arena := (ix.arena.insert ix.bits iv).1 } : Index α).tree =
      ix.tree.insert ix.size iv := hrep.tree_eq
  have hs : ({ ix with arena := (ix.arena.insert ix.bits iv).1 } : Index α).size = ix.size + 1 := by
    show (ix.arena.insert ix.bits iv).1.size = ix.arena.size + 1
    rw [hrep.size_eq, ← Tree.length_entries, (Tree.entries_insert_perm h.sorted _ _).length_eq,
      List.length_append, Tree.length_entries, ← h.represents.size_eq]
    rfl
  rcases Tree.place_entries ⟨ix.size, .red, iv, iv.hi⟩ h.sorted with ⟨A, B, hAB, hnew, hA, hB⟩
  have hentries : (ix.tree.insert ix.size iv).entries = A ++ (iv, ix.size) :: B := by
    rw [Tree.entries_insert, hnew]
  refine ⟨?_, ?_, ?_, ?_, ?_, ?_, ?_, ?_⟩
  · rw [ht]
    exact hrep
  · rw [hs]
    exact hroom
  · rw [ht]
    refine (Tree.entries_insert_perm h.sorted _ _).trans ?_
    rw [List.zipIdx_append, h.size_eq]
    have hlast : [iv].zipIdx (0 + hist.length) = [(iv, hist.length)] := by simp
    rw [hlast]
    exact h.entries_perm.append_right _
  · rw [ht, hentries]
    refine pairwise_insert_entry (hAB ▸ h.ordered) (fun a ha => ⟨hA a ha, ?_⟩) hB
    have hlt := h.seq_lt (hAB ▸ List.mem_append_left B ha)
    rw [← h.size_eq] at hlt
    exact Nat.le_of_lt hlt
  · simp [hs, h.size_eq]
  · intro x hx
    rcases List.mem_append.mp hx with hx | hx
    · exact h.valid x hx
    · rw [List.mem_singleton.mp hx]
      exact hv
  · rcases h.balanced with ⟨bh, hb⟩
    rw [ht]
    exact hb.insert _ _
  · rw [ht]
    exact h.maxExact.insert h.represents.nodup
      (fun hmem => Nat.lt_irrefl _ (h.represents.mem_numbers_iff.mp hmem)) iv

theorem insert_full (h : ix.Stores hist) {iv : Interval α} (hv : iv.lo ≤ iv.hi)
    (hfull : ix.size = NodeIndex.sentinel ix.bits) :
    ix.insert iv = (ix, .error .outOfMemory) := by
  rw [insert_of_le hv, Arena.insert_of_full iv
    (by rw [NodeIndex.ofNat_of_le_sentinel (n := ix.arena.size) h.size_le]; exact hfull)]

theorem insert_cases (h : ix.Stores hist) (iv : Interval α) :
    ((ix.insert iv).1 = ix ∧ ∃ f, (ix.insert iv).2 = .error f) ∨
      ((ix.insert iv).1.Stores (hist ++ [iv]) ∧ (ix.insert iv).2 = .ok ix.size) := by
  by_cases hv : iv.lo ≤ iv.hi
  · by_cases hfull : ix.size = NodeIndex.sentinel ix.bits
    · rw [h.insert_full hv hfull]
      exact .inl ⟨rfl, _, rfl⟩
    · exact .inr (h.insert hv (Nat.lt_of_le_of_ne h.size_le hfull))
  · rw [insert_of_lt (Std.not_le.mp hv)]
    exact .inl ⟨rfl, _, rfl⟩

theorem addAllLogged (h : ix.Stores hist) (ivs : List (Interval α)) (count : Nat)
    (log : Array Entry) :
    count ≤ (ix.addAllLogged ivs count log).2.1 ∧
      (ix.addAllLogged ivs count log).1.Stores
        (hist ++ ivs.take ((ix.addAllLogged ivs count log).2.1 - count)) := by
  induction ivs generalizing ix hist count log with
  | nil =>
      simpa [Index.addAllLogged] using h
  | cons iv rest ih =>
      rcases h.insert_cases iv with ⟨hkeep, f, herr⟩ | ⟨hst, hok⟩
      · have hins : ix.insert iv = (ix, .error f) := Prod.ext hkeep herr
        have hstep : ix.addAllLogged (iv :: rest) count log =
            (ix, count, some f, log.push (Entry.insertFailed iv.lo iv.hi f)) := by
          simp [Index.addAllLogged, addLogged, hins]
        rw [hstep]
        simpa using h
      · obtain ⟨ix', hix'⟩ : ∃ ix', (ix.insert iv).1 = ix' := ⟨_, rfl⟩
        have hins : ix.insert iv = (ix', .ok ix.size) := Prod.ext hix' hok
        rw [hix'] at hst
        have hstep : ix.addAllLogged (iv :: rest) count log =
            ix'.addAllLogged rest (count + 1) (log.push (Entry.inserted iv.lo iv.hi ix.size)) := by
          simp [Index.addAllLogged, addLogged, hins]
        rw [hstep]
        rcases ih hst (count + 1) (log.push (Entry.inserted iv.lo iv.hi ix.size)) with ⟨hle, hrest⟩
        generalize ix'.addAllLogged rest (count + 1)
          (log.push (Entry.inserted iv.lo iv.hi ix.size)) = res at hle hrest ⊢
        refine ⟨by omega, ?_⟩
        have hcount : res.2.1 - count = res.2.1 - (count + 1) + 1 := by omega
        rw [hcount, List.take_succ_cons]
        simpa using hrest

/-- Every command keeps the invariant, with the history its reply reports. -/
theorem exec (h : ix.Stores hist) (c : Command α) :
    (ix.exec c).1.Stores (c.stored (ix.exec c).2.1 hist) := by
  cases c with
  | add iv =>
      rcases h.insert_cases iv with ⟨hkeep, f, herr⟩ | ⟨hst, hok⟩
      · obtain ⟨hst', hrep⟩ := exec_add_of_error herr
        rw [hst', hrep, hkeep]
        exact h
      · obtain ⟨hst', hrep⟩ := exec_add_of_ok hok
        rw [hst', hrep]
        exact hst
  | addAll ivs =>
      rcases h.addAllLogged ivs 0 #[] with ⟨-, hst⟩
      simpa [Index.exec, Command.stored] using hst
  | query rel q =>
      rw [exec_query]
      exact h.congr (by rw [query_fst]) (by rw [query_fst])
  | overlapsAny q =>
      exact h
  | items =>
      exact h
  | isEmpty =>
      exact h
  | setResultLimit limit =>
      exact h.congr rfl rfl
  | clear =>
      exact of_empty rfl
  | draw =>
      exact h

theorem run (h : ix.Stores hist) (cmds : List (Command α)) :
    (ix.run cmds).Stores (ix.accepted hist cmds) := by
  induction cmds generalizing ix hist with
  | nil =>
      exact h
  | cons c cs ih =>
      exact ih (h.exec c)

end Stores

/-- Every run from an empty index keeps the invariant. -/
theorem stores_run (bits : Nat) (cmds : List (Command α)) :
    ((ofWidth bits).run cmds).Stores ((ofWidth bits).accepted [] cmds) :=
  (Stores.of_empty rfl).run cmds

end Index

end IntervalIndex
