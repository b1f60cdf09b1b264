import IntervalIndex.Proofs.Index.Shape

/-!
# Node positions within the index width

An index made by `Index.ofWidth bits` keeps node positions in `bits`-bit words and reserves the
greatest word, `NodeIndex.sentinel bits = 2 ^ bits - 1`. Adding an interval truncates the next
position, the count of nodes, to a word (`NodeIndex.ofNat`) and refuses when that word is the
reserved one; the truncation is harmless only while the count stays below `2 ^ bits`.

No command changes the width (`Index.run_bits`), and `Index.Stores` keeps the count at most the
reserved word. So in every reachable state the word of each position is the position itself,
no two nodes share a word, adding refuses exactly an inverted interval and then a full index,
and a refused addition leaves the index as it was. This is `Index.insert_run_width`.
-/

namespace IntervalIndex

namespace Index

variable {α : Type}

theorem exec_bits (ix : Index α) (c : Command α) : (ix.exec c).1.bits = ix.bits := by
  have hins : ∀ (ix : Index α) (iv : Interval α), (ix.insert iv).1.bits = ix.bits := by
    intro ix iv
    by_cases hv : iv.lo ≤ iv.hi
    · rw [insert_of_le hv]
    · rw [insert_of_lt (Std.not_le.mp hv)]
  cases c with
  | add iv =>
      rw [exec_add_fst, hins]
  | addAll ivs =>
      exact addAllLogged_of_insert (P := fun ix' => ix'.bits = ix.bits)
        (fun ix' iv hP => (hins ix' iv).trans hP) rfl ivs 0 #[]
  | query rel q =>
      rw [exec_query, query_fst]
  | overlapsAny q =>
      rfl
  | items =>
      rfl
  | isEmpty =>
      rfl
  | setResultLimit limit =>
      rfl
  | clear =>
      rfl
  | draw =>
      rfl

theorem run_bits (ix : Index α) (cmds : List (Command α)) : (ix.run cmds).bits = ix.bits := by
  induction cmds generalizing ix with
  | nil =>
      rfl
  | cons c cs ih =>
      exact (ih _).trans (exec_bits ix c)

theorem nodup_map_ofNat_of_perm {xs : List Nat} {n bits : Nat} (hp : xs.Perm (List.range n))
    (hn : n ≤ NodeIndex.sentinel bits) : (xs.map (NodeIndex.ofNat bits)).Nodup := by
  have hmap : (List.range n).map (NodeIndex.ofNat bits) = List.range n :=
    calc (List.range n).map (NodeIndex.ofNat bits)
        = (List.range n).map id :=
          List.map_congr_left fun i hi =>
            NodeIndex.ofNat_of_le_sentinel (Nat.le_trans (Nat.le_of_lt (List.mem_range.mp hi)) hn)
      _ = List.range n := List.map_id _
  rw [(hp.map _).nodup_iff, hmap]
  exact List.nodup_range

/-- In every state reachable from an empty index of width `bits`, adding refuses exactly an
inverted interval, and a valid one exactly when the count has reached the reserved word; a
refusal leaves the whole index as it was, and otherwise the interval is stored at the position
given by the old count, which the reply names. The count never passes the reserved word, so
truncating a position to its word keeps it and gives no two nodes the same word. -/
theorem insert_run_width (bits : Nat) (cmds : List (Command α)) (iv : Interval α) :
    let ix := (ofWidth bits).run cmds
    ((ix.insert iv).2 = .error (.invalidInterval iv.lo iv.hi) ↔ iv.hi < iv.lo) ∧
      (iv.lo ≤ iv.hi →
        ((ix.insert iv).2 = .error .outOfMemory ↔ ix.size = NodeIndex.sentinel bits)) ∧
      (∀ f, (ix.insert iv).2 = .error f → (ix.insert iv).1 = ix ∧ (ix.exec (.add iv)).1 = ix) ∧
      (∀ z, (ix.insert iv).2 = .ok z → z = ix.size ∧ (ix.insert iv).1.size = ix.size + 1 ∧
        (ix.insert iv).1.tree.entries.Perm (ix.tree.entries ++ [(iv, ix.size)])) ∧
      ix.size ≤ NodeIndex.sentinel bits ∧ (∀ i < ix.size, NodeIndex.ofNat bits i = i) ∧
      (ix.tree.nodes.map fun n => NodeIndex.ofNat bits n.seq).Nodup := by
  intro ix
  have hst : ix.Stores _ := stores_run bits cmds
  have hbits : ix.bits = bits := run_bits _ cmds
  have hle : ix.size ≤ NodeIndex.sentinel bits := hbits ▸ hst.size_le
  refine ⟨?_, ?_, ?_, ?_, hle, ?_, ?_⟩
  · by_cases hv : iv.hi < iv.lo
    · rw [insert_of_lt hv]
      exact ⟨fun _ => hv, fun _ => rfl⟩
    · refine ⟨fun herr => ?_, fun h => absurd h hv⟩
      rcases hst.insert_cases iv with ⟨-, f, hf⟩ | ⟨-, hok⟩
      · by_cases hfull : ix.size = NodeIndex.sentinel ix.bits
        · rw [hst.insert_full (Std.not_lt.mp hv) hfull] at herr
          cases herr
        · rw [(hst.insert (Std.not_lt.mp hv) (Nat.lt_of_le_of_ne hst.size_le hfull)).2] at herr
          cases herr
      · rw [hok] at herr
        cases herr
  · intro hv
    constructor
    · intro hoom
      refine Decidable.byContradiction fun hfull => ?_
      rw [← hbits] at hfull
      rw [(hst.insert hv (Nat.lt_of_le_of_ne hst.size_le hfull)).2] at hoom
      cases hoom
    · intro hfull
      rw [hst.insert_full hv (hbits ▸ hfull)]
  · intro f hf
    rcases hst.insert_cases iv with ⟨hkeep, -⟩ | ⟨-, hok⟩
    · exact ⟨hkeep, (exec_add_fst ix iv).trans hkeep⟩
    · rw [hok] at hf
      cases hf
  · intro z hz
    rcases hst.insert_cases iv with ⟨-, f, hf⟩ | ⟨hst', hok⟩
    · rw [hf] at hz
      cases hz
    · rw [hok] at hz
      cases hz
      refine ⟨rfl, by rw [hst'.size_eq, hst.size_eq, List.length_append]; rfl, ?_⟩
      refine hst'.entries_perm.trans ?_
      rw [List.zipIdx_append, hst.size_eq]
      have hlast : [iv].zipIdx (0 + ((ofWidth bits).accepted [] cmds).length) =
          [(iv, ((ofWidth bits).accepted [] cmds).length)] := by simp
      rw [hlast]
      exact hst.entries_perm.symm.append_right _
  · intro i hi
    exact NodeIndex.ofNat_of_le_sentinel (Nat.le_trans (Nat.le_of_lt hi) hle)
  · have hnodup := nodup_map_ofNat_of_perm hst.seqs_perm hle
    rw [List.map_map] at hnodup
    exact hnodup

theorem insert_refused_at_width_one :
    let ix := (ofWidth 1).run [.add (⟨1, 2, "a"⟩ : Interval String)]
    (⟨3, 4, "b"⟩ : Interval String).lo ≤ (⟨3, 4, "b"⟩ : Interval String).hi ∧
      ix.size = NodeIndex.sentinel 1 ∧ (ix.insert ⟨3, 4, "b"⟩).2 = .error .outOfMemory ∧
      (ix.insert ⟨3, 4, "b"⟩).1 = ix := by
  intro ix
  obtain ⟨-, hoom, hkeep, -⟩ :=
    insert_run_width 1 [.add (⟨1, 2, "a"⟩ : Interval String)] ⟨3, 4, "b"⟩
  have hv : (⟨3, 4, "b"⟩ : Interval String).lo ≤ (⟨3, 4, "b"⟩ : Interval String).hi := by decide
  have hsize : ix.size = NodeIndex.sentinel 1 := by decide
  have hfull := ((hoom hv).mpr hsize)
  exact ⟨hv, hsize, hfull, (hkeep _ hfull).1⟩

end Index

end IntervalIndex
