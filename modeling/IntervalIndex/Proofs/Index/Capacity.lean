import IntervalIndex.Proofs.Index.Width
import IntervalIndex.Proofs.Index.Query

/-!
# Growth of the result buffer

A query empties the buffer and appends its matches one by one. A full buffer grows by
`growthStep` slots, unless the limit leaves less than that above the capacity. From capacity `c`
and limit `L` the buffer can therefore reach `ResultBuffer.room`, the larger of `c` and of `L`
rounded down to a whole number of steps, and no further.

`ResultBuffer.Fits` says that a buffer holds no more than its capacity and that the capacity is a
whole number of steps; every append and every command keeps it. On a fitting buffer,
`pushAll_of_le` and `pushAll_of_lt` say what appending `k` matches does: when `k` is at most the
room all of them are appended and the capacity becomes the least whole number of steps that
holds them, and otherwise the appending is refused once the capacity has reached the room.

`Index.exec_results` says what one command does to the buffer: its capacity never shrinks and
passes neither the old capacity nor the limit, whichever is larger. Over a run, the limit is the
last one set (`Index.run_results`). `Index.query_capacity_run` puts these together for every
state reachable from an empty index.
-/

namespace IntervalIndex

namespace ResultBuffer

variable {β : Type}

/-- The capacity the buffer can reach: its own, or the limit rounded down to a whole number of
growth steps, whichever is larger. -/
def room (b : ResultBuffer β) : Nat := max b.capacity (growthStep * (b.limit / growthStep))

/-- The least whole number of growth steps that holds `k` matches. -/
def stepsFor (k : Nat) : Nat := growthStep * ((k + growthStep - 1) / growthStep)

/-- A buffer holds no more matches than its capacity, and its capacity is a whole number of
growth steps. -/
structure Fits (b : ResultBuffer β) : Prop where
  size_le : b.items.size ≤ b.capacity
  dvd : growthStep ∣ b.capacity

theorem capacity_append (b : ResultBuffer β) (x : β) :
    (b.append x).capacity =
      if b.items.size = b.capacity then b.capacity + growthStep else b.capacity := by
  unfold append
  split <;> rfl

@[simp] theorem limit_append (b : ResultBuffer β) (x : β) : (b.append x).limit = b.limit := by
  unfold append
  split <;> rfl

theorem hasRoom_iff {b : ResultBuffer β} (h : b.Fits) :
    b.hasRoom = true ↔ b.items.size < b.room := by
  have hle := h.size_le
  have hdvd := h.dvd
  simp only [hasRoom, room, Bool.or_eq_true, bne_iff_ne, ne_eq, decide_eq_true_eq]
  simp only [growthStep] at hdvd ⊢
  omega

theorem Fits.append {b : ResultBuffer β} (h : b.Fits) (x : β) : (b.append x).Fits := by
  have hle := h.size_le
  have hdvd := h.dvd
  constructor
  · rw [items_append, Array.size_push, capacity_append]
    simp only [growthStep]
    split <;> omega
  · rw [capacity_append]
    split
    · exact Nat.dvd_add hdvd (Nat.dvd_refl _)
    · exact hdvd

theorem Fits.reset {b : ResultBuffer β} (h : b.Fits) : b.reset.Fits :=
  ⟨Nat.zero_le _, h.dvd⟩

theorem room_append {b : ResultBuffer β} (h : b.Fits) (hr : b.items.size < b.room) (x : β) :
    (b.append x).room = b.room := by
  have hle := h.size_le
  have hdvd := h.dvd
  simp only [room, limit_append, capacity_append, growthStep] at hr hdvd ⊢
  split <;> omega

theorem pushAll_of_le {b : ResultBuffer β} (h : b.Fits) (xs : List β)
    (hk : b.items.size + xs.length ≤ b.room) :
    ∃ b', b.pushAll xs = .ok b' ∧ b'.Fits ∧ b'.limit = b.limit ∧
      b'.capacity = max b.capacity (stepsFor (b.items.size + xs.length)) := by
  induction xs generalizing b with
  | nil =>
      refine ⟨b, rfl, h, rfl, ?_⟩
      have hle := h.size_le
      have hdvd := h.dvd
      simp only [stepsFor, growthStep, List.length_nil, Nat.add_zero] at hdvd ⊢
      omega
  | cons x xs ih =>
      have hroom : b.items.size < b.room := by
        simp only [List.length_cons] at hk
        omega
      have hk' : (b.append x).items.size + xs.length ≤ (b.append x).room := by
        rw [room_append h hroom, items_append, Array.size_push]
        simp only [List.length_cons] at hk
        omega
      obtain ⟨b', hpush, hfit, hlim, hcap⟩ := ih (h.append x) hk'
      refine ⟨b', ?_, hfit, by rw [hlim, limit_append], ?_⟩
      · rw [pushAll, if_pos ((hasRoom_iff h).mpr hroom)]
        exact hpush
      · have hle := h.size_le
        have hdvd := h.dvd
        rw [hcap, items_append, Array.size_push, capacity_append]
        simp only [stepsFor, growthStep, List.length_cons] at hdvd ⊢
        split <;> omega

theorem pushAll_of_lt {b : ResultBuffer β} (h : b.Fits) (xs : List β)
    (hk : b.room < b.items.size + xs.length) :
    ∃ b', b.pushAll xs = .error (.outOfMemory, b') ∧ b'.Fits ∧ b'.limit = b.limit ∧
      b'.capacity = b.room := by
  induction xs generalizing b with
  | nil =>
      have hle := h.size_le
      simp only [room, List.length_nil, Nat.add_zero] at hk
      omega
  | cons x xs ih =>
      by_cases hroom : b.items.size < b.room
      · have hk' : (b.append x).room < (b.append x).items.size + xs.length := by
          rw [room_append h hroom, items_append, Array.size_push]
          simp only [List.length_cons] at hk
          omega
        obtain ⟨b', hpush, hfit, hlim, hcap⟩ := ih (h.append x) hk'
        refine ⟨b', ?_, hfit, by rw [hlim, limit_append], by rw [hcap, room_append h hroom]⟩
        rw [pushAll, if_pos ((hasRoom_iff h).mpr hroom)]
        exact hpush
      · have hno : b.hasRoom = false := by
          rw [← Bool.not_eq_true, hasRoom_iff h]
          exact hroom
        refine ⟨b, by rw [pushAll, hno]; rfl, h, rfl, ?_⟩
        have hle := h.size_le
        simp only [room] at hroom ⊢
        omega

theorem stepsFor_le_room {b : ResultBuffer β} (h : b.Fits) {k : Nat} (hk : k ≤ b.room) :
    stepsFor k ≤ b.room := by
  have hdvd := h.dvd
  simp only [stepsFor, room, growthStep] at hdvd hk ⊢
  omega

theorem capacity_le_room (b : ResultBuffer β) : b.capacity ≤ b.room :=
  Nat.le_max_left _ _

theorem room_le (b : ResultBuffer β) : b.room ≤ max b.capacity b.limit := by
  simp only [room, growthStep]
  omega

end ResultBuffer

namespace Command

variable {α : Type}

/-- The limit a command puts on the result buffer, if it puts one. -/
def limitSet? : Command α → Option Nat
  | .setResultLimit limit => some limit
  | _ => none

theorem getLastD_filterMap_limitSet?_cons (c : Command α) (cs : List (Command α)) (d : Nat) :
    ((c :: cs).filterMap limitSet?).getLastD d = (cs.filterMap limitSet?).getLastD
      (c.limitSet?.getD d) := by
  cases h : c.limitSet? with
  | none =>
      rw [List.filterMap_cons_none h]
      rfl
  | some l =>
      rw [List.filterMap_cons_some h, List.getLastD_cons]
      rfl

end Command

namespace Index

variable {α : Type}

open ResultBuffer

theorem insert_results (ix : Index α) (iv : Interval α) :
    (ix.insert iv).1.results = ix.results := by
  by_cases hv : iv.lo ≤ iv.hi
  · rw [insert_of_le hv]
  · rw [insert_of_lt (Std.not_le.mp hv)]

theorem query_of_le_room {ix : Index α} {rel : Relation} {q : Span} (hq : q.lo ≤ q.hi)
    (h : ix.results.Fits)
    (hk : (ix.arena.collect rel q ix.arena.size ix.arena.root).length ≤ ix.results.room) :
    ∃ found, (ix.query rel q).2 = .ok found ∧ (ix.query rel q).1.results.Fits ∧
      (ix.query rel q).1.results.limit = ix.results.limit ∧
      (ix.query rel q).1.results.capacity = max ix.results.capacity
        (stepsFor (ix.arena.collect rel q ix.arena.size ix.arena.root).length) := by
  obtain ⟨b, hpush, hfit, hlim, hcap⟩ := pushAll_of_le h.reset
    (ix.arena.collect rel q ix.arena.size ix.arena.root) (by simpa [room] using hk)
  have hcap' : b.capacity = max ix.results.capacity
      (stepsFor (ix.arena.collect rel q ix.arena.size ix.arena.root).length) := by
    simpa using hcap
  rw [query_of_pushAll_eq_ok hq hpush]
  exact ⟨b.items, rfl, hfit, hlim, hcap'⟩

theorem query_of_room_lt {ix : Index α} {rel : Relation} {q : Span} (hq : q.lo ≤ q.hi)
    (h : ix.results.Fits)
    (hk : ix.results.room < (ix.arena.collect rel q ix.arena.size ix.arena.root).length) :
    (ix.query rel q).2 = .error .outOfMemory ∧ (ix.query rel q).1.results.items = #[] ∧
      (ix.query rel q).1.results.Fits ∧ (ix.query rel q).1.results.limit = ix.results.limit ∧
      (ix.query rel q).1.results.capacity = ix.results.room := by
  obtain ⟨b, hpush, hfit, hlim, hcap⟩ := pushAll_of_lt h.reset
    (ix.arena.collect rel q ix.arena.size ix.arena.root) (by simpa [room] using hk)
  rw [query_of_pushAll_eq_error hq hpush]
  exact ⟨rfl, rfl, hfit.reset, hlim, hcap⟩

theorem query_results {ix : Index α} (h : ix.results.Fits) (rel : Relation) (q : Span) :
    (ix.query rel q).1.results.Fits ∧ (ix.query rel q).1.results.limit = ix.results.limit ∧
      ix.results.capacity ≤ (ix.query rel q).1.results.capacity ∧
      (ix.query rel q).1.results.capacity ≤ ix.results.room := by
  by_cases hq : q.lo ≤ q.hi
  · by_cases hk :
        (ix.arena.collect rel q ix.arena.size ix.arena.root).length ≤ ix.results.room
    · obtain ⟨-, -, hfit, hlim, hcap⟩ := query_of_le_room hq h hk
      rw [hcap]
      exact ⟨hfit, hlim, Nat.le_max_left _ _,
        Nat.max_le.mpr ⟨capacity_le_room _, stepsFor_le_room h hk⟩⟩
    · obtain ⟨-, -, hfit, hlim, hcap⟩ := query_of_room_lt hq h (Nat.lt_of_not_le hk)
      rw [hcap]
      exact ⟨hfit, hlim, capacity_le_room _, Nat.le_refl _⟩
  · rw [query_eq_of_lt (Std.not_le.mp hq)]
    exact ⟨h.reset, rfl, Nat.le_refl _, capacity_le_room _⟩

theorem exec_addAll_fst (ix : Index α) (ivs : List (Interval α)) :
    (ix.exec (.addAll ivs)).1 = (ix.addAllLogged ivs 0 #[]).1 := rfl

theorem exec_results {ix : Index α} (h : ix.results.Fits) (c : Command α) :
    (ix.exec c).1.results.Fits ∧ ix.results.capacity ≤ (ix.exec c).1.results.capacity ∧
      (ix.exec c).1.results.capacity ≤ max ix.results.capacity ix.results.limit ∧
      (ix.exec c).1.results.limit = c.limitSet?.getD ix.results.limit := by
  have hkeep : ix.results.Fits ∧ ix.results.capacity ≤ ix.results.capacity ∧
      ix.results.capacity ≤ max ix.results.capacity ix.results.limit ∧
      ix.results.limit = ix.results.limit :=
    ⟨h, Nat.le_refl _, Nat.le_max_left _ _, rfl⟩
  cases c with
  | add iv =>
      rw [exec_add_fst, insert_results]
      exact hkeep
  | addAll ivs =>
      have hres : (ix.addAllLogged ivs 0 #[]).1.results = ix.results :=
        addAllLogged_of_insert (P := fun ix' => ix'.results = ix.results)
          (fun ix' iv hP => (insert_results ix' iv).trans hP) rfl ivs 0 #[]
      rw [exec_addAll_fst, hres]
      exact hkeep
  | query rel q =>
      rw [exec_query]
      obtain ⟨hfit, hlim, hmono, hroom⟩ := query_results h rel q
      exact ⟨hfit, hmono, Nat.le_trans hroom (room_le _), hlim⟩
  | overlapsAny q =>
      exact hkeep
  | items =>
      exact hkeep
  | isEmpty =>
      exact hkeep
  | setResultLimit limit =>
      exact ⟨⟨h.size_le, h.dvd⟩, Nat.le_refl _, Nat.le_max_left _ _, rfl⟩
  | clear =>
      exact ⟨h.reset, Nat.le_refl _, Nat.le_max_left _ _, rfl⟩
  | draw =>
      exact hkeep

theorem run_results {ix : Index α} (h : ix.results.Fits) (cmds : List (Command α)) :
    (ix.run cmds).results.Fits ∧
      (ix.run cmds).results.limit =
        (cmds.filterMap Command.limitSet?).getLastD ix.results.limit := by
  induction cmds generalizing ix with
  | nil =>
      exact ⟨h, rfl⟩
  | cons c cs ih =>
      obtain ⟨hfit, -, -, hlim⟩ := exec_results h c
      obtain ⟨hfit', hlim'⟩ := ih hfit
      refine ⟨hfit', ?_⟩
      rw [Command.getLastD_filterMap_limitSet?_cons, ← hlim]
      exact hlim'

/-- While every limit is a machine size, so is the capacity. -/
theorem run_capacity_le_sizeLimit {ix : Index α} (h : ix.results.Fits)
    (hc : ix.results.capacity ≤ sizeLimit) (hl : ix.results.limit ≤ sizeLimit)
    (cmds : List (Command α)) (hcmds : ∀ l ∈ cmds.filterMap Command.limitSet?, l ≤ sizeLimit) :
    (ix.run cmds).results.capacity ≤ sizeLimit ∧ (ix.run cmds).results.limit ≤ sizeLimit := by
  induction cmds generalizing ix with
  | nil =>
      exact ⟨hc, hl⟩
  | cons c cs ih =>
      obtain ⟨hfit, -, hcap, hlim⟩ := exec_results h c
      have hl' : (ix.exec c).1.results.limit ≤ sizeLimit := by
        rw [hlim]
        cases hset : c.limitSet? with
        | none =>
            exact hl
        | some l =>
            exact hcmds l (List.mem_filterMap.mpr ⟨c, List.mem_cons_self, hset⟩)
      apply ih hfit (Nat.le_trans hcap (Nat.max_le.mpr ⟨hc, hl⟩)) hl'
      intro l hmem
      obtain ⟨c', hc', hset'⟩ := List.mem_filterMap.mp hmem
      exact hcmds l (List.mem_filterMap.mpr ⟨c', List.mem_cons_of_mem c hc', hset'⟩)

/-- In every state reachable from an empty index, with capacity `c` and limit `L` (the last one
set, `sizeLimit` if none), a query by `rel` on a span that is not inverted succeeds exactly when
its `k` matches fit in the room `max c (growthStep * (L / growthStep))`. It then leaves the least
whole number of steps that holds them, or `c` if that is more; otherwise it is refused as
`outOfMemory` with an empty buffer of capacity the room. The capacity is a whole number of steps,
no command lowers it, and while every limit set is a machine size so is the capacity. -/
theorem query_capacity_run (bits : Nat) (cmds : List (Command α)) (rel : Relation) (q : Span)
    (hq : q.lo ≤ q.hi) :
    let ix := (ofWidth bits).run cmds
    let c := ix.resultCapacity
    let L := ix.results.limit
    let k := (ix.items.filter fun iv => rel.holds iv.span q).length
    let room := max c (growthStep * (L / growthStep))
    let res := ix.query rel q
    L = (cmds.filterMap Command.limitSet?).getLastD sizeLimit ∧
      ((∃ found, res.2 = .ok found) ↔ k ≤ room) ∧
      (k ≤ room → res.1.resultCapacity = max c (growthStep * ((k + growthStep - 1) / growthStep))) ∧
      (room < k → res.2 = .error .outOfMemory ∧ res.1.results.items = #[] ∧
        res.1.resultCapacity = room) ∧
      growthStep ∣ c ∧ (∀ cmd, c ≤ (ix.exec cmd).1.resultCapacity) ∧
      ((∀ l ∈ cmds.filterMap Command.limitSet?, l ≤ sizeLimit) →
        c ≤ sizeLimit ∧ res.1.resultCapacity ≤ sizeLimit) := by
  intro ix c L k room res
  have hst : ix.Stores _ := stores_run bits cmds
  have hfit0 : (ofWidth bits : Index α).results.Fits := ⟨Nat.le_refl 0, Nat.dvd_zero _⟩
  obtain ⟨hfit, hlim⟩ := run_results hfit0 cmds
  have hk : (ix.arena.collect rel q ix.arena.size ix.arena.root).length = k := by
    rw [hst.collect_eq, Tree.collect_eq_matching rel hq hst.sorted (fun _ => hst.valid_toList)
      hst.maxExact,
      Tree.matching, ← items_eq_toList]
  refine ⟨hlim, ⟨?_, ?_⟩, ?_, ?_, hfit.dvd, ?_, ?_⟩
  · rintro ⟨found, hok⟩
    refine Nat.le_of_not_lt fun hlt => ?_
    have herr := (query_of_room_lt hq hfit (hk ▸ hlt)).1
    rw [hok] at herr
    cases herr
  · intro hle
    obtain ⟨found, hok, -⟩ := query_of_le_room hq hfit (hk ▸ hle)
    exact ⟨found, hok⟩
  · intro hle
    obtain ⟨-, -, -, -, hcap⟩ := query_of_le_room hq hfit (hk ▸ hle)
    rw [← hk]
    exact hcap
  · intro hlt
    obtain ⟨herr, hitems, -, -, hcap⟩ := query_of_room_lt hq hfit (hk ▸ hlt)
    exact ⟨herr, hitems, hcap⟩
  · intro cmd
    exact (exec_results hfit cmd).2.1
  · intro hcmds
    obtain ⟨hc, hl⟩ := run_capacity_le_sizeLimit hfit0 (Nat.zero_le _) (Nat.le_refl _) cmds hcmds
    obtain ⟨-, -, -, hroom⟩ := query_results hfit rel q
    exact ⟨hc, Nat.le_trans hroom (Nat.le_trans (room_le _) (Nat.max_le.mpr ⟨hc, hl⟩))⟩

theorem query_capacity_limit_fifteen :
    let cmds : List (Command String) := [.setResultLimit 15, .add ⟨1, 5, "a"⟩, .add ⟨2, 6, "b"⟩]
    let ix := (ofWidth 8).run cmds
    (⟨0, 10⟩ : Span).lo ≤ (⟨0, 10⟩ : Span).hi ∧ ix.results.limit = 15 ∧
      (ix.query .overlapping ⟨0, 10⟩).1.resultCapacity ≤ sizeLimit := by
  intro cmds ix
  obtain ⟨hlim, -, -, -, -, -, hbound⟩ :=
    query_capacity_run 8 cmds .overlapping ⟨0, 10⟩ (by decide)
  exact ⟨by decide, hlim.trans (by decide), (hbound (by decide)).2⟩

end Index

end IntervalIndex
