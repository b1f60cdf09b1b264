import IntervalIndex.Proofs.Index.Invariant
import IntervalIndex.Proofs.Tree.Search

/-!
# Queries return exactly the matching intervals

A query first empties the result buffer, so nothing of an earlier query is left in it. An
inverted query span is refused there and then. Otherwise the matches of the pruned walk are
appended to the empty buffer one by one, and a query that succeeds returns the buffer's
contents.

The main statement is `query_run_eq_filter_items`: in every state reachable from an empty
index, a query that succeeds returns, and leaves in its buffer, exactly the stored intervals
that the relation accepts, in the order of `Index.items`.

`overlapsAny_run_iff` says the same of the yes-or-no question: the single path from the top
answers yes exactly when the query span is not inverted and some stored interval overlaps it.
-/

namespace IntervalIndex

namespace ResultBuffer

variable {β : Type}

@[simp] theorem items_reset (b : ResultBuffer β) : b.reset.items = #[] := rfl

theorem items_append (b : ResultBuffer β) (x : β) : (b.append x).items = b.items.push x := by
  unfold append
  split <;> rfl

theorem toList_items_of_pushAll_eq_ok {b b' : ResultBuffer β} {xs : List β}
    (h : b.pushAll xs = .ok b') : b'.items.toList = b.items.toList ++ xs := by
  induction xs generalizing b with
  | nil =>
      cases h
      simp
  | cons x xs ih =>
      unfold pushAll at h
      split at h
      · rw [ih h, items_append]
        simp
      · cases h

end ResultBuffer

namespace Index

variable {α : Type}

theorem Stores.collect_eq {ix : Index α} {hist : List (Interval α)} (h : ix.Stores hist)
    (rel : Relation) (q : Span) :
    ix.arena.collect rel q ix.arena.size ix.arena.root = ix.tree.collect rel q :=
  h.represents.linked.collect rel q (h.represents.size_eq ▸ Tree.height_le_size _)

theorem Stores.anyOverlap_eq {ix : Index α} {hist : List (Interval α)} (h : ix.Stores hist)
    (q : Span) : ix.arena.anyOverlap q ix.arena.size ix.arena.root = ix.tree.anyOverlap q :=
  h.represents.linked.anyOverlap q (h.represents.size_eq ▸ Tree.height_le_size _)

theorem query_of_pushAll_eq_ok {ix : Index α} {rel : Relation} {q : Span} (hq : q.lo ≤ q.hi)
    {b : ResultBuffer (Interval α)}
    (h : ix.results.reset.pushAll (ix.arena.collect rel q ix.arena.size ix.arena.root) = .ok b) :
    ix.query rel q = ({ ix with results := b }, .ok b.items) := by
  have hc : Span.checked q.lo q.hi = .ok q := Span.checked_eq_ok_iff.mpr ⟨hq, rfl⟩
  simp only [Index.query, hc, h]

theorem query_of_pushAll_eq_error {ix : Index α} {rel : Relation} {q : Span} (hq : q.lo ≤ q.hi)
    {f : Fault} {b : ResultBuffer (Interval α)}
    (h : ix.results.reset.pushAll (ix.arena.collect rel q ix.arena.size ix.arena.root) =
      .error (f, b)) :
    ix.query rel q = ({ ix with results := b.reset }, .error f) := by
  have hc : Span.checked q.lo q.hi = .ok q := Span.checked_eq_ok_iff.mpr ⟨hq, rfl⟩
  simp only [Index.query, hc, h]

theorem query_eq_of_lt {ix : Index α} {rel : Relation} {q : Span} (hq : q.hi < q.lo) :
    ix.query rel q =
      ({ ix with results := ix.results.reset }, .error (.invalidInterval q.lo q.hi)) := by
  have hc : Span.checked q.lo q.hi = .error (.invalidInterval q.lo q.hi) :=
    Span.checked_eq_error_iff.mpr ⟨Std.not_le.mpr hq, rfl⟩
  simp only [Index.query, hc]

theorem query_eq_ok {ix : Index α} {rel : Relation} {q : Span} (hq : q.lo ≤ q.hi)
    {found : Array (Interval α)} (h : (ix.query rel q).2 = .ok found) :
    found.toList = ix.arena.collect rel q ix.arena.size ix.arena.root ∧
      (ix.query rel q).1.results.items = found := by
  cases hpush : ix.results.reset.pushAll (ix.arena.collect rel q ix.arena.size ix.arena.root) with
  | ok b =>
      rw [query_of_pushAll_eq_ok hq hpush] at h ⊢
      cases h
      refine ⟨?_, rfl⟩
      rw [ResultBuffer.toList_items_of_pushAll_eq_ok hpush]
      simp
  | error e =>
      rcases e with ⟨f, b⟩
      rw [query_of_pushAll_eq_error hq hpush] at h
      cases h

theorem query_of_lt {ix : Index α} {rel : Relation} {q : Span} (hq : q.hi < q.lo) :
    (ix.query rel q).2 = .error (.invalidInterval q.lo q.hi) ∧
      (ix.query rel q).1.results.items = #[] := by
  rw [query_eq_of_lt hq]
  exact ⟨rfl, rfl⟩

/-- In every state reachable from an empty index, a query that succeeds returns exactly the
stored intervals that the relation accepts, in order, and they are all its buffer holds; a query
on an inverted span is refused and leaves the buffer empty. -/
theorem query_run_eq_filter_items (bits : Nat) (cmds : List (Command α)) (rel : Relation)
    (q : Span) :
    let ix := (ofWidth bits).run cmds
    (q.lo ≤ q.hi → ∀ found, (ix.query rel q).2 = .ok found →
        found.toList = ix.items.filter (fun iv => rel.holds iv.span q) ∧
          (ix.query rel q).1.results.items = found) ∧
      (q.hi < q.lo → (ix.query rel q).2 = .error (.invalidInterval q.lo q.hi) ∧
        (ix.query rel q).1.results.items = #[]) := by
  intro ix
  have hst : ix.Stores _ := stores_run bits cmds
  constructor
  · intro hq found h
    rcases query_eq_ok hq h with ⟨hfound, hbuf⟩
    constructor
    · rw [hfound, hst.collect_eq, items_eq_toList,
        Tree.collect_eq_matching rel hq hst.sorted (fun _ => hst.valid_toList) hst.maxExact]
      rfl
    · exact hbuf
  · intro hq
    exact query_of_lt hq

theorem query_run_overlapping_two :
    let ix := (ofWidth 8).run [.add ⟨1, 5, "a"⟩, .add ⟨6, 10, "b"⟩, .add ⟨8, 20, "c"⟩]
    (ix.query .overlapping ⟨7, 9⟩).2 = .ok #[⟨6, 10, "b"⟩, ⟨8, 20, "c"⟩] ∧
      [⟨6, 10, "b"⟩, ⟨8, 20, "c"⟩] =
        ix.items.filter (fun iv => Relation.overlapping.holds iv.span ⟨7, 9⟩) := by
  intro ix
  have hok : (ix.query .overlapping ⟨7, 9⟩).2 = .ok #[⟨6, 10, "b"⟩, ⟨8, 20, "c"⟩] := by
    decide
  exact ⟨hok, ((query_run_eq_filter_items 8 _ .overlapping ⟨7, 9⟩).1 (by decide) _ hok).1⟩

/-- In every state reachable from an empty index, some stored interval overlaps `q` by the
single-path search exactly when `q` is not inverted and some listed interval overlaps it. -/
theorem overlapsAny_run_iff (bits : Nat) (cmds : List (Command α)) (q : Span) :
    let ix := (ofWidth bits).run cmds
    ix.overlapsAny q = true ↔ q.lo ≤ q.hi ∧ ∃ iv ∈ ix.items, iv.span.overlaps q = true := by
  intro ix
  have hst : ix.Stores _ := stores_run bits cmds
  rw [overlapsAny, hst.anyOverlap_eq, Tree.anyOverlap_eq_hasOverlap q hst.sorted hst.maxExact,
    items_eq_toList]
  simp [Tree.hasOverlap]

end Index

end IntervalIndex
