import IntervalIndex.Tree.Search
import IntervalIndex.Proofs.Tree.Order
import IntervalIndex.Proofs.Tree.Bound

/-!
# The pruned search finds every match

`Tree.collect` skips two kinds of subtree: one whose bound lies below the start of the query,
and the right subtree of a node that starts after the query ends. Neither skip loses a match,
because each of the three relations asks the stored interval to end no earlier than the query
starts and to start no later than the query ends (`Relation.holds_bounds`). For the first skip
this needs the bound to cover every end in the subtree, and stored intervals that are not
inverted; for the second it needs the in-order list to be sorted by start.

The main statement is `Tree.collect_eq_matching`: on a tree with those three properties, the
pruned walk returns exactly the in-order intervals that the relation accepts.

`Tree.anyOverlap` gives up a whole subtree at every node. Going right is safe when the left
subtree ends before the query starts. Going left is safe by the argument of the classic interval
search (CLRS): the left subtree holds an interval that ends no earlier than the query starts, so
if that interval misses the query it starts after the query ends, and so does every interval to
its right. `Tree.anyOverlap_eq_hasOverlap` needs only the order by start and the exact bounds.
-/

namespace IntervalIndex

namespace Relation

theorem holds_bounds (rel : Relation) {s q : Span} (hs : s.lo ≤ s.hi) (hq : q.lo ≤ q.hi)
    (h : rel.holds s q = true) : q.lo ≤ s.hi ∧ s.lo ≤ q.hi := by
  cases rel with
  | containedIn =>
      rcases Span.contains_iff.mp h with ⟨hlo, hhi⟩
      exact ⟨Std.le_trans hlo hs, Std.le_trans hs hhi⟩
  | containing =>
      rcases Span.contains_iff.mp h with ⟨hlo, hhi⟩
      exact ⟨Std.le_trans hq hhi, Std.le_trans hlo hq⟩
  | overlapping =>
      rcases Span.overlaps_iff.mp h with ⟨hlo, hhi⟩
      exact ⟨hhi, hlo⟩

end Relation

namespace Tree

variable {α : Type}

theorem matching_node (rel : Relation) (q : Span) (l : Tree α) (n : Node α) (r : Tree α) :
    (node l n r).matching rel q =
      l.matching rel q ++ (if rel.holds n.interval.span q then [n.interval] else []) ++
        r.matching rel q := by
  by_cases h : rel.holds n.interval.span q <;> simp [matching, h]

theorem matching_eq_nil (rel : Relation) {q : Span} (hq : q.lo ≤ q.hi) {t : Tree α}
    (hv : ∀ iv ∈ t.toList, iv.lo ≤ iv.hi)
    (hout : ∀ iv ∈ t.toList, iv.hi < q.lo ∨ q.hi < iv.lo) : t.matching rel q = [] := by
  apply List.filter_eq_nil_iff.mpr
  intro iv hiv hholds
  rcases rel.holds_bounds (hv iv hiv) hq hholds with ⟨hlo, hhi⟩
  rcases hout iv hiv with hlt | hlt
  · exact absurd hlo (Std.not_le.mpr hlt)
  · exact absurd hhi (Std.not_le.mpr hlt)

/-- The pruned walk finds exactly the intervals that the relation accepts, in order. -/
theorem collect_eq_matching (rel : Relation) {q : Span} (hq : q.lo ≤ q.hi) {t : Tree α}
    (hs : t.Sorted) (hv : ∀ iv ∈ t.toList, iv.lo ≤ iv.hi) (hx : t.MaxExact) :
    t.collect rel q = t.matching rel q := by
  induction t with
  | leaf =>
      rfl
  | node l n r ihl ihr =>
      have hvl : ∀ iv ∈ l.toList, iv.lo ≤ iv.hi := by
        intro iv h
        exact hv iv (by simp [h])
      have hvr : ∀ iv ∈ r.toList, iv.lo ≤ iv.hi := by
        intro iv h
        exact hv iv (by simp [h])
      rw [collect, matching_node]
      by_cases hmax : n.maxHi < q.lo
      · rw [if_pos hmax]
        have hbelow : ∀ iv ∈ (node l n r).toList, iv.hi < q.lo := by
          intro iv hiv
          have hle := hi_le_maxEnd hiv
          rw [← hx.maxHi_eq, maxHi_node] at hle
          exact Std.lt_of_le_of_lt hle hmax
        have hnil := matching_eq_nil rel hq hv fun iv hiv => Or.inl (hbelow iv hiv)
        rw [matching_node] at hnil
        exact hnil.symm
      · rw [if_neg hmax, ihl hs.left hvl hx.left]
        by_cases hstart : n.interval.lo ≤ q.hi
        · rw [if_pos hstart, ihr hs.right hvr hx.right]
        · rw [if_neg hstart, matching_eq_nil rel hq hvr fun iv hiv => Or.inr
            (Std.lt_of_lt_of_le (Std.not_le.mp hstart) (hs.top_le hiv))]

/-!
## The single-path search
-/

theorem reaches_eq_true_iff {t : Tree α} {x : UInt32} :
    t.reaches x = true ↔ t ≠ leaf ∧ x ≤ t.maxHi := by
  cases t with
  | leaf =>
      simp [reaches]
  | node l n r =>
      simp [reaches]

theorem hasOverlap_node (q : Span) (l : Tree α) (n : Node α) (r : Tree α) :
    (node l n r).hasOverlap q =
      (l.hasOverlap q || n.interval.span.overlaps q || r.hasOverlap q) := by
  simp [hasOverlap, Bool.or_assoc]

theorem hasOverlap_eq_false {q : Span} {t : Tree α}
    (h : ∀ iv ∈ t.toList, iv.hi < q.lo ∨ q.hi < iv.lo) : t.hasOverlap q = false := by
  rw [hasOverlap, List.any_eq_false]
  intro iv hiv hov
  rcases Span.overlaps_iff.mp hov with ⟨hlo, hhi⟩
  rcases h iv hiv with hlt | hlt
  · exact absurd hhi (Std.not_le.mpr hlt)
  · exact absurd hlo (Std.not_le.mpr hlt)

/-- The single path finds an overlap exactly when the in-order list holds one. -/
theorem anyOverlap_eq_hasOverlap (q : Span) {t : Tree α} (hs : t.Sorted) (hx : t.MaxExact) :
    t.anyOverlap q = t.hasOverlap q := by
  induction t with
  | leaf =>
      rfl
  | node l n r ihl ihr =>
      rw [anyOverlap, hasOverlap_node]
      by_cases hn : n.interval.span.overlaps q = true
      · simp [hn]
      rw [Bool.not_eq_true] at hn
      rw [hn, Bool.false_or, Bool.or_false]
      by_cases hreach : l.reaches q.lo = true
      · rw [if_pos hreach, ihl hs.left hx.left]
        cases hl : l.hasOverlap q with
        | true =>
            rfl
        | false =>
            obtain ⟨hne, hreach⟩ := reaches_eq_true_iff.mp hreach
            rw [hx.left.maxHi_eq] at hreach
            obtain ⟨iv, hiv, hhi⟩ := exists_le_hi_of_le_maxEnd hne hreach
            have hmiss : iv.span.overlaps q = false := by
              rw [hasOverlap, List.any_eq_false] at hl
              simpa using hl iv hiv
            have hstart : q.hi < iv.lo := by
              rw [← Bool.not_eq_true, Span.overlaps_iff] at hmiss
              exact Std.not_le.mp fun h => hmiss ⟨h, hhi⟩
            symm
            apply hasOverlap_eq_false
            intro iv' hiv'
            right
            exact Std.lt_of_lt_of_le hstart (Std.le_trans (hs.le_top hiv) (hs.top_le hiv'))
      · rw [if_neg hreach, ihr hs.right hx.right]
        have hleft : l.hasOverlap q = false := by
          apply hasOverlap_eq_false
          intro iv hiv
          left
          have hne : l ≠ leaf := by
            rintro rfl
            cases hiv
          have hlt : l.maxEnd < q.lo := by
            rw [← hx.left.maxHi_eq]
            exact Std.not_le.mp fun h => hreach (reaches_eq_true_iff.mpr ⟨hne, h⟩)
          exact Std.lt_of_le_of_lt (hi_le_maxEnd hiv) hlt
        rw [hleft, Bool.false_or]

end Tree

end IntervalIndex
