-- SUMMARY: Ranges of indices, and lists of them that partition a range.
import Mathlib.Data.List.Range
import Mathlib.Tactic.Linarith
import Mathlib.Tactic.Ring

/-!
# Ranges of indices
-/

/-- The indices from `start` on that are less than `stop`. -/
structure IndexRange where
  start : ℤ
  stop : ℤ
  start_le_stop : start ≤ stop

namespace IndexRange

instance : Membership ℤ IndexRange := ⟨fun r x => r.start ≤ x ∧ x < r.stop⟩

theorem mem_iff {r : IndexRange} {x : ℤ} : x ∈ r ↔ r.start ≤ x ∧ x < r.stop := Iff.rfl

def size (r : IndexRange) : ℤ := r.stop - r.start

/-- The ranges lie side by side, in their order, and make up the range of the total. -/
structure Partition (ranges : List IndexRange) (total : ℤ) : Prop where
  disjoint : ranges.Pairwise fun r r' => ∀ x ∈ r, x ∉ r'
  contiguous : ranges.IsChain fun r r' => r.stop = r'.start
  cover : ∀ x, (∃ r ∈ ranges, x ∈ r) ↔ 0 ≤ x ∧ x < total

/-- The range of number `i` when all of them have one size. -/
def bucket (size i : ℕ) : IndexRange where
  start := i * size
  stop := (i + 1) * size
  start_le_stop := by
    have hsize : (0 : ℤ) ≤ size := Int.natCast_nonneg size
    linarith

theorem size_bucket {size i : ℕ} : (bucket size i).size = size := by
  unfold bucket IndexRange.size
  ring

theorem disjoint_bucket {size i j : ℕ} (h : i < j) : ∀ x ∈ bucket size i, x ∉ bucket size j := by
  have hle : ((i + 1 : ℤ)) * size ≤ j * size :=
    mul_le_mul_of_nonneg_right (by omega) (Int.natCast_nonneg size)
  intro x hx hx'
  exact absurd (hx.2.trans_le hle) (not_lt_of_ge hx'.1)

theorem partition_buckets (size n : ℕ) :
    Partition ((List.range n).map (bucket size)) (n * size) where
  disjoint := by
    rw [List.pairwise_map]
    exact List.pairwise_lt_range.imp disjoint_bucket
  contiguous := by
    rw [List.isChain_map, List.isChain_range]
    intro i _
    simp [bucket]
  cover := by
    intro x
    induction n with
    | zero => simp
    | succ n ih =>
        have hsize : (0 : ℤ) ≤ size := Int.natCast_nonneg size
        have hprefix : (0 : ℤ) ≤ n * size := mul_nonneg (Int.natCast_nonneg n) hsize
        have htotal : ((n + 1 : ℕ) : ℤ) * size = n * size + size := by
          push_cast
          ring
        have hlast : x ∈ bucket size n ↔ n * size ≤ x ∧ x < n * size + size := by
          rw [← htotal, mem_iff, bucket]
          push_cast
          rfl
        rw [List.range_succ, List.map_append, List.map_singleton, htotal]
        simp only [List.mem_append, List.mem_singleton, or_and_right, exists_or, exists_eq_left, ih,
          hlast]
        omega

end IndexRange
