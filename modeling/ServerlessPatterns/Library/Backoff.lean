-- SUMMARY: Capped exponential backoff: when the cap is reached, and what the delays of the first attempts add up to.
import Mathlib.Algebra.BigOperators.Intervals
import Mathlib.Algebra.Order.Floor.Div
import Mathlib.Data.Nat.Log

/-!
# Capped exponential backoff

The delays double from a base up to a cap and then stay there, so that their sum has a
closed form in the number of doublings.
-/

namespace Backoff

variable {base cap : ℕ}

/-- The delay after `k` earlier ones. -/
def delay (base cap k : ℕ) : ℕ := min cap (base * 2 ^ k)

/-- The first `n` delays together. -/
def total (base cap n : ℕ) : ℕ := ∑ k ∈ Finset.range n, delay base cap k

/-- How often the base is doubled before it reaches the cap. -/
def doublings (base cap : ℕ) : ℕ := Nat.clog 2 (cap ⌈/⌉ base)

theorem lt_doublings (hbase : 0 < base) {k : ℕ} : k < doublings base cap ↔ base * 2 ^ k < cap := by
  rw [doublings, Nat.lt_clog_iff_pow_lt (by decide), ← not_le, ceilDiv_le_iff_le_smul hbase,
    smul_eq_mul, not_le]

/-- Before the cap is reached the delays are powers of two, and from then on they are
    the cap. -/
theorem total_eq (hbase : 0 < base) {n : ℕ} :
    total base cap n = base * (2 ^ min n (doublings base cap) - 1) +
      (n - min n (doublings base cap)) * cap := by
  induction n with
  | zero => simp [total]
  | succ n ih =>
      have hstep : total base cap (n + 1) = total base cap n + delay base cap n :=
        Finset.sum_range_succ ..
      rw [hstep, ih]
      by_cases hlt : n < doublings base cap
      · have hdelay : delay base cap n = base * 2 ^ n :=
          min_eq_right ((lt_doublings hbase).mp hlt).le
        have hpos : 1 ≤ 2 ^ n := Nat.one_le_two_pow
        rw [hdelay, min_eq_left hlt.le, min_eq_left hlt, Nat.sub_self, Nat.sub_self, Nat.zero_mul,
          add_zero, add_zero, ← Nat.mul_add, pow_succ]
        congr 1
        omega
      · have hle : doublings base cap ≤ n := Nat.le_of_not_lt hlt
        have hdelay : delay base cap n = cap :=
          min_eq_left (Nat.le_of_not_lt fun h => hlt ((lt_doublings hbase).mpr h))
        rw [hdelay, min_eq_right hle, min_eq_right (hle.trans n.le_succ), Nat.succ_sub hle,
          Nat.succ_mul, add_assoc]

end Backoff
