-- SUMMARY: Points of the unit interval that a draw is made of, and how much of it a result takes up.
import Mathlib.Algebra.Order.Floor.Ring
import Mathlib.Tactic.Linarith

/-!
# Draws

A draw is a point of `[0, 1)`. What is computed from it is uniform when every result
takes up an interval of the same length.
-/

namespace Draws

variable {K : Type*} [Field K] [LinearOrder K] {points : K → Prop}

/-- The points make up an interval of the given length. Its ends may belong to it or
    not. -/
def IsInterval (points : K → Prop) (length : K) : Prop :=
  ∃ low high, low ≤ high ∧ high - low = length ∧ (∀ u, low < u → u < high → points u) ∧
    ∀ u, points u → low ≤ u ∧ u ≤ high

theorem isInterval_halfOpen {low high : K} (h : low ≤ high) :
    IsInterval (fun u => low ≤ u ∧ u < high) (high - low) :=
  ⟨low, high, h, rfl, fun _ hlow hhigh => ⟨hlow.le, hhigh⟩, fun _ hu => ⟨hu.1, hu.2.le⟩⟩

theorem IsInterval.congr {points' : K → Prop} {length : K} (h : IsInterval points length)
    (hiff : ∀ u, points' u ↔ points u) : IsInterval points' length := by
  rwa [show points' = points from funext fun u => propext (hiff u)]

variable [IsStrictOrderedRing K]

/-- Only a point or nothing at all has no length. -/
theorem IsInterval.exists_of_pos {length : K} (h : IsInterval points length) (hpos : 0 < length) :
    ∃ u, points u := by
  obtain ⟨low, high, _, hlength, hinner, _⟩ := h
  have hlt : low < high := sub_pos.mp (hlength ▸ hpos)
  exact ⟨(low + high) / 2, hinner _ (by linarith) (by linarith)⟩

variable [FloorRing K]

/-- The draws that are scaled to `n` and rounded down to `d`. -/
theorem floor_mul_eq_iff {n d : ℤ} (hn : 0 < n) {u : K} :
    ⌊(n : K) * u⌋ = d ↔ (d : K) / n ≤ u ∧ u < (d + 1 : K) / n := by
  have hpos : (0 : K) < n := Int.cast_pos.mpr hn
  rw [Int.floor_eq_iff, div_le_iff₀ hpos, lt_div_iff₀ hpos, mul_comm u]

/-- The upper end itself is never reached. -/
theorem floor_mul_lt {n : ℤ} (hn : 0 < n) {u : K} (hu : u < 1) : ⌊(n : K) * u⌋ < n := by
  have hpos : (0 : K) < n := Int.cast_pos.mpr hn
  rw [Int.floor_lt]
  exact mul_lt_of_lt_one_right hpos hu

/-- Each of the integers below the upper end takes up the same part of the draws. -/
theorem isInterval_floor_mul {n d : ℤ} (hlow : 0 ≤ d) (hhigh : d < n) :
    IsInterval (fun u : K => (0 ≤ u ∧ u < 1) ∧ ⌊(n : K) * u⌋ = d) (1 / n) := by
  have hn : 0 < n := hlow.trans_lt hhigh
  have hpos : (0 : K) < n := Int.cast_pos.mpr hn
  have hlength : (d + 1 : K) / n - d / n = 1 / n := by
    rw [← sub_div, add_sub_cancel_left]
  have hstart : (0 : K) ≤ d / n := div_nonneg (Int.cast_nonneg hlow) hpos.le
  have hend : (d + 1 : K) / n ≤ 1 := by
    rw [div_le_one hpos]
    exact_mod_cast hhigh
  have hordered : (d : K) / n ≤ (d + 1 : K) / n :=
    div_le_div_of_nonneg_right (le_add_of_nonneg_right zero_le_one) hpos.le
  rw [← hlength]
  apply (isInterval_halfOpen hordered).congr
  intro u
  rw [floor_mul_eq_iff hn]
  constructor
  · exact fun hu => hu.2
  · exact fun hu => ⟨⟨hstart.trans hu.1, hu.2.trans_le hend⟩, hu⟩

end Draws
