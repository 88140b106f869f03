-- SUMMARY: The curve of the backoff ceiling, and how the delays below it are spread.
import ServerlessPatterns.Library.Draws
import ServerlessPatterns.RetryBackoff.BatchContract

/-!
# The backoff curve and its jitter

The delay is a draw between zero and the ceiling, cut down to an integer. The ceiling
is the documented curve. The ceiling itself, however, is a draw that does not occur.
-/

namespace RetryBackoff

open Program Draws

variable {receiveCount base cap : Int}

/-! ## The ceiling -/

theorem backoffCeiling_nonneg : 0 ≤ backoffCeiling receiveCount base cap := le_max_left 0 _

theorem backoffCeiling_pos :
    0 < backoffCeiling receiveCount base cap ↔ 0 < base ∧ 0 < cap := by
  have hpow : (0 : Int) < 2 ^ (max 1 receiveCount - 1).toNat := by positivity
  have hproduct : 0 < base * 2 ^ (max 1 receiveCount - 1).toNat ↔ 0 < base :=
    mul_pos_iff_of_pos_right hpow
  rw [backoffCeiling_unguarded]
  omega

/-- One more attempt at least keeps what is doubled. -/
theorem doubled_mono {receiveCount' : Int} (hbase : 0 ≤ base) (h : receiveCount ≤ receiveCount') :
    base * 2 ^ (max 1 receiveCount - 1).toNat ≤ base * 2 ^ (max 1 receiveCount' - 1).toNat :=
  mul_le_mul_of_nonneg_left (pow_le_pow_right₀ (by decide) (by omega)) hbase

theorem backoffCeiling_mono_receiveCount {receiveCount' : Int} (hbase : 0 ≤ base)
    (h : receiveCount ≤ receiveCount') :
    backoffCeiling receiveCount base cap ≤ backoffCeiling receiveCount' base cap := by
  have hdoubled := doubled_mono hbase h
  rw [backoffCeiling_unguarded, backoffCeiling_unguarded]
  omega

theorem backoffCeiling_mono_cap {cap' : Int} (h : cap ≤ cap') :
    backoffCeiling receiveCount base cap ≤ backoffCeiling receiveCount base cap' := by
  rw [backoffCeiling_unguarded, backoffCeiling_unguarded]
  omega

theorem backoffCeiling_le_cap (hcap : 0 ≤ cap) : backoffCeiling receiveCount base cap ≤ cap := by
  rw [backoffCeiling_unguarded]
  omega

theorem backoffCeiling_le_max : backoffCeiling receiveCount base cap ≤ sqsMaxVisibilitySeconds := by
  rw [backoffCeiling_unguarded, sqsMaxVisibilitySeconds]
  omega

/-! ## The delay -/

/-- The one thing that is asked for is the draw. -/
theorem computeBackoffSeconds_calls {calls : List (Event Op Ans)} {delay : Int}
    (h : Calls (computeBackoffSeconds receiveCount base cap) calls (.returned delay)) :
    ∃ drawn, calls = [⟨.uniform 0 (backoffCeiling receiveCount base cap), drawn⟩] ∧
      delay = Python.truncate drawn := by
  rcases calls_call.mp h with ⟨_, hlost⟩ | ⟨drawn, rest, rfl, hrest⟩
  · cases hlost
  · obtain ⟨rfl, _⟩ := calls_ret.mp hrest
    exact ⟨drawn, rfl, (eq_of_calls_ret hrest).symm⟩

/-- The delay is never negative and never above the ceiling. -/
theorem delay_bounds {calls : List (Event Op Ans)} {delay : Int}
    (h : Calls (computeBackoffSeconds receiveCount base cap) calls (.returned delay))
    (hanswered : ∀ call ∈ calls, Answered call.1 call.2) :
    0 ≤ delay ∧ delay ≤ backoffCeiling receiveCount base cap := by
  obtain ⟨drawn, rfl, rfl⟩ := computeBackoffSeconds_calls h
  have hdrawn : Drawn 0 (backoffCeiling receiveCount base cap) drawn :=
    hanswered _ List.mem_cons_self
  obtain ⟨hlow, hhigh⟩ := hdrawn.truncate backoffCeiling_nonneg
  exact ⟨hlow, hhigh.trans longestDelay_le⟩

/-- The ceiling up to which `compute_backoff_seconds` draws is the plain curve, which for a
    base that is not negative only grows with the attempts and the cap. The delay is the
    draw, cut down, and stays within it. -/
theorem backoffCurve (receiveCount base cap : Int) :
    backoffCeiling receiveCount base cap =
        max 0 (min (min cap (base * 2 ^ (max 1 receiveCount - 1).toNat)) 43200) ∧
      (0 ≤ base →
        (∀ receiveCount', receiveCount ≤ receiveCount' →
          backoffCeiling receiveCount base cap ≤ backoffCeiling receiveCount' base cap) ∧
        ∀ cap', cap ≤ cap' →
          backoffCeiling receiveCount base cap ≤ backoffCeiling receiveCount base cap') ∧
      ∀ calls delay,
        Calls (computeBackoffSeconds receiveCount base cap) calls (.returned delay) →
        (∃ drawn, calls = [⟨.uniform 0 (backoffCeiling receiveCount base cap), drawn⟩] ∧
          delay = Python.truncate drawn) ∧
        ((∀ call ∈ calls, Answered call.1 call.2) →
          0 ≤ delay ∧ delay ≤ 43200 ∧ (0 ≤ cap → delay ≤ cap)) := by
  refine ⟨backoffCeiling_unguarded, ?_, ?_⟩
  · intro hbase
    exact ⟨fun _ h => backoffCeiling_mono_receiveCount hbase h, fun _ h => backoffCeiling_mono_cap h⟩
  · intro calls delay hcalls
    refine ⟨computeBackoffSeconds_calls hcalls, fun hanswered => ?_⟩
    obtain ⟨hlow, hhigh⟩ := delay_bounds hcalls hanswered
    exact ⟨hlow, hhigh.trans backoffCeiling_le_max,
      fun hcap => hhigh.trans (backoffCeiling_le_cap hcap)⟩

/-- The forty-first receipt under the default variables, with a draw from the middle. -/
theorem backoffCurve_late :
    backoffCeiling 41 5 900 ≤ backoffCeiling 42 5 900 ∧
      backoffCeiling 41 5 900 ≤ backoffCeiling 41 5 1800 ∧
      0 ≤ Python.truncate (901 / 2) ∧ Python.truncate (901 / 2) ≤ 900 := by
  obtain ⟨_, hmono, hdelay⟩ := backoffCurve 41 5 900
  have hcalls : Calls (computeBackoffSeconds 41 5 900)
      [⟨.uniform 0 (backoffCeiling 41 5 900), (901 / 2 : ℚ)⟩]
      (.returned (Python.truncate (901 / 2))) :=
    calls_call_cons.mpr (calls_ret.mpr ⟨rfl, .inl rfl⟩)
  have hanswered : ∀ call ∈ [(⟨.uniform 0 (backoffCeiling 41 5 900), (901 / 2 : ℚ)⟩ : Event Op Ans)],
      Answered call.1 call.2 := by
    intro call hmem
    rw [List.mem_singleton.mp hmem]
    have hceiling : backoffCeiling 41 5 900 = 900 := by decide
    rw [hceiling]
    exact ⟨901 / 1800, by norm_num, by norm_num⟩
  obtain ⟨hlow, _, hcap⟩ := (hdelay _ _ hcalls).2 hanswered
  exact ⟨(hmono (by decide)).1 42 (by decide), (hmono (by decide)).2 1800 (by decide), hlow,
    hcap (by decide)⟩

/-! ## The jitter -/

/-- The function returns the delay when `random.uniform` draws the point that divides
    its range in the ratio `u`. -/
def Returns (receiveCount base cap : Int) (u : ℚ) (delay : Int) : Prop :=
  Calls (computeBackoffSeconds receiveCount base cap)
    [⟨.uniform 0 (backoffCeiling receiveCount base cap),
      (backoffCeiling receiveCount base cap : ℚ) * u⟩]
    (.returned delay)

/-- Every delay up to the ceiling is possible, and all of them are equally likely. -/
def FullJitter (receiveCount base cap : Int) : Prop :=
  ∀ delay : Int, 0 ≤ delay → delay ≤ backoffCeiling receiveCount base cap →
    IsInterval (fun u : ℚ => (0 ≤ u ∧ u < 1) ∧ Returns receiveCount base cap u delay)
      (1 / (backoffCeiling receiveCount base cap + 1))

theorem returns_iff {u : ℚ} {delay : Int} (hu : 0 ≤ u) :
    Returns receiveCount base cap u delay ↔
      ⌊(backoffCeiling receiveCount base cap : ℚ) * u⌋ = delay := by
  have hceiling : (0 : ℚ) ≤ backoffCeiling receiveCount base cap := by
    exact_mod_cast backoffCeiling_nonneg
  have htruncate : Python.truncate ((backoffCeiling receiveCount base cap : ℚ) * u) =
      ⌊(backoffCeiling receiveCount base cap : ℚ) * u⌋ := if_pos (mul_nonneg hceiling hu)
  rw [← htruncate]
  constructor
  · intro h
    obtain ⟨drawn, hcalls, hdelay⟩ := computeBackoffSeconds_calls h
    cases hcalls
    exact hdelay.symm
  · rintro rfl
    exact calls_call_cons.mpr (calls_ret.mpr ⟨rfl, .inl rfl⟩)

/-- How the delays are spread: those below the ceiling share the draws among them. -/
theorem isInterval_returns {delay : Int} (hlow : 0 ≤ delay)
    (hhigh : delay < backoffCeiling receiveCount base cap) :
    IsInterval (fun u : ℚ => (0 ≤ u ∧ u < 1) ∧ Returns receiveCount base cap u delay)
      (1 / backoffCeiling receiveCount base cap) := by
  apply (isInterval_floor_mul hlow hhigh).congr
  intro u
  apply and_congr_right
  intro hu
  exact returns_iff hu.1

/-- A ceiling that is not zero is never returned. -/
theorem not_returns_ceiling {u : ℚ} (hpos : 0 < backoffCeiling receiveCount base cap)
    (hu : 0 ≤ u ∧ u < 1) :
    ¬ Returns receiveCount base cap u (backoffCeiling receiveCount base cap) := by
  rw [returns_iff hu.1]
  exact (floor_mul_lt hpos hu.2).ne

/-- The jitter is full only where there is nothing to wait for. -/
theorem fullJitter_iff (receiveCount base cap : Int) :
    FullJitter receiveCount base cap ↔ base ≤ 0 ∨ cap ≤ 0 := by
  have hceiling : 0 ≤ backoffCeiling receiveCount base cap := backoffCeiling_nonneg
  constructor
  · intro h
    by_contra hpositive
    have hpos : 0 < backoffCeiling receiveCount base cap := backoffCeiling_pos.mpr (by omega)
    have hlength : (0 : ℚ) < 1 / (backoffCeiling receiveCount base cap + 1) := by
      have hcast : (0 : ℚ) < backoffCeiling receiveCount base cap := by exact_mod_cast hpos
      positivity
    obtain ⟨u, hu, hreturns⟩ := (h _ hceiling le_rfl).exists_of_pos hlength
    exact not_returns_ceiling hpos hu hreturns
  · intro h delay hlow hhigh
    have hzero : backoffCeiling receiveCount base cap = 0 := by
      have hnonpos : ¬ 0 < backoffCeiling receiveCount base cap := by
        rw [backoffCeiling_pos]
        omega
      omega
    obtain rfl : delay = 0 := by omega
    have hlength : (1 : ℚ) / (backoffCeiling receiveCount base cap + 1) = 1 - 0 := by
      rw [hzero]
      norm_num
    rw [hlength]
    apply (isInterval_halfOpen zero_le_one).congr
    intro u
    constructor
    · exact fun hu => hu.1
    · intro hu
      refine ⟨hu, (returns_iff hu.1).mpr ?_⟩
      rw [hzero, Int.cast_zero, zero_mul, Int.floor_zero]

/-- With a base of one second, the first retry is never delayed. -/
theorem fullJitter_counterexample : ¬ FullJitter 1 1 900 := by
  intro h
  have hlength : (0 : ℚ) < 1 / (backoffCeiling 1 1 900 + 1) := by
    rw [show backoffCeiling 1 1 900 = 1 by decide]
    norm_num
  obtain ⟨u, hu, hreturns⟩ := (h 1 (by decide) (by decide)).exists_of_pos hlength
  exact not_returns_ceiling (by decide) hu hreturns

end RetryBackoff
