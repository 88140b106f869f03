-- SUMMARY: Transition systems: invariants of reachable states, maximal runs and their termination, and simulations.
import Mathlib.Logic.Function.Iterate
import Mathlib.Logic.Relation
import Mathlib.Tactic.ByContra

/-!
# Transition systems

A system is a step relation. `Relation.ReflTransGen` gives its reachable states.
A maximal run goes on as long as it can and then stays where it is, so a
property of "every run to its end" is a property of every maximal run.
-/

namespace Transition

open Relation

variable {α β : Type} {step : α → α → Prop}

/-- What holds at the start and is kept by every step holds of all reachable
    states. -/
theorem invariant {P : α → Prop} {init a : α} (hreach : ReflTransGen step init a)
    (hinit : P init) (hstep : ∀ a b, P a → step a b → P b) : P a := by
  induction hreach with
  | refl => exact hinit
  | tail _ hab ih => exact hstep _ _ ih hab

/-- A step that can be repeated no more than so many times leads to the last state sooner or
    later. -/
theorem reaches_of_countdown (state : Nat → α) {last : α}
    (h : ∀ n, (0 < n ∧ step (state n) (state (n - 1))) ∨ step (state n) last) (n : Nat) :
    ReflTransGen step (state n) last := by
  induction n with
  | zero =>
      rcases h 0 with ⟨hpos, _⟩ | hlast
      · exact absurd hpos (Nat.lt_irrefl 0)
      · exact .single hlast
  | succ n ih =>
      rcases h (n + 1) with ⟨_, hagain⟩ | hlast
      · exact ih.head hagain
      · exact .single hlast

def Stuck (step : α → α → Prop) (a : α) : Prop := ∀ b, ¬ step a b

/-- A run that only stops where no step is possible. -/
structure MaximalRun (step : α → α → Prop) (init : α) where
  state : Nat → α
  start : state 0 = init
  next : ∀ n, step (state n) (state (n + 1)) ∨ (Stuck step (state n) ∧ state (n + 1) = state n)

namespace MaximalRun

variable {init : α}

theorem reachable (run : MaximalRun step init) (n : Nat) :
    ReflTransGen step init (run.state n) := by
  induction n with
  | zero => rw [run.start]
  | succ n ih =>
      rcases run.next n with h | ⟨_, h⟩
      · exact ih.tail h
      · rw [h]; exact ih

/-- A run whose steps lower a measure comes to a stop. The steps only have to
    lower it in the states that the run can reach. -/
theorem halts (run : MaximalRun step init) (measure : α → Nat)
    (hmeasure : ∀ a b, ReflTransGen step init a → step a b → measure b < measure a) :
    ∃ n, Stuck step (run.state n) := by
  by_contra hhalt
  have hnever : ∀ n, ¬ Stuck step (run.state n) := not_exists.mp hhalt
  have hstep : ∀ n, step (run.state n) (run.state (n + 1)) := by
    intro n
    rcases run.next n with h | ⟨hstuck, _⟩
    · exact h
    · exact absurd hstuck (hnever n)
  have hbound : ∀ n, measure (run.state n) + n ≤ measure (run.state 0) := by
    intro n
    induction n with
    | zero => simp
    | succ n ih =>
        have hlt := hmeasure _ _ (run.reachable n) (hstep n)
        omega
  have := hbound (measure (run.state 0) + 1)
  omega

/-- A run that lowers a measure with every step it takes stops before the measure is used up. -/
theorem halts_along (run : MaximalRun step init) (measure : α → Nat)
    (hmeasure : ∀ n, step (run.state n) (run.state (n + 1)) →
      measure (run.state (n + 1)) < measure (run.state n)) :
    ∃ n ≤ measure init, Stuck step (run.state n) := by
  by_contra hhalt
  have hnever : ∀ n ≤ measure init, ¬ Stuck step (run.state n) := fun n hle hstuck =>
    hhalt ⟨n, hle, hstuck⟩
  have hbound : ∀ n ≤ measure init + 1, measure (run.state n) + n ≤ measure init := by
    intro n
    induction n with
    | zero =>
        intro _
        simp only [run.start, Nat.add_zero, Nat.le_refl]
    | succ n ih =>
        intro hle
        rcases run.next n with hstep | ⟨hstuck, _⟩
        · have hlt := hmeasure n hstep
          have := ih (by omega)
          omega
        · exact absurd hstuck (hnever n (by omega))
  have := hbound (measure init + 1) (Nat.le_refl _)
  omega

theorem step_of_ne (run : MaximalRun step init) {n : Nat} (h : run.state (n + 1) ≠ run.state n) :
    step (run.state n) (run.state (n + 1)) :=
  (run.next n).resolve_right fun hstuck => h hstuck.2

/-- A run stays where it has stopped. -/
theorem stays (run : MaximalRun step init) {n : Nat} (h : Stuck step (run.state n)) {m : Nat} (hm : n ≤ m) :
    run.state m = run.state n := by
  induction hm with
  | refl => rfl
  | @step m _ ih =>
      rcases run.next m with hstep | ⟨_, heq⟩
      · rw [ih] at hstep
        exact absurd hstep (h _)
      · rw [heq, ih]

/-- A run stops in one state only. -/
theorem stuck_unique (run : MaximalRun step init) {n m : Nat} (h : Stuck step (run.state n))
    (h' : Stuck step (run.state m)) : run.state n = run.state m := by
  rcases Nat.le_total n m with hle | hle
  · exact (run.stays h hle).symm
  · exact run.stays h' hle

/-- A run can be made from any state by going on for as long as that is possible. -/
theorem nonempty (step : α → α → Prop) (init : α) : Nonempty (MaximalRun step init) := by
  classical
  let go (a : α) : α := if h : ∃ b, step a b then h.choose else a
  refine ⟨⟨fun n => go^[n] init, rfl, fun n => ?_⟩⟩
  rw [Function.iterate_succ_apply']
  generalize go^[n] init = a
  by_cases h : ∃ b, step a b
  · left
    have hgo : go a = h.choose := dif_pos h
    rw [hgo]
    exact h.choose_spec
  · exact .inr ⟨not_exists.mp h, dif_neg h⟩

/-- A run with a step before it. -/
def cons {init' : α} (h : step init init') (run : MaximalRun step init') : MaximalRun step init where
  state
    | 0 => init
    | n + 1 => run.state n
  start := rfl
  next
    | 0 => .inl (run.start.symm ▸ h : step init (run.state 0))
    | n + 1 => run.next n

/-- Whatever can be reached is reached by some run. -/
theorem exists_through {a : α} (h : ReflTransGen step init a) :
    ∃ (run : MaximalRun step init) (n : Nat), run.state n = a := by
  induction h using ReflTransGen.head_induction_on with
  | refl =>
      obtain ⟨run⟩ := nonempty step a
      exact ⟨run, 0, run.start⟩
  | head hstep _ ih =>
      obtain ⟨run, n, hn⟩ := ih
      exact ⟨run.cons hstep, n + 1, hn⟩

end MaximalRun

/-- Every concrete step is matched by abstract steps between related states. -/
def Simulates (step : α → α → Prop) (step' : β → β → Prop) (related : α → β → Prop) : Prop :=
  ∀ a a' b, related a b → step a a' → ∃ b', ReflTransGen step' b b' ∧ related a' b'

/-- Along a simulation every reachable concrete state has a reachable abstract
    counterpart. -/
theorem Simulates.reachable {step' : β → β → Prop} {related : α → β → Prop}
    (hsim : Simulates step step' related) {init a : α} {init' : β}
    (hinit : related init init') (hreach : ReflTransGen step init a) :
    ∃ b, ReflTransGen step' init' b ∧ related a b := by
  induction hreach with
  | refl => exact ⟨init', .refl, hinit⟩
  | tail _ hstep ih =>
      obtain ⟨b, hb, hrel⟩ := ih
      obtain ⟨b', hb', hrel'⟩ := hsim _ _ _ hrel hstep
      exact ⟨b', hb.trans hb', hrel'⟩

end Transition
