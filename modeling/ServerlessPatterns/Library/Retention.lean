-- SUMMARY: A message that fails on every delivery, in a queue that drops what gets too old and moves away what was received too often.
import Mathlib.Algebra.BigOperators.Intervals
import Mathlib.Data.Rat.Defs
import Mathlib.Tactic.Linarith
import ServerlessPatterns.Library.Transition

/-!
# Retention

After each delivery the message is hidden for some time, and when it comes back it is
received once more. A message past the retention period is dropped. One that was
received as often as allowed is moved to the dead-letter queue instead. The longest
delays decide which of the two comes first.
-/

namespace Retention

open Relation

structure Policy where
  retention : ℚ
  maxReceiveCount : Nat

/-- Where the message is. A waiting one was received this often, and has this age when
    it can be received again. -/
inductive Message where
  | waiting (received : Nat) (age : ℚ)
  | deadLettered
  | expired

/-- `delays n d`: after its `n`-th receipt the message may be hidden for `d`. -/
inductive Step (policy : Policy) (delays : Nat → ℚ → Prop) : Message → Message → Prop where
  | receive {n age d} (hage : age ≤ policy.retention) (hn : n < policy.maxReceiveCount)
      (hdelay : delays (n + 1) d) : Step policy delays (.waiting n age) (.waiting (n + 1) (age + d))
  | redrive {n age} (hage : age ≤ policy.retention) (hn : policy.maxReceiveCount ≤ n) :
      Step policy delays (.waiting n age) .deadLettered
  | expire {n age} (hage : policy.retention < age) : Step policy delays (.waiting n age) .expired

/-- A message just sent. -/
def sent : Message := .waiting 0 0

/-- In the end the message is in the dead-letter queue, and it never expires. -/
def AlwaysDeadLettered (policy : Policy) (delays : Nat → ℚ → Prop) : Prop :=
  ∀ run : Transition.MaximalRun (Step policy delays) sent,
    (∃ i, run.state i = .deadLettered) ∧ ∀ i, run.state i ≠ .expired

/-- The longest delays that are possible. -/
structure Longest (delays : Nat → ℚ → Prop) (longest : Nat → ℚ) : Prop where
  nonneg : ∀ n, 0 ≤ longest n
  bounds : ∀ n d, delays n d → d ≤ longest n
  attained : ∀ n, delays n (longest n)

variable {policy : Policy} {delays : Nat → ℚ → Prop} {longest : Nat → ℚ}

/-- The greatest age at the receipt after the first `n`. -/
def oldest (longest : Nat → ℚ) (n : Nat) : ℚ := ∑ k ∈ Finset.range n, longest (k + 1)

theorem oldest_succ {n : Nat} : oldest longest (n + 1) = oldest longest n + longest (n + 1) :=
  Finset.sum_range_succ ..

theorem oldest_mono (h : Longest delays longest) {m n : Nat} (hle : m ≤ n) :
    oldest longest m ≤ oldest longest n := by
  induction n, hle using Nat.le_induction with
  | base => exact le_refl _
  | succ n _ ih =>
      rw [oldest_succ]
      linarith [h.nonneg (n + 1)]

/-! ## Short delays -/

/-- How far a message can be as long as the delays are within their bounds. -/
def InTime (policy : Policy) (longest : Nat → ℚ) : Message → Prop
  | .waiting n age => n ≤ policy.maxReceiveCount ∧ age ≤ oldest longest n
  | .deadLettered => True
  | .expired => False

theorem inTime_step (h : Longest delays longest)
    (hfits : oldest longest policy.maxReceiveCount ≤ policy.retention) {a b : Message}
    (ha : InTime policy longest a) (hstep : Step policy delays a b) : InTime policy longest b := by
  cases hstep with
  | @receive n age d hage hn hdelay =>
      obtain ⟨hle, hold⟩ := ha
      refine ⟨hn, ?_⟩
      rw [oldest_succ]
      linarith [h.bounds _ _ hdelay]
  | redrive => trivial
  | @expire n age hage =>
      obtain ⟨hle, hold⟩ := ha
      have hlate := oldest_mono h hle
      exact absurd hage (by linarith)

/-- The receipts that are left, and the last move. -/
def left (policy : Policy) : Message → Nat
  | .waiting n _ => policy.maxReceiveCount + 1 - n
  | _ => 0

theorem left_step {a b : Message} (ha : InTime policy longest a) (hstep : Step policy delays a b) :
    left policy b < left policy a := by
  cases hstep with
  | receive hage hn hdelay =>
      simp only [left]
      omega
  | redrive hage hn =>
      have hle := ha.1
      simp only [left]
      omega
  | expire hage =>
      have hle := ha.1
      simp only [left]
      omega

theorem eq_deadLettered_of_stuck (h : Longest delays longest) {a : Message}
    (ha : InTime policy longest a) (hstuck : Transition.Stuck (Step policy delays) a) :
    a = .deadLettered := by
  cases a with
  | waiting n age =>
      exfalso
      by_cases hage : age ≤ policy.retention
      · by_cases hn : n < policy.maxReceiveCount
        · exact hstuck _ (.receive hage hn (h.attained (n + 1)))
        · exact hstuck _ (.redrive hage (Nat.le_of_not_lt hn))
      · exact hstuck _ (.expire (lt_of_not_ge hage))
  | deadLettered => rfl
  | expired => exact ha.elim

theorem alwaysDeadLettered (h : Longest delays longest)
    (hfits : oldest longest policy.maxReceiveCount ≤ policy.retention) :
    AlwaysDeadLettered policy delays := by
  intro run
  have hinTime : ∀ a, ReflTransGen (Step policy delays) sent a → InTime policy longest a := by
    intro a hreach
    refine Transition.invariant hreach ⟨Nat.zero_le _, ?_⟩ fun a b ha => inTime_step h hfits ha
    simp [oldest]
  constructor
  · obtain ⟨i, hstuck⟩ := run.halts (left policy) fun a b hreach => left_step (hinTime a hreach)
    exact ⟨i, eq_deadLettered_of_stuck h (hinTime _ (run.reachable i)) hstuck⟩
  · intro i hexpired
    have ha := hinTime _ (run.reachable i)
    rw [hexpired] at ha
    exact ha

/-! ## Long delays -/

/-- The message with the longest delays: it expires at the first receipt that comes
    too late. -/
def slow (longest : Nat → ℚ) (late i : Nat) : Message :=
  if i ≤ late then .waiting i (oldest longest i) else .expired

/-- The longest delays make a run in which the message expires. -/
def slowRun (h : Longest delays longest) {late : Nat} (hle : late ≤ policy.maxReceiveCount)
    (hlate : policy.retention < oldest longest late)
    (hbefore : ∀ i < late, oldest longest i ≤ policy.retention) :
    Transition.MaximalRun (Step policy delays) sent where
  state := slow longest late
  start := by simp [slow, sent, oldest]
  next i := by
    rcases Nat.lt_trichotomy i late with hlt | rfl | hgt
    · left
      have hnow : slow longest late i = .waiting i (oldest longest i) := if_pos hlt.le
      have hnext : slow longest late (i + 1) = .waiting (i + 1) (oldest longest (i + 1)) :=
        if_pos hlt
      rw [hnow, hnext, oldest_succ]
      exact .receive (hbefore i hlt) (by omega) (h.attained (i + 1))
    · left
      have hnow : slow longest i i = .waiting i (oldest longest i) := if_pos (le_refl i)
      have hnext : slow longest i (i + 1) = .expired := if_neg (by omega)
      rw [hnow, hnext]
      exact .expire hlate
    · right
      have hnow : slow longest late i = .expired := if_neg (by omega)
      have hnext : slow longest late (i + 1) = .expired := if_neg (by omega)
      rw [hnow, hnext]
      exact ⟨by rintro b ⟨⟩, rfl⟩

/-- The message always ends in the dead-letter queue if and only if the longest delays
    together are within the retention period. -/
theorem alwaysDeadLettered_iff (h : Longest delays longest) :
    AlwaysDeadLettered policy delays ↔
      oldest longest policy.maxReceiveCount ≤ policy.retention := by
  constructor
  · intro halways
    by_contra hlong
    have hexists : ∃ late, policy.retention < oldest longest late :=
      ⟨_, lt_of_not_ge hlong⟩
    have hle : Nat.find hexists ≤ policy.maxReceiveCount := Nat.find_min' hexists (lt_of_not_ge hlong)
    have hbefore : ∀ i < Nat.find hexists, oldest longest i ≤ policy.retention :=
      fun i hi => le_of_not_gt (Nat.find_min hexists hi)
    apply (halways (slowRun h hle (Nat.find_spec hexists) hbefore)).2 (Nat.find hexists + 1)
    exact if_neg (by omega)
  · exact alwaysDeadLettered h

end Retention
