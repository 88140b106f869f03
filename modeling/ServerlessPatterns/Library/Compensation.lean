-- SUMMARY: Long transactions made of steps with compensations, in the abstract: what may happen, and that a rollback is exact.
import ServerlessPatterns.Library.Transition

/-!
# Compensated transactions

A plan performs its steps in order. When one of them fails for good, the
compensations of those that were done run in reverse order. Some steps have no
compensation. Nothing is said here about retries, records or messages: this is
what a saga is for, and what an implementation is compared with.
-/

namespace Compensation

open Relation

structure Plan (σ τ : Type) where
  steps : List σ
  undo : σ → Option τ

/-- Where a transaction stands. `done` has the latest step first. -/
inductive Phase (σ τ : Type) where
  | forward (done todo : List σ)
  | compensating (done : List σ) (failed : σ) (undone todo : List τ)
  | completed
  | rolledBack (done : List σ) (failed : σ) (undone : List τ)
  /-- It was given up: neither completed nor rolled back. -/
  | abandoned

variable {σ τ : Type} (plan : Plan σ τ)

def Plan.start : Phase σ τ := .forward [] plan.steps

inductive Step : Phase σ τ → Phase σ τ → Prop where
  | perform {done s todo} : Step (.forward done (s :: todo)) (.forward (s :: done) todo)
  | fail {done s todo} :
      Step (.forward done (s :: todo)) (.compensating done s [] (done.filterMap plan.undo))
  | complete {done} : Step (.forward done []) .completed
  | compensate {done failed undone u todo} :
      Step (.compensating done failed undone (u :: todo))
        (.compensating done failed (undone ++ [u]) todo)
  | finish {done failed undone} :
      Step (.compensating done failed undone []) (.rolledBack done failed undone)
  | abandonForward {done} : Step (.forward done []) .abandoned
  | abandonCompensating {done failed undone todo} :
      Step (.compensating done failed undone todo) .abandoned

/-- The steps are taken in order, and those done before `failed` are the ones
    whose compensations are run, or have been. -/
def Plan.Sound : Phase σ τ → Prop
  | .forward done todo => done.reverse ++ todo = plan.steps
  | .compensating done failed undone todo =>
    (∃ after : List σ, done.reverse ++ failed :: after = plan.steps) ∧
      undone ++ todo = done.filterMap plan.undo
  | .rolledBack done failed undone =>
    (∃ after : List σ, done.reverse ++ failed :: after = plan.steps) ∧
      undone = done.filterMap plan.undo
  | .completed | .abandoned => True

variable {plan}

theorem sound_start : plan.Sound plan.start := rfl

theorem sound_step {p p' : Phase σ τ} (h : plan.Sound p) (hstep : Step plan p p') :
    plan.Sound p' := by
  cases hstep with
  | @perform done s todo =>
      calc (s :: done).reverse ++ todo
        _ = done.reverse ++ s :: todo := by simp
        _ = plan.steps := h
  | @fail done s todo => exact ⟨⟨todo, h⟩, rfl⟩
  | complete => trivial
  | compensate =>
      obtain ⟨hsteps, hundone⟩ := h
      exact ⟨hsteps, by rw [← hundone, List.append_assoc]; rfl⟩
  | finish =>
      obtain ⟨hsteps, hundone⟩ := h
      exact ⟨hsteps, by rw [← hundone, List.append_nil]⟩
  | abandonForward => trivial
  | abandonCompensating => trivial

theorem sound_steps {p p' : Phase σ τ} (h : plan.Sound p)
    (hsteps : ReflTransGen (Step plan) p p') : plan.Sound p' :=
  Transition.invariant hsteps h fun _ _ => sound_step

end Compensation
