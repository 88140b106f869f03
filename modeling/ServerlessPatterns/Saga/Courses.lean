-- SUMMARY: What an attempt in each state asks for, in which order, and which writes it has made when it returns.
import ServerlessPatterns.Saga.Overrides
import ServerlessPatterns.Saga.Wiring

/-!
# Courses of attempts

The contract of every handler in one form: the operations that are used in its state,
none of which overrides what the attempt itself means to leave, and the write that it
has made when it returns.
-/

namespace OrderSaga

open Asl Program

/-- The operations that an attempt uses in a state, for an order. -/
inductive Uses (id : Json) : StateName → Op → Prop where
  | starts {customerId amount currency ttlSeconds} :
      Uses id .createOrder (.start id customerId amount currency ttlSeconds)
  | counts {s step} : Uses id s (.incrementAttempt id step)
  | draws {s idPrefix} : Uses id s (.newId idPrefix)
  | records (stage : Stage) {detail} : Uses id stage.state (.recordStep id stage.name stepDone detail)
  | compensating (u : Undo) : Uses id u.state (.setStatus id statusCompensating)
  | undoes (u : Undo) {stepStatus detail} : Uses id u.state (.recordStep id u.name stepStatus detail)
  | completes : Uses id .completeSaga (.setStatus id statusCompleted)
  | fails : Uses id .markFailed (.setStatus id statusFailed)

/-- The writes that a state leaves for good: the entries of the stages, and the status at
    either end. -/
def Lasting : StateName → Op → Prop
  | s, .recordStep .. => ∃ stage : Stage, s = stage.state
  | s, .setStatus .. => s = .completeSaga ∨ s = .markFailed
  | _, _ => False

/-- What an attempt may ask for after what it has done. -/
def MayAsk (id : Json) (s : StateName) (history : List (Event Op Ans)) (op : Op) : Prop :=
  Uses id s op ∧ ∀ event ∈ history, Lasting s event.1 → op.overrides event.1 = false

/-- What an attempt has written when it returns. -/
def Leaves (id : Json) : StateName → List (Event Op Ans) → Json → Prop
  | .completeSaga, calls, _ => ⟨.setStatus id statusCompleted, .ok ()⟩ ∈ calls
  | .markFailed, calls, _ => ⟨.setStatus id statusFailed, .ok ()⟩ ∈ calls
  | s, calls, result => ∀ stage : Stage, s = stage.state → ∃ detail,
      stage.SameWork detail result ∧ ⟨.recordStep id stage.name stepDone detail, .ok ()⟩ ∈ calls

/-- The rest of an attempt, after what it has done. -/
abbrev Course (id : Json) (s : StateName) : List (Event Op Ans) → Handler Json → Prop :=
  Follows (MayAsk id s) Answers (Leaves id s)

variable {py : Python} {id event : Json} {s : StateName}

theorem leaves_stage {stage : Stage} {calls : List (Event Op Ans)} {result : Json} :
    Leaves id stage.state calls result ↔ ∃ detail, stage.SameWork detail result ∧
      ⟨.recordStep id stage.name stepDone detail, .ok ()⟩ ∈ calls := by
  have hleaves : Leaves id stage.state calls result ↔ ∀ other : Stage, stage.state = other.state →
      ∃ detail, other.SameWork detail result ∧
        ⟨.recordStep id other.name stepDone detail, .ok ()⟩ ∈ calls := by
    cases stage <;> rfl
  rw [hleaves]
  constructor
  · exact fun h => h stage rfl
  · intro h other heq
    obtain rfl := Stage.state_injective heq
    exact h

theorem leaves_undo {u : Undo} {calls : List (Event Op Ans)} {result : Json} :
    Leaves id u.state calls result := by
  have hother : ∀ stage : Stage, u.state = stage.state → ∃ detail, stage.SameWork detail result ∧
      ⟨.recordStep id stage.name stepDone detail, .ok ()⟩ ∈ calls :=
    fun stage heq => absurd heq.symm stage_state_ne_undo
  cases u <;> exact hother

theorem not_lasting_undo {u : Undo} {op : Op} : ¬ Lasting u.state op := by
  cases op with
  | recordStep id step stepStatus detail =>
      rintro ⟨stage, heq⟩
      exact stage_state_ne_undo heq.symm
  | setStatus id newStatus =>
      intro h
      cases h with
      | inl heq => exact undo_state_ne_completeSaga heq
      | inr heq => exact undo_state_ne_markFailed heq
  | _ => exact id

/-! ## Handlers -/

theorem Stage.Asks.uses {stage : Stage} {op : Op} (h : stage.Asks id op) : Uses id stage.state op := by
  cases op with
  | start id' customerId amount currency ttlSeconds =>
      obtain ⟨rfl, rfl⟩ := h
      exact .starts
  | incrementAttempt id' step =>
      obtain rfl := h
      exact .counts
  | newId idPrefix => exact .draws
  | recordStep id' step stepStatus detail => exact h.elim
  | setStatus id' newStatus => exact h.elim

theorem Stage.Asks.not_lasting {stage : Stage} {op : Op} (h : stage.Asks id op) (s : StateName) :
    ¬ Lasting s op := by
  cases op with
  | recordStep id' step stepStatus detail => exact h.elim
  | setStatus id' newStatus => exact h.elim
  | _ => exact fun hlasting => hlasting

/-- A stage records its work last, so nothing of its own comes over it. -/
theorem stage_course (stage : Stage) : Course (idOf event) stage.state [] (stage.handler py event) := by
  have hnone : ∀ {history : List (Event Op Ans)} {op : Op},
      (∀ event' ∈ history, stage.Asks (idOf event) event'.1) → ∀ event' ∈ history,
        Lasting stage.state event'.1 → op.overrides event'.1 = false :=
    fun hhistory event' hmem hlasting => absurd hlasting ((hhistory event' hmem).not_lasting _)
  refine (forward_sameWork py stage event).follows ?_ ?_ ?_ (by simp)
  · exact fun history op hhistory hasks => ⟨hasks.uses, hnone hhistory⟩
  · intro history op hhistory hends
    refine ⟨?_, hnone hhistory⟩
    have hop : ∃ detail, op = .recordStep (idOf event) stage.name stepDone detail := by
      cases op with
      | recordStep id step stepStatus detail =>
          rcases hends (.ok ()) with ⟨_, _, heq⟩ | ⟨_, performed, _, _, heq⟩
          · cases heq
          · exact ⟨performed.detail, congrArg Sigma.fst heq⟩
      | newId idPrefix =>
          rcases hends "" with ⟨_, _, heq⟩ | ⟨_, _, _, _, heq⟩
          · cases heq
          · cases heq
      | incrementAttempt id step =>
          rcases hends (.ok 0) with ⟨_, _, heq⟩ | ⟨_, _, _, _, heq⟩
          · cases heq
          · cases heq
      | _ =>
          rcases hends (.ok ()) with ⟨_, _, heq⟩ | ⟨_, _, _, _, heq⟩
          · cases heq
          · cases heq
    obtain ⟨detail, rfl⟩ := hop
    exact .records stage
  · rintro history event' result ⟨performed, hsame, rfl, rfl⟩
    exact leaves_stage.mpr ⟨performed.detail, hsame, by simp⟩

theorem compensate_uses {u : Undo} {resultKey idKey newStatus : String} :
    (compensate u.name resultKey idKey newStatus event).Meets (Uses (idOf event) u.state) Answers
      (fun _ => True) fun _ => True := by
  unfold compensate
  refine (meets_ofExcept (fun _ h => h) fun _ _ => trivial).bind fun order horder => ?_
  rw [idOf_of_orderOf horder]
  refine meets_call (.compensating u) fun _ _ => meets_any.bind fun _ _ => ?_
  refine meets_any.bind fun _ _ => meets_any.bind fun _ _ => ?_
  split
  · exact meets_call (.undoes u) fun _ _ => meets_any.bind fun _ _ => meets_ret trivial
  · exact meets_call (.undoes u) fun _ _ => meets_any.bind fun _ _ => meets_ret trivial

theorem undo_uses (u : Undo) : (u.handler event).Meets (Uses (idOf event) u.state) Answers
    (fun _ => True) fun _ => True := by
  cases u with
  | releaseInventory => exact compensate_uses (u := .releaseInventory)
  | refundPayment => exact compensate_uses (u := .refundPayment)
  | cancelOrder =>
      unfold Undo.handler cancelOrder
      refine (meets_ofExcept (fun _ h => h) fun _ _ => trivial).bind fun order horder => ?_
      rw [idOf_of_orderOf horder]
      refine meets_call (.compensating .cancelOrder) fun _ _ => meets_any.bind fun _ _ => ?_
      exact meets_call (.undoes .cancelOrder) fun _ _ => meets_any.bind fun _ _ => meets_ret trivial

theorem undo_course (u : Undo) : Course (idOf event) u.state [] (u.handler event) := by
  refine (undo_uses u).follows ?_ (fun _ _ _ => leaves_undo) (by simp)
  exact fun history op _ huses => ⟨huses, fun event' _ hlasting => absurd hlasting not_lasting_undo⟩

theorem completeSaga_course : Course (idOf event) .completeSaga [] (completeSaga event) := by
  unfold completeSaga
  apply follows_ofExcept_bind
  intro order horder
  rw [idOf_of_orderOf horder]
  refine ⟨⟨.completes, by simp⟩, fun answer _ => ?_⟩
  cases answer with
  | error e => exact follows_raise
  | ok _ => exact List.mem_singleton_self _

theorem markFailed_course : Course (idOf event) .markFailed [] (markFailed event) := by
  unfold markFailed
  apply follows_ofExcept_bind
  intro order horder
  rw [idOf_of_orderOf horder]
  refine ⟨⟨.fails, by simp⟩, fun answer _ => ?_⟩
  cases answer with
  | error e => exact follows_raise
  | ok _ =>
      apply follows_ofExcept_bind
      intro _ _
      apply follows_ofExcept_bind
      intro error _
      apply follows_ofExcept_bind
      intro cause _
      exact List.mem_singleton_self _

/-- Every handler keeps to the course of its state. -/
theorem handler_course {t : Task StateName Function} (hstate : machine.states s = .task t) :
    Course (idOf event) s [] (function py t.resource event) := by
  cases s with
  | createOrder => cases hstate; exact stage_course .createOrder
  | chargePayment => cases hstate; exact stage_course .chargePayment
  | reserveInventory => cases hstate; exact stage_course .reserveInventory
  | scheduleShipment => cases hstate; exact stage_course .scheduleShipment
  | completeSaga => cases hstate; exact completeSaga_course
  | releaseInventory => cases hstate; exact undo_course .releaseInventory
  | refundPayment => cases hstate; exact undo_course .refundPayment
  | cancelOrder => cases hstate; exact undo_course .cancelOrder
  | markFailed => cases hstate; exact markFailed_course
  | _ => cases hstate

/-- What is used in a state does not override what an earlier state left for good. -/
theorem Uses.overrides_lasting {s' : StateName} {op op' : Op} (h : Uses id s op) (h' : Uses id s' op')
    (hlasting : Lasting s' op') (hrank : rank s < rank s') (hcomplete : s' ≠ .completeSaga)
    (hfailed : s' ≠ .markFailed) : op.overrides op' = false := by
  cases h' with
  | records stage =>
      cases h with
      | starts => cases stage <;> simp [rank, Stage.state] at hrank
      | records other =>
          have hname : other.name ≠ stage.name := by
            intro heq
            obtain rfl := Stage.name_injective heq
            exact lt_irrefl _ hrank
          simp [Op.overrides, hname]
      | undoes u => simp [Op.overrides, stage_name_ne_undo]
      | _ => rfl
  | undoes u => exact absurd hlasting not_lasting_undo
  | compensating u => exact absurd hlasting not_lasting_undo
  | completes => exact absurd rfl hcomplete
  | fails => exact absurd rfl hfailed
  | _ => exact hlasting.elim

end OrderSaga
