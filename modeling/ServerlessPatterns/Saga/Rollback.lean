-- SUMMARY: A saga whose attempts run to their end completes, or is rolled back exactly.
import ServerlessPatterns.Saga.Progress

/-!
# Exact rollback

When every attempt ends with a return or a raise of its own, an order is either
completed, or the steps done before the failed one are compensated, each once and
in reverse order, with what they themselves returned.
-/

namespace OrderSaga

open Asl Workflow Program

/-- The attempt runs until it returns or raises. -/
def Uninterrupted (inv : Attempted) : Prop := inv.outcome ≠ .lost

theorem uninterrupted_of_not_lost {inv : Attempted} (h : inv.outcome.isLost = false) :
    Uninterrupted inv := by
  intro hlost
  rw [hlost] at h
  cases h

theorem Uninterrupted.tidy {inv : Attempted} (h : Uninterrupted inv) : Tidy inv :=
  fun hlost => absurd hlost h

theorem permits_smooth {py : Python} : Permits py Uninterrupted .smooth :=
  fun _ _ p table => run_none_ne_lost p table

/-- The compensation a state runs. -/
def StateName.undo : StateName → Option Undo
  | .releaseInventory => some .releaseInventory
  | .refundPayment => some .refundPayment
  | .cancelOrder => some .cancelOrder
  | _ => none

/-- The compensations that were invoked, in the order they were. -/
def compensations (log : List Attempted) : List Undo :=
  (log.map (·.state)).filterMap StateName.undo

theorem undo_state {u : Undo} : u.state.undo = some u := by cases u <;> rfl

theorem stage_state_undo {s : Stage} : s.state.undo = none := by cases s <;> rfl

theorem state_of_undo {s : StateName} {u : Undo} (h : s.undo = some u) : s = u.state := by
  cases s <;> cases h <;> rfl

/-- The order was completed and nothing was compensated. -/
structure Completed (orderId : String) (c : Config) : Prop where
  succeeded : ∃ data, c.execution = .succeeded .completeSaga data
  status : status orderId c.world = some statusCompleted
  compensations : compensations c.log = []

/-- The saga failed at stage `k`, after the stages `before`, and was rolled
    back. -/
structure RolledBack (orderId : String) (before : List Stage) (k : Stage) (c : Config) : Prop where
  failed : ∃ err, c.execution = .failed .sagaFailed err
  status : status orderId c.world = some statusFailed
  raised : ∃ inv ∈ c.log, inv.state = k.state ∧ ∃ e, inv.outcome = .raised e
  /-- The stages before `k` are the ones that returned. -/
  returned : ∀ s : Stage, s ∈ before ↔
    ∃ inv ∈ c.log, inv.state = s.state ∧ ∃ result, inv.outcome = .returned result
  compensations : compensations c.log = before.reverse.filterMap Stage.undo
  /-- What was undone is recorded with the id that the stage returned. -/
  settled : ∀ u ∈ before.reverse.filterMap Stage.undo, Settled orderId c.world c.log u
  untouched : ∀ u ∉ before.reverse.filterMap Stage.undo, entry orderId u.name c.world = none

variable {orderId : String} {table₀ table : Table} {done : List Stage} {undone : List Undo}
  {closing : List StateName} {log : List Attempted}

theorem filterMap_stages {done : List Stage} :
    (done.map Stage.state).filterMap StateName.undo = [] := by
  rw [List.filterMap_map, List.filterMap_eq_nil_iff]
  exact fun s _ => stage_state_undo

theorem filterMap_undos {undone : List Undo} :
    (undone.map Undo.state).filterMap StateName.undo = undone := by
  rw [List.filterMap_map]
  have hsome : StateName.undo ∘ Undo.state = some := funext fun u => undo_state
  rw [hsome, List.filterMap_some]

/-- When all compensations have returned, they are among the returns. -/
theorem compensations_eq (h : ∀ inv ∈ log, ∀ u : Undo, inv.state = u.state →
    ∃ result, inv.outcome = .returned result) :
    compensations log = (returns log).filterMap StateName.undo := by
  induction log with
  | nil => rfl
  | cons inv log ih =>
      have hrest := ih fun inv' hmem => h inv' (List.mem_cons_of_mem _ hmem)
      unfold compensations returns at hrest ⊢
      rw [List.map_cons, List.filter_cons]
      cases hundo : inv.state.undo with
      | none =>
          rw [List.filterMap_cons_none hundo, hrest]
          split
          · rw [List.map_cons, List.filterMap_cons_none hundo]
          · rfl
      | some u =>
          have hreturned : inv.outcome.isReturned = true :=
            Outcome.isReturned_iff.mpr (h inv List.mem_cons_self u (state_of_undo hundo))
          rw [List.filterMap_cons_some hundo, if_pos hreturned, List.map_cons,
            List.filterMap_cons_some hundo, hrest]

/-- In an uninterrupted run nothing but a forward step fails. -/
theorem returned_of_uninterrupted (hraises : OnlyStagesRaise log)
    (hlog : ∀ inv ∈ log, Uninterrupted inv) {inv : Attempted} (hmem : inv ∈ log)
    (hstate : ∀ s : Stage, inv.state ≠ s.state) : ∃ result, inv.outcome = .returned result := by
  cases houtcome : inv.outcome with
  | returned result => exact ⟨result, rfl⟩
  | raised e =>
      obtain ⟨s, hs⟩ := hraises inv hmem e houtcome
      exact absurd hs (hstate s)
  | lost => exact absurd houtcome (hlog inv hmem)

theorem failures_of_uninterrupted (hraises : OnlyStagesRaise log)
    (hlog : ∀ inv ∈ log, Uninterrupted inv) {s : StateName} (hstate : ∀ s' : Stage, s ≠ s'.state) :
    failures log s = 0 := by
  unfold failures
  rw [List.countP_eq_zero]
  intro inv hmem hfailed
  rw [Bool.and_eq_true, decide_eq_true_iff, Bool.not_eq_true'] at hfailed
  obtain ⟨hs, hnot⟩ := hfailed
  obtain ⟨result, houtcome⟩ := returned_of_uninterrupted hraises hlog hmem (hs ▸ hstate)
  simp [houtcome, Outcome.isReturned] at hnot

/-- In an uninterrupted run the compensations that were invoked are those that
    the books have as undone. -/
theorem Books.compensations (h : Books orderId table₀ done undone closing table log)
    (hlog : ∀ inv ∈ log, Uninterrupted inv) (hclosing : closing.filterMap StateName.undo = []) :
    compensations log = undone := by
  have hreturned : ∀ inv ∈ log, ∀ u : Undo, inv.state = u.state →
      ∃ result, inv.outcome = .returned result := fun inv hmem u hstate =>
    returned_of_uninterrupted h.raises hlog hmem fun s hs =>
      stage_state_ne_undo (hs.symm.trans hstate)
  rw [compensations_eq hreturned, h.returned, List.filterMap_append, List.filterMap_append,
    filterMap_stages, filterMap_undos, hclosing, List.nil_append, List.append_nil]

/-- Every run of the saga completes the order, or rolls it back exactly. -/
theorem compensation_exact (py : Python) (orderId : String) (input : Json) (table₀ : Table)
    (hne : orderId ≠ "") (hinput : ForOrder orderId input)
    (hcompensation : input.get ["compensation"] = none) (hfresh : table₀ orderId = none)
    (run : Transition.MaximalRun (Step py Uninterrupted) ((workflow py).init input table₀)) :
    (∃ n, Transition.Stuck (Step py Uninterrupted) (run.state n)) ∧
    ∀ n, Transition.Stuck (Step py Uninterrupted) (run.state n) →
      Completed orderId (run.state n) ∨
      ∃ before k after, before ++ k :: after = plan.steps ∧
        RolledBack orderId before k (run.state n) := by
  have hfiled : Filed orderId table₀ := by simp [Filed, hfresh]
  obtain ⟨hends, hphase⟩ := run_ends hne (fun _ => Uninterrupted.tidy) .smooth permits_smooth hfiled
    hinput run
  refine ⟨hends, fun n hstuck => ?_⟩
  obtain ⟨hended, p, hsound, htracks⟩ := hphase n hstuck
  have hlog := allowed_of_mem_log (run.reachable n)
  have hroom : Writable input := by simp [Writable, hcompensation]
  have hblank : ∀ u : Undo, entry orderId u.name table₀ = none := by simp [entry, Table.attr, hfresh]
  generalize run.state n = c at *
  cases htracks with
  | completed hbooks hdone hstatus hvisited hnone hcount =>
      exact .inl ⟨⟨_, rfl⟩, hstatus, hbooks.compensations hlog rfl⟩
  | @rolledBack done failed undone err table log hbooks hstatus hvisited hfailed _ _ =>
      obtain ⟨⟨after, hsteps⟩, rfl⟩ := hsound
      refine .inr ⟨done.reverse, failed, after, hsteps, ?_⟩
      have hundone : done.reverse.reverse.filterMap Stage.undo = done.filterMap plan.undo := by
        rw [List.reverse_reverse]
        rfl
      obtain ⟨inv, hmem, hstate, hnot⟩ := hfailed
      exact {
        failed := ⟨err, rfl⟩
        status := hstatus
        raised := by
          refine ⟨inv, hmem, hstate, ?_⟩
          cases houtcome : inv.outcome with
          | returned result => exact absurd houtcome (hnot result)
          | raised e => exact ⟨e, rfl⟩
          | lost => exact absurd houtcome (hlog inv hmem)
        returned := hbooks.mem_done fun s => by simp [stage_state_ne_markFailed]
        compensations := by rw [hundone, hbooks.compensations hlog rfl]
        settled := by
          rw [hundone]
          exact hbooks.settled
        untouched := by
          rw [hundone]
          exact hbooks.blank hblank }
  | incomplete hraises hcount =>
      rw [failures_of_uninterrupted hraises hlog fun _ => Ne.symm stage_state_ne_completeSaga] at hcount
      cases hcount
  | unmarked hraises hcount =>
      rw [failures_of_uninterrupted hraises hlog fun _ => Ne.symm stage_state_ne_markFailed] at hcount
      cases hcount
  | uncompensated hraises hvisited hfailed _ =>
      obtain ⟨inv, hmem, hstate, hnot⟩ := hfailed
      obtain ⟨result, houtcome⟩ := returned_of_uninterrupted hraises hlog hmem fun s hs =>
        stage_state_ne_undo (hs.symm.trans hstate)
      exact absurd houtcome (hnot result)
  | blocked _ hblocked => exact absurd hroom hblocked
  | _ => exact absurd rfl (hended _ _ _)

def failedShipmentRun : Transition.MaximalRun (Step .sample Uninterrupted)
    ((workflow .sample).init (sampleInput (.str "schedule_shipment")) fun _ => none) :=
  scheduled (answer .sample) answer_exec (fun _ => .smooth) _ 9
    (fun n hn inv hmem => uninterrupted_of_not_lost (failedShipment_not_lost n hn inv hmem))
    failedShipment_ends

theorem compensation_exact_failedShipment :
    (∃ n, Transition.Stuck (Step .sample Uninterrupted) (failedShipmentRun.state n)) ∧
    ∀ n, Transition.Stuck (Step .sample Uninterrupted) (failedShipmentRun.state n) →
      Completed "ord-1001" (failedShipmentRun.state n) ∨
      ∃ before k after, before ++ k :: after = plan.steps ∧
        RolledBack "ord-1001" before k (failedShipmentRun.state n) :=
  compensation_exact .sample "ord-1001" (sampleInput (.str "schedule_shipment")) (fun _ => none)
    (by decide) ⟨_, rfl, rfl⟩ rfl rfl failedShipmentRun

example : compensations (failedShipmentRun.state 9).log =
    [.releaseInventory, .refundPayment, .cancelOrder] := rfl

end OrderSaga
