-- SUMMARY: Runs of the saga for orders with flaky steps: when every step succeeds on the attempt that was asked for.
import ServerlessPatterns.Saga.Flaky

/-!
# Runs with flaky steps

Each forward step has three retries. The run goes through the steps until one of them
has failed four times, and then goes back.
-/

namespace OrderSaga

open Asl Program Workflow Relation

/-- The attempts of a step, in the order they were made. -/
def attemptsAt (log : List Attempted) (s : Stage) : List Attempted :=
  log.filter fun inv => decide (inv.state = s.state)

/-- The attempt raised the injected error. -/
def Injected (inv : Attempted) : Prop := ∃ e, InjectedTransient e ∧ inv.outcome = .raised e

def Succeeded (inv : Attempted) : Prop := ∃ result, inv.outcome = .returned result

/-- All attempts were of forward steps. -/
def OnForward (log : List Attempted) : Prop := ∀ inv ∈ log, ∃ s : Stage, inv.state = s.state

/-- The way back began where an error of the step was caught. -/
def CaughtAt (s : Stage) (log : List Attempted) : Prop :=
  ∃ front inv next back, log = front ++ inv :: next :: back ∧ OnForward front ∧
    inv.state = s.state ∧ Injected inv ∧ next.state = s.onError

/-- What asking for steps that fail at first is meant to bring about. -/
structure FlakyPromise (orderId : String) (flaky : List (String × Json)) (c : Config) : Prop where
  /-- A step raises on all attempts before the one asked for, and returns on that one. -/
  attempts : ∀ (s : Stage) (i : Nat) inv, (attemptsAt c.log s)[i]? = some inv →
    ((i + 1 < succeedsOn flaky s → Injected inv) ∧ (i + 1 = succeedsOn flaky s → Succeeded inv))
  completes : ((∃ data, c.execution = .succeeded .completeSaga data) ∧
    status orderId c.world = some statusCompleted) ↔ ∀ s, succeedsOn flaky s ≤ 4
  /-- The first step that is asked for more attempts than it has is the one that fails. -/
  unwinds : ∀ before s after, before ++ s :: after = plan.steps →
    (∀ s' ∈ before, succeedsOn flaky s' ≤ 4) → 4 < succeedsOn flaky s → CaughtAt s c.log

variable {py : Python} {orderId : String} {flaky : List (String × Json)} {input data : Json}
  {table table₀ : Table} {s s' : Stage} {i : Nat} {log : List Attempted} {inv : Attempted}

/-! ## Logs -/

theorem attemptsAt_append_self (h : inv.state = s.state) :
    attemptsAt (log ++ [inv]) s = attemptsAt log s ++ [inv] := by
  simp [attemptsAt, List.filter_append, h]

theorem attemptsAt_append_other (h : inv.state ≠ s.state) :
    attemptsAt (log ++ [inv]) s = attemptsAt log s := by
  simp [attemptsAt, List.filter_append, h]

/-- The step has an attempt that returned. -/
def Passed (log : List Attempted) (s : Stage) : Prop := ∃ inv ∈ attemptsAt log s, Succeeded inv

theorem Passed.append (h : Passed log s) : Passed (log ++ [inv]) s := by
  obtain ⟨inv', hmem, hreturned⟩ := h
  refine ⟨inv', ?_, hreturned⟩
  rw [attemptsAt, List.filter_append]
  exact List.mem_append_left _ hmem

/-- The attempts so far went as the counters of the record have it. -/
structure Trail (flaky : List (String × Json)) (log : List Attempted) : Prop where
  fits : ∀ (s : Stage) (i : Nat) inv, (attemptsAt log s)[i]? = some inv →
    (Fails flaky s i ∧ Injected inv) ∨ (¬ Fails flaky s i ∧ Succeeded inv)
  short : ∀ s, (attemptsAt log s).length ≤ 4

theorem Trail.append_self (h : Trail flaky log) (hstate : inv.state = s.state)
    (hcount : (attemptsAt log s).length = i) (hi : i ≤ 3)
    (hinv : (Fails flaky s i ∧ Injected inv) ∨ (¬ Fails flaky s i ∧ Succeeded inv)) :
    Trail flaky (log ++ [inv]) where
  fits s' j inv' hat := by
    by_cases hs : s' = s
    · subst hs
      rw [attemptsAt_append_self hstate, List.getElem?_append] at hat
      split at hat
      · exact h.fits s' j inv' hat
      · obtain ⟨hj, rfl⟩ : j - (attemptsAt log s').length = 0 ∧ inv = inv' := by
          simpa [List.getElem?_singleton] using hat
        obtain rfl : j = i := by omega
        exact hinv
    · rw [attemptsAt_append_other fun heq => hs (Stage.state_injective (heq.symm.trans hstate))] at hat
      exact h.fits s' j inv' hat
  short s' := by
    by_cases hs : s' = s
    · subst hs
      rw [attemptsAt_append_self hstate, List.length_append, hcount, List.length_singleton]
      omega
    · rw [attemptsAt_append_other fun heq => hs (Stage.state_injective (heq.symm.trans hstate))]
      exact h.short s'

theorem Trail.append_other (h : Trail flaky log) (hstate : ∀ s : Stage, inv.state ≠ s.state) :
    Trail flaky (log ++ [inv]) where
  fits s j inv' hat := by
    rw [attemptsAt_append_other (hstate s)] at hat
    exact h.fits s j inv' hat
  short s := by
    rw [attemptsAt_append_other (hstate s)]
    exact h.short s

theorem OnForward.append (h : OnForward log) (hstate : inv.state = s.state) : OnForward (log ++ [inv]) := by
  intro inv' hmem
  rcases List.mem_append.mp hmem with hold | hnew
  · exact h inv' hold
  · exact ⟨s, by rw [List.mem_singleton.mp hnew, hstate]⟩

/-- A step that is through had an attempt on which it was not to fail. -/
theorem Trail.passed (h : Trail flaky log) (hpassed : Passed log s) :
    ∃ i, i < 4 ∧ ¬ Fails flaky s i := by
  obtain ⟨inv, hmem, result, hreturned⟩ := hpassed
  obtain ⟨i, hi⟩ := List.getElem?_of_mem hmem
  have hlt : i < (attemptsAt log s).length := (List.getElem?_eq_some_iff.mp hi).1
  refine ⟨i, lt_of_lt_of_le hlt (h.short s), ?_⟩
  rcases h.fits s i inv hi with ⟨_, e, _, hraised⟩ | ⟨hnot, _⟩
  · cases hreturned.symm.trans hraised
  · exact hnot

theorem succeedsOn_le_of_passes (h : ¬ Fails flaky s i) (hi : i < 4) : succeedsOn flaky s ≤ 4 := by
  unfold Fails at h
  split at h <;> omega

/-! ## Where a run stands -/

/-- The run has gone back after four failures of the step. -/
structure Stopped (flaky : List (String × Json)) (s : Stage) (log : List Attempted) : Prop where
  trail : Trail flaky log
  before : ∃ before after, before ++ s :: after = plan.steps ∧ ∀ s' ∈ before, Passed log s'
  full : (attemptsAt log s).length = 4
  fails : Fails flaky s 3

theorem Stopped.append (h : Stopped flaky s log) (hstate : ∀ s : Stage, inv.state ≠ s.state) :
    Stopped flaky s (log ++ [inv]) where
  trail := h.trail.append_other hstate
  before := by
    obtain ⟨before, after, hplan, hpassed⟩ := h.before
    exact ⟨before, after, hplan, fun s' hs' => (hpassed s' hs').append⟩
  full := by
    rw [attemptsAt_append_other (hstate s)]
    exact h.full
  fails := h.fails

theorem CaughtAt.append (h : CaughtAt s log) : CaughtAt s (log ++ [inv]) := by
  obtain ⟨front, raising, next, back, rfl, hrest⟩ := h
  exact ⟨front, raising, next, back ++ [inv], by simp, hrest⟩

/-- The states that are only reached on the way back. -/
def OnWayBack (s : StateName) : Prop :=
  s ∈ [.releaseInventory, .refundPayment, .cancelOrder, .markFailed, .sagaFailed, .compensationFailed]

instance : DecidablePred OnWayBack := fun s =>
  decidable_of_iff (s ∈ [.releaseInventory, .refundPayment, .cancelOrder, .markFailed, .sagaFailed,
    .compensationFailed]) Iff.rfl

/-- The execution is on its way back, or has failed. -/
def Returning : Execution StateName → Prop
  | .running s _ _ => OnWayBack s
  | .succeeded .. => False
  | .failed .. => True

theorem returning_enter {s : StateName} (h : OnWayBack s) : Returning (machine.enter s data) := by
  revert h
  cases s <;> first | exact fun h => h | exact fun _ => trivial

theorem onWayBack_ne {s : StateName} (h : OnWayBack s) (s' : Stage) : s ≠ s'.state := by
  rintro rfl
  revert h
  cases s' <;> decide

/-- From the states on the way back nothing leads forward, and only a failure ends there. -/
theorem onWayBack_leads {s : StateName} {t : Task StateName Function} (h : OnWayBack s)
    (hstate : machine.states s = .task t) :
    (∃ s', t.next = some s' ∧ OnWayBack s') ∧ ∀ c ∈ t.catchers, OnWayBack c.next := by
  revert h
  cases s <;> cases hstate <;> intro h
  all_goals first
    | exact absurd h (by decide)
    | exact ⟨⟨_, rfl, by decide⟩, by decide⟩

theorem onError_onWayBack (s : Stage) : OnWayBack s.onError := by cases s <;> decide

/-- Where a run for a flaky order can stand. -/
inductive Flaking (py : Python) (orderId : String) (flaky : List (String × Json)) (input : Json)
    (table₀ : Table) : Config → Prop where
  | seeding {left} : Flaking py orderId flaky input table₀ ⟨.running .initializeSaga input left, table₀, []⟩
  /-- The step has failed `i` times. -/
  | trying {done todo : List Stage} {s i data table log}
      (hplan : done.reverse ++ s :: todo = plan.steps) (hi : i ≤ 3)
      (horder : FlakyOrder py orderId flaky data) (hdata : Carries orderId input data)
      (hcounted : Counted orderId s i todo table) (htrail : Trail flaky log) (hforward : OnForward log)
      (hdone : ∀ s' ∈ done, Passed log s') (hcount : (attemptsAt log s).length = i)
      (htodo : ∀ s' ∈ todo, attemptsAt log s' = []) :
      Flaking py orderId flaky input table₀ ⟨.running (Stage.state s) data [3 - i, 4], table, log⟩
  | completing {data : Json} {left table log} (hdata : Carries orderId input data)
      (hestablished : Established orderId table) (htrail : Trail flaky log)
      (hdone : ∀ s, Passed log s) :
      Flaking py orderId flaky input table₀ ⟨.running .completeSaga data left, table, log⟩
  | completed {data : Json} {table log} (hstatus : status orderId table = some statusCompleted)
      (htrail : Trail flaky log) (hdone : ∀ s, Passed log s) :
      Flaking py orderId flaky input table₀ ⟨.succeeded .completeSaga data, table, log⟩
  | caught {s : Stage} {data : Json} {left table front inv} (hforward : OnForward front)
      (hstate : inv.state = s.state) (hinjected : Injected inv) (hstopped : Stopped flaky s (front ++ [inv])) :
      Flaking py orderId flaky input table₀ ⟨.running s.onError data left, table, front ++ [inv]⟩
  | unwinding {s : Stage} {execution table log} (hreturning : Returning execution) (hcaught : CaughtAt s log)
      (hstopped : Stopped flaky s log) : Flaking py orderId flaky input table₀ ⟨execution, table, log⟩

variable {c' : Config} {done todo : List Stage} {left : List Nat}

/-! ## Steps -/

theorem stage_fresh (s : Stage) : s.task.freshRetries = [3, 4] := by cases s <;> rfl

/-- What is left of the forward steps is entered, and its counters have not been moved. -/
theorem flaking_forward (hplan : done.reverse ++ todo = plan.steps) (horder : FlakyOrder py orderId flaky data)
    (hdata : Carries orderId input data) (hestablished : Established orderId table)
    (hunmoved : Unmoved orderId todo table) (htrail : Trail flaky log) (hforward : OnForward log)
    (hdone : ∀ s' ∈ done, Passed log s') (htodo : ∀ s' ∈ todo, attemptsAt log s' = []) :
    Flaking py orderId flaky input table₀ ⟨machine.enter (forwardState todo) data, table, log⟩ := by
  cases todo with
  | nil =>
      refine .completing hdata hestablished htrail fun s => hdone s ?_
      have hmem : s ∈ done.reverse := by
        rw [← List.append_nil done.reverse, hplan]
        cases s <;> decide
      exact List.mem_reverse.mp hmem
  | cons s todo =>
      unfold forwardState
      rw [enter_stage, stage_fresh]
      exact .trying hplan (Nat.zero_le 3) horder hdata
        (fun _ => ⟨hestablished, hunmoved s List.mem_cons_self,
          fun s' hs' => hunmoved s' (List.mem_cons_of_mem _ hs')⟩)
        htrail hforward hdone (by rw [htodo s List.mem_cons_self]; rfl)
        fun s' hs' => htodo s' (List.mem_cons_of_mem _ hs')

/-- The injected error is retried three times, and then caught. -/
theorem fault_injected {e : Exc} (he : InjectedTransient e) (hi : i ≤ 3) :
    machine.fault s.state s.task data [3 - i, 4] ⟨e.errorType, e.message⟩ =
      if i < 3 then .running s.state data [3 - (i + 1), 4]
      else machine.caught s.state s.task data ⟨e.errorType, e.message⟩ := by
  obtain ⟨message, rfl⟩ := he
  have hidx : (s.task.retry.findIdx? fun r => catches r.errorEquals ⟨"SagaTransientError", message⟩) =
      some 0 := by
    cases s <;> rfl
  by_cases hlt : i < 3
  · have hleft : 0 < [3 - i, 4].getD 0 0 := by
      rw [List.getD_cons_zero]
      omega
    simp only [Machine.fault, sagaTransientError, hidx, if_pos hleft, if_pos hlt,
      List.modify_zero_cons, Nat.sub_sub]
  · have hleft : ¬ 0 < [3 - i, 4].getD 0 0 := by
      rw [List.getD_cons_zero]
      omega
    simp only [Machine.fault, sagaTransientError, hidx, if_neg hleft, if_neg hlt]

theorem not_mem_todo (hplan : done.reverse ++ s :: todo = plan.steps) : s ∉ todo := by
  have hnodup : (done.reverse ++ s :: todo).Nodup := by
    rw [hplan]
    decide
  exact (List.nodup_cons.mp (List.nodup_append.mp hnodup).2.1).1

/-- A step at a task, with what the machine does with the report. -/
theorem reported_step {allowed : Attempted → Prop} {name : StateName} {t : Task StateName Function}
    (hstate : machine.states name = .task t)
    (h : Step py allowed ⟨.running name data left, table, log⟩ c') :
    ∃ context calls outcome table' report,
      Attempt (exec py) (function py t.resource data) table calls outcome table' ∧
      allowed ⟨name, data, calls, outcome⟩ ∧ Workflow.Reported t outcome report ∧
      c' = ⟨machine.resume name t context data left report, table',
        log ++ [⟨name, data, calls, outcome⟩]⟩ := by
  refine Workflow.Step.reported ?_ (task_direct hstate) h
  exact hstate

theorem trying_step (hstep : Step py Uninterrupted ⟨.running s.state data [3 - i, 4], table, log⟩ c')
    (hplan : done.reverse ++ s :: todo = plan.steps) (hi : i ≤ 3)
    (horder : FlakyOrder py orderId flaky data) (hdata : Carries orderId input data)
    (hcounted : Counted orderId s i todo table) (htrail : Trail flaky log) (hforward : OnForward log)
    (hdone : ∀ s' ∈ done, Passed log s') (hcount : (attemptsAt log s).length = i)
    (htodo : ∀ s' ∈ todo, attemptsAt log s' = []) : Flaking py orderId flaky input table₀ c' := by
  have hs := not_mem_todo hplan
  obtain ⟨context, calls, outcome, table', report, hattempt, hrun, hreport, rfl⟩ :=
    reported_step s.states_state hstep
  rw [s.function_resource] at hattempt
  have hforward' : OnForward (log ++ [⟨s.state, data, calls, outcome⟩]) := hforward.append rfl
  have hothers : ∀ s' ∈ todo, attemptsAt (log ++ [⟨s.state, data, calls, outcome⟩]) s' = [] := by
    intro s' hs'
    have hne : s.state ≠ s'.state := fun heq => hs (Stage.state_injective heq ▸ hs')
    rw [attemptsAt_append_other hne, htodo s' hs']
  rcases wp_attempt (stage_wp horder hs hcounted) hattempt hrun with
    ⟨result, rfl, hpasses, hestablished, hunmoved⟩ | ⟨e, rfl, hfails, htransient, hcounted'⟩
  · -- The step is through: its result is put into the data.
    obtain rfl := hreport.ok (by rw [s.direct.integration]; decide)
    obtain ⟨data', hput, hdata', _⟩ := hdata.put_result s.resultKey result
    have hapart : ∀ key, key ≠ "results" → data'.get [key] = data.get [key] :=
      fun key hne => Json.get_put_apart hput (.inl hne.symm)
    have hcomplete : machine.complete s.state s.task context data result =
        machine.enter (forwardState todo) data' := by
      rw [← s.task_resultPath] at hput
      rw [Machine.complete_next s.direct hput s.task_next, (plan_split hplan).1]
    have hnew : Passed (log ++ [⟨s.state, data, calls, .returned result⟩]) s :=
      ⟨_, by rw [attemptsAt_append_self rfl]; exact List.mem_append_right _ List.mem_cons_self, result, rfl⟩
    have hplan' : (s :: done).reverse ++ todo = plan.steps := by simpa using hplan
    rw [Machine.resume, s.direct.wrap, hcomplete]
    refine flaking_forward hplan' (horder.of_get (hapart _ (by decide))
      (hapart _ (by decide)) (hapart _ (by decide))) hdata' hestablished hunmoved
      (htrail.append_self rfl hcount hi (.inr ⟨hpasses, result, rfl⟩)) hforward' ?_ hothers
    intro s' hs'
    rcases List.mem_cons.mp hs' with rfl | hs'
    · exact hnew
    · exact (hdone s' hs').append
  · -- The step has failed once more.
    obtain rfl := hreport.error_eq
    have hinjected : Injected ⟨s.state, data, calls, .raised e⟩ := ⟨e, htransient, rfl⟩
    have htrail' : Trail flaky (log ++ [⟨s.state, data, calls, .raised e⟩]) :=
      htrail.append_self rfl hcount hi (.inl ⟨hfails, hinjected⟩)
    have hcount' : (attemptsAt (log ++ [⟨s.state, data, calls, .raised e⟩]) s).length = i + 1 := by
      rw [attemptsAt_append_self rfl, List.length_append, hcount]
      rfl
    rw [Machine.resume, fault_injected htransient hi]
    split
    · rename_i hlt
      exact .trying hplan hlt horder hdata hcounted' htrail' hforward'
        (fun s' hs' => (hdone s' hs').append) hcount' hothers
    · obtain ⟨data', hput, _⟩ := hdata.put_error (TaskError.output ⟨e.errorType, e.message⟩)
      rw [Machine.caught_all s.task_catchers, hput]
      have henter : ∃ left, machine.enter s.onError data' = .running s.onError data' left := by
        cases s <;> exact ⟨_, rfl⟩
      obtain ⟨left, henter⟩ := henter
      dsimp only
      rw [henter]
      obtain rfl : i = 3 := by omega
      refine .caught hforward rfl hinjected
        ⟨htrail', ⟨done.reverse, todo, hplan, fun s' hs' => ?_⟩, hcount', hfails⟩
      exact (hdone s' (List.mem_reverse.mp hs')).append

theorem completing_flaking (hstep : Step py Uninterrupted ⟨.running .completeSaga data left, table, log⟩ c')
    (hdata : Carries orderId input data) (hestablished : Established orderId table)
    (htrail : Trail flaky log) (hdone : ∀ s, Passed log s) :
    Flaking py orderId flaky input table₀ c' := by
  obtain ⟨calls, outcome, table', execution, hattempt, hrun, rfl, hend⟩ :=
    task_step .completeSaga rfl completeSaga_direct rfl hstep
  have hid := idOf_of_forOrder hdata.order
  obtain ⟨order, horder⟩ := orderOf_of_idOf hid
  obtain ⟨_, hset⟩ := setsStatus_attempt (completeSaga_setsStatus horder) hattempt
    hestablished.supported.named hid rfl hestablished.filed
  obtain ⟨⟨result, rfl⟩, hstatus⟩ := hset.resolve_left hrun
  obtain ⟨context, rfl⟩ := hend.complete
  obtain ⟨data', hput, _⟩ := hdata.put_result "completion" result
  rw [Machine.complete_end completeSaga_direct hput rfl]
  exact .completed hstatus (htrail.append_other fun s => stage_state_ne_completeSaga.symm)
    fun s => (hdone s).append

/-- On the way back a step stays on the way back, and is of no forward step. -/
theorem returning_step {s : StateName} (hback : OnWayBack s)
    (hstep : Step py Uninterrupted ⟨.running s data left, table, log⟩ c') :
    ∃ inv, c'.log = log ++ [inv] ∧ inv.state = s ∧ Returning c'.execution := by
  cases hstate : machine.states s with
  | task t =>
      obtain ⟨⟨s', hnext, hback'⟩, hcatchers⟩ := onWayBack_leads hback hstate
      obtain ⟨context, calls, outcome, table', report, _, _, _, rfl⟩ :=
        reported_step hstate hstep
      refine ⟨_, rfl, rfl, ?_⟩
      dsimp only
      cases report with
      | ok result =>
          rcases machine.complete_cases s t context data result with
            ⟨_, heq⟩ | ⟨data', _, ⟨hend, _⟩ | ⟨s'', hnext', heq⟩⟩
          · rw [Machine.resume, heq]
            trivial
          · cases hnext.symm.trans hend
          · cases hnext.symm.trans hnext'
            rw [Machine.resume, heq]
            exact returning_enter hback'
      | error err =>
          rcases machine.fault_cases s t data left err with
            ⟨_, _, _, heq⟩ | ⟨c, hc, _, data', _, heq⟩ | ⟨_, heq⟩
          · rw [Machine.resume, heq]
            exact hback
          · rw [Machine.resume, heq]
            exact returning_enter (hcatchers c hc)
          · rw [Machine.resume, heq]
            trivial
  | fail error cause =>
      have hnone : (workflow py).advance (answer py) .smooth ⟨.running s data left, table, log⟩ = none := by
        cases s <;> first | rfl | cases hstate
      exact absurd hstep (Workflow.stuck_of_advance_none hnone c')
  | pass result path next =>
      obtain rfl : s = .initializeSaga := by cases s <;> cases hstate; rfl
      exact absurd hback (by decide)
  | _ => cases s <;> cases hstate

theorem seeding_step (hstep : Step py Uninterrupted ⟨.running .initializeSaga input left, table₀, []⟩ c')
    (horder : FlakyOrder py orderId flaky input) : Flaking py orderId flaky input table₀ c' := by
  obtain ⟨fields, rfl⟩ := horder.event_obj
  have hput := Json.put_single "results" (.obj []) fields
  have hapart : ∀ key, key ≠ "results" →
      (Json.obj (Fields.put "results" (.obj []) fields)).get [key] = (Json.obj fields).get [key] :=
    fun key hne => Json.get_put_apart hput (.inl (Ne.symm hne))
  have hdata : Carries orderId (.obj fields) (.obj (Fields.put "results" (.obj []) fields)) :=
    { order := horder.forOrder.put hput (.inl (by decide))
      results := ⟨[], Json.get_put hput⟩
      compensation := writable_congr (hapart _ (by decide)) }
  have hplan : ([] : List Stage).reverse ++ Stage.createOrder ::
      [.chargePayment, .reserveInventory, .scheduleShipment] = plan.steps := rfl
  have hfirst : Flaking py orderId flaky (.obj fields) table₀
      ⟨.running Stage.createOrder.state (.obj (Fields.put "results" (.obj []) fields)) [3 - 0, 4], table₀, []⟩ :=
    .trying hplan (Nat.zero_le 3) (horder.of_get (hapart _ (by decide)) (hapart _ (by decide))
      (hapart _ (by decide))) hdata (fun hne => absurd rfl hne) ⟨by simp [attemptsAt], by simp [attemptsAt]⟩
      (by simp [OnForward]) (by simp) rfl fun _ _ => rfl
  cases hstep with
  | pass hstate hput' =>
      cases hstate
      cases hput.symm.trans hput'
      exact hfirst
  | passError hstate hput' =>
      cases hstate
      cases hput.symm.trans hput'
  | route hroute => cases hroute
  | routeError hroute => cases hroute
  | attempt hstate => cases hstate
  | eventError hstate => cases hstate

theorem flaking_step {c : Config} (horder : FlakyOrder py orderId flaky input)
    (h : Flaking py orderId flaky input table₀ c) (hstep : Step py Uninterrupted c c') :
    Flaking py orderId flaky input table₀ c' := by
  cases h with
  | seeding => exact seeding_step hstep horder
  | trying hplan hi horder hdata hcounted htrail hforward hdone hcount htodo =>
      exact trying_step hstep hplan hi horder hdata hcounted htrail hforward hdone hcount htodo
  | completing hdata hestablished htrail hdone =>
      exact completing_flaking hstep hdata hestablished htrail hdone
  | completed => exact absurd hstep (Workflow.stuck_of_ended nofun c')
  | @caught s data left table front inv hforward hstate hinjected hstopped =>
      obtain ⟨next, hlog, hnext, hreturning⟩ := returning_step (onError_onWayBack s) hstep
      obtain ⟨execution, table', log'⟩ := c'
      obtain rfl : log' = front ++ [inv] ++ [next] := hlog
      refine .unwinding hreturning ⟨front, inv, next, [], by simp, hforward, hstate, hinjected, hnext⟩ ?_
      exact hstopped.append fun s' => hnext ▸ onWayBack_ne (onError_onWayBack s) s'
  | @unwinding s execution table log hreturning hcaught hstopped =>
      cases execution with
      | running name data left =>
          obtain ⟨inv, hlog, hname, hreturning'⟩ := returning_step hreturning hstep
          obtain ⟨execution', table', log'⟩ := c'
          obtain rfl : log' = log ++ [inv] := hlog
          exact .unwinding hreturning' hcaught.append
            (hstopped.append fun s' => hname ▸ onWayBack_ne hreturning s')
      | succeeded name data => exact hreturning.elim
      | failed name err => exact absurd hstep (Workflow.stuck_of_ended nofun c')

theorem flaking_reachable {c : Config} (horder : FlakyOrder py orderId flaky input)
    (h : ReflTransGen (Step py Uninterrupted) ((workflow py).init input table₀) c) :
    Flaking py orderId flaky input table₀ c :=
  Transition.invariant (P := Flaking py orderId flaky input table₀) h .seeding
    fun _ _ => flaking_step horder

/-! ## The end of a run -/

/-- A run that has ended went through all steps, or it stopped at one of them. -/
theorem flaking_ended {c : Config} (h : Flaking py orderId flaky input table₀ c)
    (horder : FlakyOrder py orderId flaky input) (hstuck : Transition.Stuck (Step py Uninterrupted) c) :
    ((∃ data, c.execution = .succeeded .completeSaga data) ∧ status orderId c.world = some statusCompleted ∧
      Trail flaky c.log ∧ ∀ s, Passed c.log s) ∨
    ∃ s, (∀ data, c.execution ≠ .succeeded .completeSaga data) ∧ CaughtAt s c.log ∧ Stopped flaky s c.log := by
  have hstep : ∀ {name t data left table log}, machine.states name = .task t →
      ¬ Transition.Stuck (Step py Uninterrupted) ⟨.running name data left, table, log⟩ := by
    intro name t data left table log hstate hstuck
    obtain ⟨c', hc'⟩ : ∃ c', Step py Uninterrupted ⟨.running name data left, table, log⟩ c' :=
      Workflow.exists_step answer_exec .smooth permits_smooth hstate data left table log
    exact hstuck c' hc'
  cases h with
  | @seeding left =>
      obtain ⟨fields, rfl⟩ := horder.event_obj
      have hput := Json.put_single "results" (.obj []) fields
      exact absurd (.pass (rfl : machine.states .initializeSaga = _) hput) (hstuck _)
  | trying => exact absurd hstuck (hstep (Stage.states_state _))
  | completing => exact absurd hstuck (hstep rfl)
  | completed hstatus htrail hdone => exact .inl ⟨⟨_, rfl⟩, hstatus, htrail, hdone⟩
  | @caught s data left table front inv =>
      obtain ⟨t, hstate⟩ : ∃ t, machine.states s.onError = .task t := by cases s <;> exact ⟨_, rfl⟩
      exact absurd hstuck (hstep hstate)
  | @unwinding s execution table log hreturning hcaught hstopped =>
      refine .inr ⟨s, ?_, hcaught, hstopped⟩
      rintro data rfl
      exact hreturning

/-- The promise is kept when the trail is, unless the first step is to succeed on an attempt
    that it has, but not the first. -/
theorem Trail.attempts (h : Trail flaky log) (hfirst : succeedsOn flaky .createOrder ∉ [2, 3, 4])
    {inv : Attempted} (hat : (attemptsAt log s)[i]? = some inv) :
    (i + 1 < succeedsOn flaky s → Injected inv) ∧ (i + 1 = succeedsOn flaky s → Succeeded inv) := by
  have hlt : i < 4 := lt_of_lt_of_le (List.getElem?_eq_some_iff.mp hat).1 (h.short s)
  have hfails : (i + 1 < succeedsOn flaky s → Fails flaky s i) ∧
      (i + 1 = succeedsOn flaky s → ¬ Fails flaky s i) := by
    unfold Fails
    by_cases hs : s = .createOrder
    · subst hs
      rw [if_pos rfl]
      simp only [List.mem_cons, List.not_mem_nil, or_false, not_or] at hfirst
      omega
    · rw [if_neg hs]
      omega
  rcases h.fits s i inv hat with ⟨hf, hinjected⟩ | ⟨hnot, hreturned⟩
  · exact ⟨fun _ => hinjected, fun heq => absurd hf (hfails.2 heq)⟩
  · exact ⟨fun hlt => absurd (hfails.1 hlt) hnot, fun _ => hreturned⟩

theorem Trail.first_passed (h : Trail flaky log) (hpassed : Passed log .createOrder) :
    succeedsOn flaky .createOrder ≤ 1 := by
  obtain ⟨i, _, hnot⟩ := h.passed hpassed
  unfold Fails at hnot
  rw [if_pos rfl] at hnot
  omega

/-- The steps before one of the plan are those before it in any other split. -/
theorem mem_of_splits {before before' after after' : List Stage} (h : before ++ s :: after = plan.steps)
    (h' : before' ++ s' :: after' = plan.steps) : s ∈ before' ∨ s = s' ∨ s' ∈ before := by
  rcases List.append_eq_append_iff.mp (h.trans h'.symm) with ⟨between, rfl, heq⟩ | ⟨between, rfl, heq⟩
  · cases between with
    | nil => exact .inr (.inl (List.cons.inj heq).1)
    | cons t between =>
        rw [(List.cons.inj heq).1]
        exact .inl (List.mem_append_right _ List.mem_cons_self)
  · cases between with
    | nil => exact .inr (.inl (List.cons.inj heq).1.symm)
    | cons t between =>
        rw [(List.cons.inj heq).1]
        exact .inr (.inr (List.mem_append_right _ List.mem_cons_self))

theorem promise_of_passed {c : Config} (hend : ∃ data, c.execution = .succeeded .completeSaga data)
    (hstatus : status orderId c.world = some statusCompleted) (htrail : Trail flaky c.log)
    (hpassed : ∀ s, Passed c.log s) :
    FlakyPromise orderId flaky c ∧ succeedsOn flaky .createOrder ∉ [2, 3, 4] := by
  have hfirst : succeedsOn flaky .createOrder ∉ [2, 3, 4] := by
    have := htrail.first_passed (hpassed .createOrder)
    simp only [List.mem_cons, List.not_mem_nil, or_false, not_or]
    omega
  have hle : ∀ s, succeedsOn flaky s ≤ 4 := by
    intro s
    obtain ⟨i, hi, hnot⟩ := htrail.passed (hpassed s)
    exact succeedsOn_le_of_passes hnot hi
  exact ⟨{ attempts := fun s i inv hat => htrail.attempts hfirst hat
           completes := ⟨fun _ => hle, fun _ => ⟨hend, hstatus⟩⟩
           unwinds := fun _ s _ _ _ hmore => absurd (hle s) (by omega) }, hfirst⟩

theorem promise_iff_of_stopped {c : Config} (hend : ∀ data, c.execution ≠ .succeeded .completeSaga data)
    (hcaught : CaughtAt s c.log) (hstopped : Stopped flaky s c.log) :
    FlakyPromise orderId flaky c ↔ succeedsOn flaky .createOrder ∉ [2, 3, 4] := by
  obtain ⟨before, after, hplan, hpassed⟩ := hstopped.before
  have hle : ∀ s' ∈ before, succeedsOn flaky s' ≤ 4 := by
    intro s' hs'
    obtain ⟨i, hi, hnot⟩ := hstopped.trail.passed (hpassed s' hs')
    exact succeedsOn_le_of_passes hnot hi
  constructor
  · -- Each attempt of the first step raises, also the one that was to return.
    intro hpromise hmem
    rcases mem_of_splits hplan (rfl : [] ++ Stage.createOrder :: _ = plan.steps) with hnone | rfl | hbefore
    · cases hnone
    · obtain ⟨i, hi, hn⟩ : ∃ i : Nat, i < 4 ∧ (i + 1 : Int) = succeedsOn flaky .createOrder := by
        simp only [List.mem_cons, List.not_mem_nil, or_false] at hmem
        rcases hmem with h | h | h
        · exact ⟨1, by decide, by rw [h]; rfl⟩
        · exact ⟨2, by decide, by rw [h]; rfl⟩
        · exact ⟨3, by decide, by rw [h]; rfl⟩
      have hat := List.getElem?_eq_getElem (by rw [hstopped.full]; exact hi :
        i < (attemptsAt c.log .createOrder).length)
      obtain ⟨result, hreturned⟩ := (hpromise.attempts _ i _ hat).2 hn
      rcases hstopped.trail.fits _ i _ hat with ⟨_, e, _, hraised⟩ | ⟨hnot, _⟩
      · cases hreturned.symm.trans hraised
      · exact hnot hstopped.fails
    · have := hstopped.trail.first_passed (hpassed _ hbefore)
      simp only [List.mem_cons, List.not_mem_nil, or_false] at hmem
      omega
  · intro hfirst
    have hmore : 4 < succeedsOn flaky s := by
      have hfails := hstopped.fails
      simp only [List.mem_cons, List.not_mem_nil, or_false, not_or] at hfirst
      unfold Fails at hfails
      split at hfails
      · rename_i hs
        subst hs
        omega
      · omega
    exact {
      attempts := fun s i inv hat => hstopped.trail.attempts hfirst hat
      completes := by
        constructor
        · rintro ⟨⟨data, hdata⟩, _⟩
          exact absurd hdata (hend data)
        · intro hall
          have := hall s
          omega
      unwinds := by
        intro before' s' after' hplan' hle' hmore'
        rcases mem_of_splits hplan hplan' with hmem | rfl | hmem
        · have := hle' s hmem
          omega
        · exact hcaught
        · have := hle s' hmem
          omega }

/-- How a run for a flaky order ends. -/
theorem promise_iff {c : Config} (horder : FlakyOrder py orderId flaky input)
    (hreach : ReflTransGen (Step py Uninterrupted) ((workflow py).init input table₀) c)
    (hstuck : Transition.Stuck (Step py Uninterrupted) c) :
    FlakyPromise orderId flaky c ↔ succeedsOn flaky .createOrder ∉ [2, 3, 4] := by
  rcases flaking_ended (flaking_reachable horder hreach) horder hstuck with
    ⟨hend, hstatus, htrail, hpassed⟩ | ⟨s, hend, hcaught, hstopped⟩
  · have ⟨hpromise, hfirst⟩ : FlakyPromise orderId flaky c ∧ _ :=
      promise_of_passed hend hstatus htrail hpassed
    exact ⟨fun _ => hfirst, fun _ => hpromise⟩
  · exact promise_iff_of_stopped hend hcaught hstopped

/-- In every run the steps succeed on the attempts that were asked for, and the run ends
    as it has to, if and only if the first step is not asked to succeed on its second, third
    or fourth attempt. -/
theorem flakyPromise_iff (horder : FlakyOrder py orderId flaky input) (table₀ : Table)
    (run : Transition.MaximalRun (Step py Uninterrupted) ((workflow py).init input table₀)) :
    (∃ n, Transition.Stuck (Step py Uninterrupted) (run.state n)) ∧
    ∀ n, Transition.Stuck (Step py Uninterrupted) (run.state n) →
      (FlakyPromise orderId flaky (run.state n) ↔ succeedsOn flaky .createOrder ∉ [2, 3, 4]) :=
  ⟨Workflow.halts machine_descends machine_budget run,
    fun n hstuck => promise_iff horder (run.reachable n) hstuck⟩

/-! ## Sample runs -/

/-- The order of the sample input, with one step that is to succeed on its second attempt. -/
def flakyInput (s : Stage) : Json := .obj [("order", .obj [("order_id", .str "ord-1001"),
    ("customer_id", .str "cust-42"), ("amount", .num (.float (.finite 149))),
    ("currency", .str "USD"), ("items", .arr [.obj [("sku", .str "SKU-1"), ("qty", .num (.int 2))]])]),
  ("fail_at", .null), ("flaky_steps", .obj [(s.name, .num (.int 2))])]

theorem flakyInput_order (s : Stage) :
    FlakyOrder .sample "ord-1001" [(s.name, .num (.int 2))] (flakyInput s) where
  order := ⟨_, rfl, {
    id := rfl
    named := by decide
    amount := ⟨.finite 149, 149, rfl, by decide, rfl⟩
    items := ⟨_, 1, rfl, rfl, rfl⟩ }⟩
  failAt := rfl
  steps := rfl
  positive s' v hlookup := by
    rw [List.lookup_cons] at hlookup
    split at hlookup
    · exact ⟨2, by decide, (Option.some.inj hlookup).symm⟩
    · cases hlookup

/-- An execution whose payment succeeds on its second attempt. -/
def retriedPayment : Nat → Config :=
  (workflow .sample).trajectory (answer .sample) (fun _ => .smooth)
    ((workflow .sample).init (flakyInput .chargePayment) fun _ => none)

theorem retriedPayment_ends :
    (workflow .sample).advance (answer .sample) .smooth (retriedPayment 7) = none :=
  Option.isNone_iff_eq_none.mp (by decide +kernel)

theorem retriedPayment_not_lost :
    ∀ n < 7, ∀ inv ∈ (retriedPayment (n + 1)).log, inv.outcome.isLost = false := by
  decide +kernel

def retriedPaymentRun : Transition.MaximalRun (Step .sample Uninterrupted)
    ((workflow .sample).init (flakyInput .chargePayment) fun _ => none) :=
  scheduled (answer .sample) answer_exec (fun _ => .smooth) _ 7
    (fun n hn inv hmem => uninterrupted_of_not_lost (retriedPayment_not_lost n hn inv hmem))
    retriedPayment_ends

theorem flakyPromise_iff_retriedPayment :
    (∃ n, Transition.Stuck (Step .sample Uninterrupted) (retriedPaymentRun.state n)) ∧
    ∀ n, Transition.Stuck (Step .sample Uninterrupted) (retriedPaymentRun.state n) →
      (FlakyPromise "ord-1001" [("charge_payment", .num (.int 2))] (retriedPaymentRun.state n) ↔
        succeedsOn [("charge_payment", .num (.int 2))] .createOrder ∉ [2, 3, 4]) :=
  flakyPromise_iff (flakyInput_order .chargePayment) (fun _ => none) retriedPaymentRun

/-- The first step never succeeds on its second attempt. -/
theorem flakyPromise_counterexample :
    ¬ ∀ (py : Python) (orderId : String) (flaky : List (String × Json)) (input : Json) (table₀ : Table),
      FlakyOrder py orderId flaky input →
      ∀ run : Transition.MaximalRun (Step py Uninterrupted) ((workflow py).init input table₀),
        ∀ n, Transition.Stuck (Step py Uninterrupted) (run.state n) →
          FlakyPromise orderId flaky (run.state n) := by
  intro h
  have hstart : ReflTransGen (Step .sample Uninterrupted)
      ((workflow .sample).init (flakyInput .createOrder) fun _ => none)
      ((workflow .sample).init (flakyInput .createOrder) fun _ => none) := .refl
  obtain ⟨run, _⟩ := Transition.MaximalRun.exists_through hstart
  obtain ⟨n, hstuck⟩ := Workflow.halts machine_descends machine_budget run
  have horder := flakyInput_order .createOrder
  have hpromise := h .sample _ _ _ _ horder run n hstuck
  exact (promise_iff horder (run.reachable n) hstuck).mp hpromise (by decide)

end OrderSaga
