-- SUMMARY: The saga refines its plan: wherever an execution stands, it is in a phase of the plan, and every step is matched by steps of the plan.
import ServerlessPatterns.Library.Compensation
import ServerlessPatterns.Saga.Books

/-!
# Progress

The relation between an execution and a phase of the plan, and the proof that
steps preserve it. The attempts considered are tidy: one that is given up has
not yet written its step or the status. The order's input may hold anything
besides the order.
-/

namespace OrderSaga

open Asl Workflow Program Relation

/-- The data hold the result of a stage, with something to undo. -/
def Available (data : Json) (log : List Attempted) (u : Undo) : Prop :=
  ∃ inv ∈ log, ∃ result d, inv.state = u.stage.state ∧ inv.outcome = .returned result ∧
    data.get ["results", u.stage.resultKey] = some result ∧ u.detail result = some d ∧
    d.hasFloat = false

/-- The stage had an attempt that did not return. -/
def Failed (log : List Attempted) (s : Stage) : Prop :=
  ∃ inv ∈ log, inv.state = s.state ∧ ∀ result, inv.outcome ≠ .returned result

/-- A compensation was invoked. -/
def Compensated (log : List Attempted) : Prop := ∃ inv ∈ log, ∃ u : Undo, inv.state = u.state

/-- All attempts were of stages, of compensations, or of the given states. -/
def Visited (others : List StateName) (log : List Attempted) : Prop :=
  ∀ inv ∈ log, (∃ s : Stage, inv.state = s.state) ∨ (∃ u : Undo, inv.state = u.state) ∨
    inv.state ∈ others

/-- An execution and the phase of the plan it is in. -/
inductive Tracks (orderId : String) (input : Json) (table₀ : Table) :
    Config → Compensation.Phase Stage Undo → Prop where
  | initializing {left} (hfiled : Filed orderId table₀) (hinput : ForOrder orderId input) :
      Tracks orderId input table₀ ⟨.running .initializeSaga input left, table₀, []⟩ plan.start
  | performing {done s todo data left table log}
      (hbooks : Books orderId table₀ done [] [] table log) (hdata : Carries orderId input data)
      (havailable : ∀ u : Undo, u.stage ∈ done → Available data log u)
      (hlog : Visited [] log) (hnone : ¬ Compensated log) :
      Tracks orderId input table₀ ⟨.running (Stage.state s) data left, table, log⟩
        (.forward done (s :: todo))
  | completing {done data n table log}
      (hbooks : Books orderId table₀ done [] [] table log) (hdata : Carries orderId input data)
      (hlog : Visited [.completeSaga] log) (hnone : ¬ Compensated log)
      (hcount : failures log .completeSaga = n) (hn : n ≤ 3) :
      Tracks orderId input table₀ ⟨.running .completeSaga data [3 - n], table, log⟩
        (.forward done [])
  | undoing {done failed undone u todo data left table log}
      (hbooks : Books orderId table₀ done undone [] table log) (hdata : Carries orderId input data)
      (herror : ∃ fields, data.get ["error"] = some (.obj fields))
      (havailable : ∀ u' ∈ u :: todo, Available data log u')
      (hlog : Visited [] log) (hfailed : Failed log failed) :
      Tracks orderId input table₀ ⟨.running (Undo.state u) data left, table, log⟩
        (.compensating done failed undone (u :: todo))
  | closing {done failed undone data m table log}
      (hbooks : Books orderId table₀ done undone [] table log) (hdata : Carries orderId input data)
      (herror : ∃ fields, data.get ["error"] = some (.obj fields))
      (hlog : Visited [.markFailed] log) (hfailed : Failed log failed)
      (hroom : Writable input ∨ ¬ Compensated log)
      (hcount : failures log .markFailed = m) (hm : m ≤ 4) :
      Tracks orderId input table₀ ⟨.running .markFailed data [4 - m], table, log⟩
        (.compensating done failed undone [])
  | completed {done data table log}
      (hbooks : Books orderId table₀ done [] [.completeSaga] table log)
      (hdone : done.reverse = plan.steps) (hstatus : status orderId table = some statusCompleted)
      (hlog : Visited [.completeSaga] log) (hnone : ¬ Compensated log)
      (hcount : failures log .completeSaga ≤ 3) :
      Tracks orderId input table₀ ⟨.succeeded .completeSaga data, table, log⟩ .completed
  | rolledBack {done failed undone err table log}
      (hbooks : Books orderId table₀ done undone [.markFailed] table log)
      (hstatus : status orderId table = some statusFailed)
      (hlog : Visited [.markFailed] log) (hfailed : Failed log failed)
      (hroom : Writable input ∨ ¬ Compensated log) (hcount : failures log .markFailed ≤ 4) :
      Tracks orderId input table₀ ⟨.failed .sagaFailed err, table, log⟩
        (.rolledBack done failed undone)
  /-- `CompleteSaga` used up its retries. -/
  | incomplete {err table log} (hraises : OnlyStagesRaise log)
      (hcount : failures log .completeSaga = 4) :
      Tracks orderId input table₀ ⟨.failed .completeSaga err, table, log⟩ .abandoned
  /-- `MarkFailed` used up its retries. -/
  | unmarked {err table log} (hraises : OnlyStagesRaise log)
      (hcount : failures log .markFailed = 5) :
      Tracks orderId input table₀ ⟨.failed .markFailed err, table, log⟩ .abandoned
  /-- A compensation used up its retries. -/
  | uncompensated {u err table log} (hraises : OnlyStagesRaise log) (hlog : Visited [] log)
      (hfailed : ∃ inv ∈ log, inv.state = Undo.state u ∧ ∀ result, inv.outcome ≠ .returned result)
      (hroom : Writable input) :
      Tracks orderId input table₀ ⟨.failed .compensationFailed err, table, log⟩ .abandoned
  /-- A compensation had nowhere to put its result. -/
  | blocked {u err table log} (hinvoked : Compensated log) (hroom : ¬ Writable input) :
      Tracks orderId input table₀ ⟨.failed (Undo.state u) err, table, log⟩ .abandoned

variable {py : Python} {allowed : Attempted → Prop} {orderId : String} {input : Json}
  {table₀ table : Table} {done : List Stage} {s : Stage} {todo : List Stage} {data : Json}
  {left : List Nat} {log : List Attempted} {inv : Attempted} {c c' : Config}

theorem Available.append {data' : Json} {u : Undo} (h : Available data log u)
    (hdata : data'.get ["results", u.stage.resultKey] = data.get ["results", u.stage.resultKey]) :
    Available data' (log ++ [inv]) u := by
  obtain ⟨inv', hmem, result, d, hstate, houtcome, hresult, hd⟩ := h
  exact ⟨inv', List.mem_append_left _ hmem, result, d, hstate, houtcome, hdata.trans hresult, hd⟩

theorem Failed.append (h : Failed log s) : Failed (log ++ [inv]) s := by
  obtain ⟨inv', hmem, hfailed⟩ := h
  exact ⟨inv', List.mem_append_left _ hmem, hfailed⟩

theorem Visited.append {others : List StateName} (h : Visited others log)
    (hinv : (∃ s : Stage, inv.state = s.state) ∨ (∃ u : Undo, inv.state = u.state) ∨
      inv.state ∈ others) : Visited others (log ++ [inv]) := by
  intro inv' hmem
  rcases List.mem_append.mp hmem with hmem | hmem
  · exact h inv' hmem
  · rw [List.mem_singleton.mp hmem]
    exact hinv

theorem Visited.mono {others others' : List StateName} (h : Visited others log)
    (hsub : others ⊆ others') : Visited others' log :=
  fun inv hmem => (h inv hmem).imp_right fun hrest => hrest.imp_right fun hother => hsub hother

theorem not_compensated_append (h : ¬ Compensated log) (hinv : ∀ u : Undo, inv.state ≠ u.state) :
    ¬ Compensated (log ++ [inv]) := by
  rintro ⟨inv', hmem, u, heq⟩
  rcases List.mem_append.mp hmem with hmem | hmem
  · exact h ⟨inv', hmem, u, heq⟩
  · rw [List.mem_singleton.mp hmem] at heq
    exact hinv u heq

theorem Visited.failures_eq_zero {others : List StateName} (h : Visited others log) {s : StateName}
    (hstage : ∀ s' : Stage, s'.state ≠ s) (hundo : ∀ u : Undo, u.state ≠ s) (hother : s ∉ others) :
    failures log s = 0 := by
  apply Workflow.failures_eq_zero
  intro inv hmem heq
  rcases h inv hmem with ⟨s', hs'⟩ | ⟨u, hu⟩ | hmem'
  · exact hstage s' (hs'.symm.trans heq)
  · exact hundo u (hu.symm.trans heq)
  · exact hother (heq ▸ hmem')

/-- A step at a task, with the saga's own handlers. -/
theorem task_step (name : StateName) {t : Task StateName Function} {handler : Json → Handler Json}
    (hstate : machine.states name = .task t) (hdirect : t.Direct)
    (hhandler : function py t.resource = handler)
    (h : Step py allowed ⟨.running name data left, table, log⟩ c') :
    ∃ calls outcome table' execution,
      Attempt (exec py) (handler data) table calls outcome table' ∧
      allowed ⟨name, data, calls, outcome⟩ ∧
      c' = ⟨execution, table', log ++ [⟨name, data, calls, outcome⟩]⟩ ∧
      Concludes machine name t data left outcome execution := by
  subst hhandler
  refine Workflow.Step.direct ?_ hdirect h
  exact hstate

/-! ## Forward -/

theorem enter_stage (s : Stage) (data : Json) :
    machine.enter s.state data = .running s.state data s.task.freshRetries := by
  cases s <;> rfl

theorem enter_undo (u : Undo) (data : Json) :
    machine.enter u.state data = .running u.state data u.task.freshRetries := by
  cases u <;> rfl

/-- What is left of the forward steps is entered. -/
theorem tracks_forward (hbooks : Books orderId table₀ done [] [] table log)
    (hdata : Carries orderId input data)
    (havailable : ∀ u : Undo, u.stage ∈ done → Available data log u)
    (hlog : Visited [] log) (hnone : ¬ Compensated log) (todo : List Stage) :
    Tracks orderId input table₀ ⟨machine.enter (forwardState todo) data, table, log⟩
      (.forward done todo) := by
  cases todo with
  | nil =>
      have hzero : failures log .completeSaga = 0 :=
        hlog.failures_eq_zero (fun _ => stage_state_ne_completeSaga)
          (fun _ => undo_state_ne_completeSaga) (by simp)
      exact .completing hbooks hdata (hlog.mono (by simp)) hnone hzero (by decide)
  | cons s todo =>
      unfold forwardState
      rw [enter_stage]
      exact .performing hbooks hdata havailable hlog hnone

/-- What is left of the compensations is entered. -/
theorem tracks_compensating {failed : Stage} {undone : List Undo}
    (hbooks : Books orderId table₀ done undone [] table log) (hdata : Carries orderId input data)
    (herror : ∃ fields, data.get ["error"] = some (.obj fields)) (todo : List Undo)
    (havailable : ∀ u ∈ todo, Available data log u) (hlog : Visited [] log)
    (hfailed : Failed log failed) (hroom : Writable input ∨ ¬ Compensated log) :
    Tracks orderId input table₀ ⟨machine.enter (undoState todo) data, table, log⟩
      (.compensating done failed undone todo) := by
  cases todo with
  | nil =>
      have hzero : failures log .markFailed = 0 :=
        hlog.failures_eq_zero (fun _ => stage_state_ne_markFailed)
          (fun _ => undo_state_ne_markFailed) (by simp)
      exact .closing hbooks hdata herror (hlog.mono (by simp)) hfailed hroom hzero (by decide)
  | cons u todo =>
      unfold undoState
      rw [enter_undo]
      exact .undoing hbooks hdata herror havailable hlog hfailed

theorem performing_step (hstep : Step py allowed ⟨.running s.state data left, table, log⟩ c')
    (hallowed : ∀ inv, allowed inv → Tidy inv) (hsound : done.reverse ++ s :: todo = plan.steps)
    (hbooks : Books orderId table₀ done [] [] table log) (hdata : Carries orderId input data)
    (havailable : ∀ u : Undo, u.stage ∈ done → Available data log u)
    (hlog : Visited [] log) (hnone : ¬ Compensated log) :
    ∃ p', ReflTransGen (Compensation.Step plan) (.forward done (s :: todo)) p' ∧
      Tracks orderId input table₀ c' p' := by
  obtain ⟨calls, outcome, table', execution, hattempt, hinv, rfl, hend⟩ :=
    task_step _ s.states_state s.direct s.function_resource hstep
  obtain ⟨hnext, honError, _⟩ := plan_split hsound
  have hlog' : Visited [] (log ++ [⟨s.state, data, calls, outcome⟩]) := hlog.append (.inl ⟨s, rfl⟩)
  have hnone' : ¬ Compensated (log ++ [⟨s.state, data, calls, outcome⟩]) :=
    not_compensated_append hnone fun u => stage_state_ne_undo
  rcases hbooks.forward hattempt (idOf_of_forOrder hdata.order) (hallowed _ hinv) with
    ⟨hfailed, hbooks'⟩ | ⟨performed, hfits, rfl, hbooks'⟩
  · -- The attempt failed: there is a retry, or the compensations begin.
    obtain ⟨err, rfl⟩ := hend.fault hfailed
    rcases machine.fault_retry_or_caught s.state s.task data left err with
      ⟨i, _, hretry⟩ | hcaught
    · rw [hretry]
      exact ⟨_, .refl, .performing hbooks' hdata
        (fun u hu => (havailable u hu).append rfl) hlog' hnone'⟩
    · obtain ⟨data', hput, hdata', herror, hresults⟩ := hdata.put_error err.output
      rw [hcaught, Machine.caught_all s.task_catchers, hput, honError]
      refine ⟨_, .single .fail, tracks_compensating hbooks' hdata' ⟨_, herror⟩ _ ?_ hlog'
        ⟨_, List.mem_append_right _ List.mem_cons_self, rfl, hfailed⟩ (.inr hnone')⟩
      intro u hu
      obtain ⟨s', hs', hundo⟩ := List.mem_filterMap.mp hu
      rw [← undo_eq_some.mp hundo] at hs'
      exact (havailable u hs').append (hresults _)
  · -- The attempt returned: its result is put into the data.
    obtain ⟨context, rfl⟩ := hend.complete
    obtain ⟨data', hput, hdata', hvalue, hresults⟩ :=
      hdata.put_result s.resultKey performed.result
    rw [← s.task_resultPath] at hput
    rw [Machine.complete_next s.direct hput s.task_next, hnext]
    refine ⟨_, .single .perform, tracks_forward hbooks' hdata' ?_ hlog' hnone' todo⟩
    intro u hu
    by_cases hus : u.stage = s
    · obtain ⟨d, hd, hfloat, _⟩ := hfits u (undo_eq_some.mpr hus)
      exact ⟨_, List.mem_append_right _ List.mem_cons_self, performed.result, d, by rw [hus], rfl,
        by rw [hus, hvalue], hd, hfloat⟩
    · have hold : u.stage ∈ done := (List.mem_cons.mp hu).resolve_left hus
      exact (havailable u hold).append
        (hresults _ fun hkey => hus (Stage.resultKey_injective hkey))

theorem completing_step {n : Nat}
    (hstep : Step py allowed ⟨.running .completeSaga data [3 - n], table, log⟩ c')
    (hne : orderId ≠ "") (hsound : done.reverse = plan.steps)
    (hbooks : Books orderId table₀ done [] [] table log) (hdata : Carries orderId input data)
    (hlog : Visited [.completeSaga] log) (hnone : ¬ Compensated log)
    (hcount : failures log .completeSaga = n) (hn : n ≤ 3) :
    ∃ p', ReflTransGen (Compensation.Step plan) (.forward done []) p' ∧
      Tracks orderId input table₀ c' p' := by
  obtain ⟨calls, outcome, table', execution, hattempt, _, rfl, hend⟩ :=
    task_step .completeSaga rfl completeSaga_direct rfl hstep
  have hid := idOf_of_forOrder hdata.order
  obtain ⟨order, horder⟩ := orderOf_of_idOf hid
  have hlog' : Visited [.completeSaga] (log ++ [⟨.completeSaga, data, calls, outcome⟩]) :=
    hlog.append (.inr (.inr List.mem_cons_self))
  have hnone' : ¬ Compensated (log ++ [⟨.completeSaga, data, calls, outcome⟩]) :=
    not_compensated_append hnone fun u => Ne.symm undo_state_ne_completeSaga
  rcases hbooks.close (completeSaga_setsStatus horder) hattempt hne hid rfl
      (fun _ => Ne.symm stage_state_ne_completeSaga) with
    ⟨rfl, hbooks'⟩ | ⟨answer, rfl, hstatus, hbooks'⟩
  · -- The retries are counted down, and there is no catcher after the last.
    obtain ⟨err, rfl⟩ := hend.fault nofun
    have hcount' : failures (log ++ [⟨.completeSaga, data, calls, .lost⟩]) .completeSaga = n + 1 := by
      rw [failures_append_failed rfl (by simp), hcount]
    rw [Machine.fault_retryAll (t := completeSagaTask) rfl]
    by_cases hleft : 0 < 3 - n
    · rw [if_pos hleft, Nat.sub_sub]
      exact ⟨_, .refl, .completing hbooks' hdata hlog' hnone' hcount' (by omega)⟩
    · rw [if_neg hleft, Machine.caught_none (t := completeSagaTask) rfl]
      exact ⟨_, .single .abandonForward, .incomplete hbooks'.raises (by omega)⟩
  · obtain ⟨context, rfl⟩ := hend.complete
    obtain ⟨data', hput, _⟩ := hdata.put_result "completion" answer
    rw [Machine.complete_end completeSaga_direct hput rfl]
    refine ⟨_, .single .complete, .completed hbooks' hsound hstatus hlog' hnone' ?_⟩
    rw [failures_append_returned rfl]
    omega

/-! ## Backward -/

theorem undoing_step {failed : Stage} {undone : List Undo} {u : Undo} {todo : List Undo}
    (hstep : Step py allowed ⟨.running u.state data left, table, log⟩ c') (hne : orderId ≠ "")
    (hallowed : ∀ inv, allowed inv → Tidy inv)
    (hsteps : ∃ after : List Stage, done.reverse ++ failed :: after = plan.steps)
    (hundo : undone ++ u :: todo = done.filterMap plan.undo)
    (hbooks : Books orderId table₀ done undone [] table log) (hdata : Carries orderId input data)
    (herror : ∃ fields, data.get ["error"] = some (.obj fields))
    (havailable : ∀ u' ∈ u :: todo, Available data log u') (hlog : Visited [] log)
    (hfailed : Failed log failed) :
    ∃ p', ReflTransGen (Compensation.Step plan) (.compensating done failed undone (u :: todo)) p' ∧
      Tracks orderId input table₀ c' p' := by
  obtain ⟨calls, outcome, table', execution, hattempt, hinv, rfl, hend⟩ :=
    task_step _ u.states_state u.direct u.function_resource hstep
  obtain ⟨after, hafter⟩ := hsteps
  obtain ⟨_, _, hchain⟩ := plan_split hafter
  have hsuffix : u :: todo <:+ chain := by
    rw [← hundo] at hchain
    exact (List.suffix_append _ _).trans hchain
  have hnew : u ∉ undone := by
    have hnodup : (undone ++ u :: todo).Nodup := by
      rw [hundo]
      exact List.Nodup.sublist hchain.sublist (by decide)
    intro hmem
    exact (List.nodup_append.mp hnodup).2.2 u hmem u List.mem_cons_self rfl
  have hdone : done ≠ [] := by
    rintro rfl
    simp at hundo
  obtain ⟨inv, hmem, result, d, hstate, houtcome, hresult, hd, hfloat⟩ :=
    havailable u List.mem_cons_self
  have hlog' : Visited [] (log ++ [⟨u.state, data, calls, outcome⟩]) :=
    hlog.append (.inr (.inl ⟨u, rfl⟩))
  have hinvoked : Compensated (log ++ [⟨u.state, data, calls, outcome⟩]) :=
    ⟨_, List.mem_append_right _ List.mem_cons_self, u, rfl⟩
  rcases hbooks.undo hattempt hne (idOf_of_forOrder hdata.order) hdone hnew
      ⟨inv, hmem, hstate, houtcome⟩ hresult hd hfloat (hallowed _ hinv) with
    ⟨rfl, hbooks'⟩ | ⟨answer, rfl, hbooks'⟩
  · obtain ⟨err, rfl⟩ := hend.fault nofun
    rcases machine.fault_retry_or_caught u.state u.task data left err with
      ⟨i, _, hretry⟩ | hcaught
    · rw [hretry]
      exact ⟨_, .refl, .undoing hbooks' hdata herror
        (fun u' hu' => (havailable u' hu').append rfl) hlog' hfailed.append⟩
    · rw [hcaught, Machine.caught_all u.task_catchers]
      rcases hdata.put_compensation "error" err.output with
        ⟨hroom, hput⟩ | ⟨hroom, data', hput, _⟩
      · rw [hput]
        exact ⟨_, .single .abandonCompensating, .blocked hinvoked hroom⟩
      · rw [hput]
        exact ⟨_, .single .abandonCompensating, .uncompensated hbooks'.raises hlog'
          ⟨_, List.mem_append_right _ List.mem_cons_self, rfl, nofun⟩ hroom⟩
  · obtain ⟨context, rfl⟩ := hend.complete
    rcases hdata.put_compensation u.name answer with
      ⟨hroom, hput⟩ | ⟨hroom, data', hput, hdata', herror', hresults⟩
    · rw [← u.task_resultPath] at hput
      rw [Machine.complete_misfit u.direct hput]
      exact ⟨_, .single .abandonCompensating, .blocked hinvoked hroom⟩
    · rw [← u.task_resultPath] at hput
      rw [Machine.complete_next u.direct hput u.task_next, undo_next hsuffix]
      exact ⟨_, .single .compensate, tracks_compensating hbooks' hdata'
        (by rw [herror']; exact herror) todo
        (fun u' hu' => (havailable u' (List.mem_cons_of_mem _ hu')).append (hresults _)) hlog'
        hfailed.append (.inl hroom)⟩

theorem closing_step {failed : Stage} {undone : List Undo} {m : Nat}
    (hstep : Step py allowed ⟨.running .markFailed data [4 - m], table, log⟩ c')
    (hne : orderId ≠ "")
    (hbooks : Books orderId table₀ done undone [] table log) (hdata : Carries orderId input data)
    (herror : ∃ fields, data.get ["error"] = some (.obj fields)) (hlog : Visited [.markFailed] log)
    (hfailed : Failed log failed) (hroom : Writable input ∨ ¬ Compensated log)
    (hcount : failures log .markFailed = m) (hm : m ≤ 4) :
    ∃ p', ReflTransGen (Compensation.Step plan) (.compensating done failed undone []) p' ∧
      Tracks orderId input table₀ c' p' := by
  obtain ⟨calls, outcome, table', execution, hattempt, _, rfl, hend⟩ :=
    task_step .markFailed rfl markFailed_direct rfl hstep
  have hid := idOf_of_forOrder hdata.order
  obtain ⟨order, horder⟩ := orderOf_of_idOf hid
  have hlog' : Visited [.markFailed] (log ++ [⟨.markFailed, data, calls, outcome⟩]) :=
    hlog.append (.inr (.inr List.mem_cons_self))
  have hroom' : Writable input ∨ ¬ Compensated (log ++ [⟨.markFailed, data, calls, outcome⟩]) :=
    hroom.imp_right fun hnone => not_compensated_append hnone fun u => Ne.symm undo_state_ne_markFailed
  obtain ⟨fields, herror⟩ := herror
  rw [Json.get_single] at herror
  rcases hbooks.close (markFailed_setsStatus horder herror) hattempt hne hid rfl
      (fun _ => Ne.symm stage_state_ne_markFailed) with
    ⟨rfl, hbooks'⟩ | ⟨answer, rfl, hstatus, hbooks'⟩
  · obtain ⟨err, rfl⟩ := hend.fault nofun
    have hcount' : failures (log ++ [⟨.markFailed, data, calls, .lost⟩]) .markFailed = m + 1 := by
      rw [failures_append_failed rfl (by simp), hcount]
    rw [Machine.fault_retryAll (t := markFailedTask) rfl]
    by_cases hleft : 0 < 4 - m
    · rw [if_pos hleft, Nat.sub_sub]
      exact ⟨_, .refl, .closing hbooks' hdata ⟨fields, by rw [Json.get_single, herror]⟩ hlog'
        hfailed.append hroom' hcount' (by omega)⟩
    · rw [if_neg hleft, Machine.caught_none (t := markFailedTask) rfl]
      exact ⟨_, .single .abandonCompensating, .unmarked hbooks'.raises (by omega)⟩
  · obtain ⟨context, rfl⟩ := hend.complete
    obtain ⟨data', hput, _⟩ := hdata.put_result "mark_failed" answer
    rw [Machine.complete_next markFailed_direct hput rfl]
    refine ⟨_, .single .finish, .rolledBack hbooks' hstatus hlog' hfailed.append hroom' ?_⟩
    rw [failures_append_returned rfl]
    omega

/-! ## Every step -/

theorem initializing_step
    (hstep : Step py allowed ⟨.running .initializeSaga input left, table₀, []⟩ c')
    (hfiled : Filed orderId table₀) (hinput : ForOrder orderId input) :
    Tracks orderId input table₀ c' plan.start := by
  obtain ⟨order, horder, hid⟩ := hinput
  rw [Json.get_single] at horder
  cases input with
  | obj fields =>
      have hput := Json.put_single "results" (.obj []) fields
      have hapart : ∀ key, key ≠ "results" →
          (Json.obj (Fields.put "results" (.obj []) fields)).get [key] =
            (Json.obj fields).get [key] :=
        fun key hne => Json.get_put_apart hput (.inl (Ne.symm hne))
      have hdata : Carries orderId (.obj fields) (.obj (Fields.put "results" (.obj []) fields)) :=
        { order := ⟨order, by rw [hapart _ (by decide), Json.get_single, horder], hid⟩
          results := ⟨[], Json.get_put hput⟩
          compensation := writable_congr (hapart _ (by decide)) }
      have hforward := tracks_forward (books_start hfiled) hdata (by simp) (by simp [Visited])
        (by simp [Compensated]) plan.steps
      cases hstep with
      | pass hstate hput' =>
          cases hstate
          cases hput.symm.trans hput'
          exact hforward
      | passError hstate hput' =>
          cases hstate
          cases hput.symm.trans hput'
      | route hroute => cases hroute
      | routeError hroute => cases hroute
      | attempt hstate => cases hstate
      | eventError hstate => cases hstate
  | _ => simp [Json.field] at horder

/-- Every step of the saga is matched by steps of its plan. -/
theorem tracks_step (hne : orderId ≠ "") (hallowed : ∀ inv, allowed inv → Tidy inv) :
    Transition.Simulates (Step py allowed) (Compensation.Step plan)
      fun c p => plan.Sound p ∧ Tracks orderId input table₀ c p := by
  rintro c c' p ⟨hsound, htracks⟩ hstep
  have hstuck : ∀ execution, c.execution = execution →
      (∀ s data left, execution ≠ .running s data left) → False := by
    rintro execution rfl hended
    exact stuck_of_ended hended c' hstep
  obtain ⟨p', hsteps, htracks'⟩ : ∃ p', ReflTransGen (Compensation.Step plan) p p' ∧
      Tracks orderId input table₀ c' p' := by
    cases htracks with
    | initializing hfiled hinput => exact ⟨_, .refl, initializing_step hstep hfiled hinput⟩
    | performing hbooks hdata havailable hlog hnone =>
        exact performing_step hstep hallowed hsound hbooks hdata havailable hlog hnone
    | completing hbooks hdata hlog hnone hcount hn =>
        have hdone := hsound
        unfold Compensation.Plan.Sound at hdone
        exact completing_step hstep hne (by simpa using hdone) hbooks hdata hlog hnone hcount hn
    | undoing hbooks hdata herror havailable hlog hfailed =>
        exact undoing_step hstep hne hallowed hsound.1 hsound.2 hbooks hdata herror havailable hlog
          hfailed
    | closing hbooks hdata herror hlog hfailed hroom hcount hm =>
        exact closing_step hstep hne hbooks hdata herror hlog hfailed hroom hcount hm
    | completed => exact (hstuck _ rfl nofun).elim
    | rolledBack => exact (hstuck _ rfl nofun).elim
    | incomplete => exact (hstuck _ rfl nofun).elim
    | unmarked => exact (hstuck _ rfl nofun).elim
    | uncompensated => exact (hstuck _ rfl nofun).elim
    | blocked => exact (hstuck _ rfl nofun).elim
  exact ⟨p', hsteps, Compensation.sound_steps hsound hsteps, htracks'⟩

/-- Wherever an execution stands, it is in a phase of the plan. -/
theorem tracks_reachable (hne : orderId ≠ "") (hallowed : ∀ inv, allowed inv → Tidy inv)
    (hfiled : Filed orderId table₀) (hinput : ForOrder orderId input)
    (h : ReflTransGen (Step py allowed) ((workflow py).init input table₀) c) :
    ∃ p, plan.Sound p ∧ Tracks orderId input table₀ c p := by
  obtain ⟨p, _, hp⟩ := (tracks_step hne hallowed).reachable
    ⟨Compensation.sound_start, .initializing hfiled hinput⟩ h
  exact ⟨p, hp⟩

/-! ## The end of a run -/

/-- Attempts that end as `fate` says are allowed. -/
def Permits (py : Python) (allowed : Attempted → Prop) (fate : Fate) : Prop :=
  ∀ s event (p : Handler Json) table,
    allowed ⟨s, event, (p.run (answer py) fate.cut table).1, (p.run (answer py) fate.cut table).2.1⟩

/-- An execution that is under way can go on. -/
theorem Tracks.ended {p : Compensation.Phase Stage Undo}
    (h : Tracks orderId input table₀ c p) (fate : Fate) (hgo : Permits py allowed fate)
    (hstuck : Transition.Stuck (Step py allowed) c) :
    ∀ s data left, c.execution ≠ .running s data left := by
  have hstep : ∀ {s t data left table log}, machine.states s = .task t →
      ¬ Transition.Stuck (Step py allowed) ⟨.running s data left, table, log⟩ := by
    intro s t data left table log hstate hstuck
    obtain ⟨c', hc'⟩ : ∃ c', Step py allowed ⟨.running s data left, table, log⟩ c' :=
      Workflow.exists_step answer_exec fate hgo hstate data left table log
    exact hstuck c' hc'
  cases h with
  | initializing hfiled hinput =>
      cases hput : input.put ["results"] (.obj []) with
      | none => exact absurd (.passError (rfl : machine.states .initializeSaga = _) hput) (hstuck _)
      | some data => exact absurd (.pass (rfl : machine.states .initializeSaga = _) hput) (hstuck _)
  | performing => exact absurd hstuck (hstep (Stage.states_state _))
  | completing => exact absurd hstuck (hstep rfl)
  | undoing => exact absurd hstuck (hstep (Undo.states_state _))
  | closing => exact absurd hstuck (hstep rfl)
  | _ => exact nofun

/-- Every run ends, and it ends in a phase of the plan with nothing under way. -/
theorem run_ends (hne : orderId ≠ "") (hallowed : ∀ inv, allowed inv → Tidy inv)
    (fate : Fate) (hgo : Permits py allowed fate) (hfiled : Filed orderId table₀)
    (hinput : ForOrder orderId input)
    (run : Transition.MaximalRun (Step py allowed) ((workflow py).init input table₀)) :
    (∃ n, Transition.Stuck (Step py allowed) (run.state n)) ∧
    ∀ n, Transition.Stuck (Step py allowed) (run.state n) →
      (∀ s data left, (run.state n).execution ≠ .running s data left) ∧
      ∃ p, plan.Sound p ∧ Tracks orderId input table₀ (run.state n) p := by
  refine ⟨Workflow.halts machine_descends machine_budget run, fun n hstuck => ?_⟩
  obtain ⟨p, hsound, htracks⟩ := tracks_reachable hne hallowed hfiled hinput (run.reachable n)
  exact ⟨htracks.ended fate hgo hstuck, p, hsound, htracks⟩

end OrderSaga
