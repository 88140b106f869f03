-- SUMMARY: How the state machine wires stages and compensations together: which state comes next, and what becomes of the state data.
import ServerlessPatterns.Saga.Stages

/-!
# Wiring

Facts about the machine alone. The state of a stage is followed by that of the
next stage, or on failure by the compensations of the stages before it. Results
go to places of the state data that do not overlap.
-/

namespace OrderSaga

open Asl

/-! ## States -/

namespace Stage

theorem states_state (s : Stage) : machine.states s.state = .task s.task := by cases s <;> rfl

theorem function_resource {py : Python} (s : Stage) :
    function py s.task.resource = s.handler py := by
  cases s <;> rfl

theorem direct (s : Stage) : s.task.Direct := by cases s <;> exact ⟨rfl, rfl, rfl⟩

theorem task_resultPath (s : Stage) : s.task.resultPath = ["results", s.resultKey] := by
  cases s <;> rfl

theorem task_next (s : Stage) : s.task.next = some s.next := by cases s <;> rfl

theorem name_injective {s s' : Stage} (h : s.name = s'.name) : s = s' := by
  cases s <;> cases s' <;> first | rfl | exact absurd h (by decide)

theorem task_catchers (s : Stage) :
    s.task.catchers = [⟨["States.ALL"], ["error"], s.onError⟩] := by
  cases s <;> rfl

theorem state_injective {s s' : Stage} (h : s.state = s'.state) : s = s' := by
  cases s <;> cases s' <;> first | rfl | cases h

theorem resultKey_injective {s s' : Stage} (h : s.resultKey = s'.resultKey) : s = s' := by
  cases s <;> cases s' <;> first | rfl | exact absurd h (by decide)

end Stage

namespace Undo

theorem states_state (u : Undo) : machine.states u.state = .task u.task := by cases u <;> rfl

theorem function_resource {py : Python} (u : Undo) : function py u.task.resource = u.handler := by
  cases u <;> rfl

theorem direct (u : Undo) : u.task.Direct := by cases u <;> exact ⟨rfl, rfl, rfl⟩

theorem task_resultPath (u : Undo) : u.task.resultPath = ["compensation", u.name] := by
  cases u <;> rfl

theorem task_next (u : Undo) : u.task.next = some u.next := by cases u <;> rfl

theorem task_catchers (u : Undo) :
    u.task.catchers = [⟨["States.ALL"], ["compensation", "error"], .compensationFailed⟩] := by
  cases u <;> rfl

theorem name_injective {u u' : Undo} (h : u.name = u'.name) : u = u' := by
  cases u <;> cases u' <;> first | rfl | exact absurd h (by decide)

theorem state_injective {u u' : Undo} (h : u.state = u'.state) : u = u' := by
  cases u <;> cases u' <;> first | rfl | cases h

end Undo

theorem undo_eq_some {s : Stage} {u : Undo} : s.undo = some u ↔ u.stage = s := by
  cases s <;> cases u <;> decide

theorem stage_state_ne_undo {s : Stage} {u : Undo} : s.state ≠ u.state := by
  cases s <;> cases u <;> nofun

theorem stage_state_ne_completeSaga {s : Stage} : s.state ≠ .completeSaga := by cases s <;> nofun

theorem stage_state_ne_markFailed {s : Stage} : s.state ≠ .markFailed := by cases s <;> nofun

theorem undo_state_ne_completeSaga {u : Undo} : u.state ≠ .completeSaga := by cases u <;> nofun

theorem undo_state_ne_markFailed {u : Undo} : u.state ≠ .markFailed := by cases u <;> nofun

theorem completeSaga_direct : completeSagaTask.Direct := ⟨rfl, rfl, rfl⟩

theorem markFailed_direct : markFailedTask.Direct := ⟨rfl, rfl, rfl⟩

theorem task_resultPath_apart {s : StateName} {t : Task StateName Function}
    (h : machine.states s = .task t) : t.resultPath.Apart ["order"] := by
  cases s <;> cases h <;> exact .inl (by decide)

theorem catcher_resultPath_apart {s : StateName} {t : Task StateName Function}
    (h : machine.states s = .task t) {c : Catcher StateName} (hc : c ∈ t.catchers) :
    c.resultPath.Apart ["order"] := by
  cases s <;> cases h <;> cases hc <;> first | exact .inl (by decide) | contradiction

theorem task_direct {s : StateName} {t : Task StateName Function} (h : machine.states s = .task t) :
    t.Direct := by
  cases s <;> cases h <;> exact ⟨rfl, rfl, rfl⟩

theorem task_ne_sagaFailed {s : StateName} {t : Task StateName Function}
    (h : machine.states s = .task t) : s ≠ .sagaFailed := by
  rintro rfl
  cases h

theorem task_ne_initializeSaga {s : StateName} {t : Task StateName Function}
    (h : machine.states s = .task t) : s ≠ .initializeSaga := by
  rintro rfl
  cases h

/-- No catcher leads to the end of a saga that was rolled back, or writes where results are. -/
theorem catcher_spec {s : StateName} {t : Task StateName Function} (h : machine.states s = .task t)
    {c : Catcher StateName} (hc : c ∈ t.catchers) :
    c.next ≠ .sagaFailed ∧ ∀ stage : Stage, c.resultPath.Apart ["results", stage.resultKey] := by
  cases s <;> cases h <;> cases hc <;> first | exact ⟨by decide, fun _ => .inl (by decide)⟩ | contradiction

/-- Where a task without a successor leads. -/
theorem eq_completeSaga_of_end {s : StateName} {t : Task StateName Function}
    (h : machine.states s = .task t) (hnext : t.next = none) : s = .completeSaga := by
  cases s <;> cases h <;> first | rfl | cases hnext

/-- Only the last bookkeeping leads to the end of a saga that was rolled back. -/
theorem next_spec {s s' : StateName} {t : Task StateName Function} (h : machine.states s = .task t)
    (hnext : t.next = some s') : s ≠ .completeSaga ∧ (s' = .sagaFailed ↔ s = .markFailed) := by
  cases s <;> cases h <;> cases hnext <;> decide

/-- Only the stage itself writes to where its result is. -/
theorem paths_apart {s : StateName} {t : Task StateName Function} {stage : Stage}
    (h : machine.states s = .task t) (hstage : s ≠ stage.state) :
    t.resultPath.Apart ["results", stage.resultKey] ∧
      ∀ c ∈ t.catchers, c.resultPath.Apart ["results", stage.resultKey] := by
  cases stage <;> cases s <;> cases h <;> revert hstage <;> decide

/-! ## Transitions -/

/-- The state that performs the rest of the forward steps. -/
def forwardState : List Stage → StateName
  | [] => .completeSaga
  | s :: _ => s.state

/-- The state that runs the rest of the compensations. -/
def undoState : List Undo → StateName
  | [] => .markFailed
  | u :: _ => u.state

/-- All compensations, in the order of the machine. -/
def chain : List Undo := [.releaseInventory, .refundPayment, .cancelOrder]

/-- Where a forward step can stand in the plan. -/
theorem plan_split {done : List Stage} {s : Stage} {todo : List Stage}
    (h : done.reverse ++ s :: todo = plan.steps) :
    s.next = forwardState todo ∧ s.onError = undoState (done.filterMap plan.undo) ∧
      done.filterMap plan.undo <:+ chain := by
  match done, h with
  | [], h =>
      obtain ⟨rfl, rfl⟩ : s = .createOrder ∧
          todo = [.chargePayment, .reserveInventory, .scheduleShipment] := by simpa [plan] using h
      decide
  | [_], h =>
      obtain ⟨rfl, rfl, rfl⟩ : _ = Stage.createOrder ∧ s = .chargePayment ∧
          todo = [.reserveInventory, .scheduleShipment] := by simpa [plan] using h
      decide
  | [_, _], h =>
      obtain ⟨rfl, rfl, rfl, rfl⟩ : _ = Stage.createOrder ∧ _ = Stage.chargePayment ∧
          s = .reserveInventory ∧ todo = [.scheduleShipment] := by simpa [plan] using h
      decide
  | [_, _, _], h =>
      obtain ⟨rfl, rfl, rfl, rfl, rfl⟩ : _ = Stage.createOrder ∧ _ = Stage.chargePayment ∧
          _ = Stage.reserveInventory ∧ s = .scheduleShipment ∧ todo = [] := by simpa [plan] using h
      decide
  | _ :: _ :: _ :: _ :: _, h =>
      have hlength := congrArg List.length h
      simp [plan] at hlength
      omega

theorem undo_next {u : Undo} {todo : List Undo} (h : u :: todo <:+ chain) :
    u.next = undoState todo := by
  simp only [chain, List.suffix_cons_iff, List.cons.injEq, List.suffix_nil, reduceCtorEq,
    or_false] at h
  rcases h with ⟨rfl, rfl⟩ | ⟨rfl, rfl⟩ | ⟨rfl, rfl⟩
  · rfl
  · rfl
  · rfl

/-- The state data are seeded with an empty object for the results. -/
theorem seed_step {py : Python} {allowed : Attempted → Prop} {fields : List (String × Json)} {table : Table} :
    Step py allowed ((workflow py).init (.obj fields) table)
      ⟨.running .createOrder (.obj (Fields.put "results" (.obj []) fields)) createOrderTask.freshRetries,
        table, []⟩ := by
  have hpass : Workflow.Step (workflow py) allowed ⟨.running .initializeSaga (.obj fields) [], table, []⟩
      ⟨(workflow py).machine.enter .createOrder (.obj (Fields.put "results" (.obj []) fields)), table, []⟩ :=
    .pass rfl (Json.put_single "results" (.obj []) fields)
  exact hpass

/-- An attempt that was reported on leads to where the machine goes with the report. -/
theorem attempt_step {py : Python} {allowed : Attempted → Prop} {s : StateName} {t : Task StateName Function}
    {data : Json} {left : List Nat} {table table' : Table} {log : List Attempted}
    {calls : List (Program.Event Op Ans)} {outcome : Program.Outcome Exc Json}
    {report : Except TaskError Json} {execution : Execution StateName}
    (hstate : machine.states s = .task t) (hdirect : t.Direct)
    (hattempt : Program.Attempt (exec py) (function py t.resource data) table calls outcome table')
    (hallowed : allowed ⟨s, data, calls, outcome⟩) (hreport : Workflow.Reported t outcome report)
    (hnext : machine.resume s t .null data left report = execution) :
    Step py allowed ⟨.running s data left, table, log⟩
      ⟨execution, table', log ++ [⟨s, data, calls, outcome⟩]⟩ := by
  subst hnext
  exact Workflow.Step.attempt hstate hdirect.event hattempt hallowed hreport

/-- How many states can still follow. -/
def rank : StateName → Nat
  | .initializeSaga => 9
  | .createOrder => 8
  | .chargePayment => 7
  | .reserveInventory => 6
  | .scheduleShipment => 5
  | .completeSaga => 4
  | .releaseInventory => 4
  | .refundPayment => 3
  | .cancelOrder => 2
  | .markFailed => 1
  | .sagaFailed => 0
  | .compensationFailed => 0

theorem machine_descends : Workflow.Descends machine rank where
  pass s result path next h := by
    cases s <;> cases h
    decide
  route s s' data h := by
    cases s <;> cases h
  next s t h := by
    cases s <;> cases h <;> decide
  catcher s t h := by
    cases s <;> cases h <;> decide

theorem machine_budget (s : StateName) (t : Task StateName Function)
    (h : machine.states s = .task t) : t.freshRetries.sum ≤ 7 := by
  cases s <;> cases h <;> decide

/-! ## State data -/

/-- The event is about the order with this id. -/
def ForOrder (orderId : String) (event : Json) : Prop :=
  ∃ order, event.get ["order"] = some (.obj order) ∧ order.lookup "order_id" = some (.str orderId)

theorem idOf_of_forOrder {orderId : String} {event : Json} (h : ForOrder orderId event) :
    idOf event = .str orderId := by
  obtain ⟨order, horder, hid⟩ := h
  rw [Json.get_single] at horder
  cases event with
  | obj fields =>
      rw [Json.field_obj] at horder
      have heq : orderOf (.obj fields) = .ok (.obj order) := by
        simp only [orderOf, Python.get_obj, horder, Option.getD_some, Bind.bind, Except.bind, hid,
          Option.isSome_some, if_true]
        rfl
      simp [idOf, heq, orderIdOf, hid]
  | _ => simp [Json.field] at horder

theorem forOrder_of_idOf (h : idOf event = .str orderId) : ForOrder orderId event := by
  cases event with
  | obj fields =>
      unfold idOf at h
      cases hlookup : fields.lookup "order" with
      | none => simp [orderOf, hlookup, Bind.bind, Except.bind] at h
      | some order =>
          cases order with
          | obj order =>
              cases hid : order.lookup "order_id" with
              | none => simp [orderOf, hlookup, hid, Bind.bind, Except.bind] at h
              | some id =>
                  refine ⟨order, by simp [hlookup], ?_⟩
                  simpa [orderOf, hlookup, hid, Bind.bind, Except.bind, Pure.pure, Except.pure, orderIdOf]
                    using h
          | _ => simp [orderOf, hlookup, Bind.bind, Except.bind] at h
  | _ => simp [idOf, orderOf, Python.get, Bind.bind, Except.bind] at h

theorem ForOrder.put {orderId : String} {data data' : Json} {path : Json.Path}
    {value : Json} (h : ForOrder orderId data) (hput : data.put path value = some data')
    (hapart : path.Apart ["order"]) : ForOrder orderId data' := by
  unfold ForOrder
  rw [Json.get_put_apart hput hapart]
  exact h

theorem orderOf_put {data data' : Json} {path : Json.Path} {value : Json}
    (hput : data.put path value = some data') (hapart : path.Apart ["order"]) :
    orderOf data' = orderOf data := by
  have hget := Json.get_put_apart hput hapart
  cases path with
  | nil => exact hapart.elim
  | cons key rest =>
      cases data with
      | obj fields =>
          simp only [Json.put, Option.map_eq_some_iff] at hput
          obtain ⟨child, _, rfl⟩ := hput
          rw [Json.get_single, Json.get_single, Json.field_obj, Json.field_obj] at hget
          simp only [orderOf, Python.get_obj, hget]
      | _ => simp [Json.put] at hput

/-- What is put elsewhere does not change which order the data are about. -/
theorem idOf_put {data data' : Json} {path : Json.Path} {value : Json}
    (hput : data.put path value = some data') (hapart : path.Apart ["order"]) :
    idOf data' = idOf data := by
  simp only [idOf, orderOf_put hput hapart]

/-- Which order the data are about is read from the order alone. -/
theorem idOf_of_get {data data' : Json} (h : data'.get ["order"] = data.get ["order"]) :
    idOf data' = idOf data := by
  have hread : ∀ data : Json,
      idOf data = (((data.get ["order"]).getD .null).field "order_id").getD .null := by
    intro data
    rw [Json.get_single]
    cases data with
    | obj fields =>
        simp only [idOf, orderOf, Python.get_obj, Json.field_obj]
        cases fields.lookup "order" with
        | none => rfl
        | some order =>
            cases order with
            | obj order => cases hid : order.lookup "order_id" <;>
                simp [hid, Bind.bind, Except.bind, orderIdOf, Pure.pure, Except.pure]
            | _ => rfl
    | _ => rfl
  rw [hread, hread, h]

theorem machine_leavesAlone : Workflow.LeavesAlone machine ["order"] where
  pass s result resultPath next h := by
    cases s <;> cases h
    exact .inl (by decide)
  task s t h := task_resultPath_apart h
  catcher s t h c hc := catcher_resultPath_apart h hc

/-- A compensation can put its result into the data. -/
def Writable (data : Json) : Prop :=
  ∀ parent, data.get ["compensation"] = some parent → ∃ fields, parent = .obj fields

/-- What the state data keep of the input on the way. -/
structure Carries (orderId : String) (input data : Json) : Prop where
  order : ForOrder orderId data
  results : ∃ fields, data.get ["results"] = some (.obj fields)
  compensation : Writable data ↔ Writable input

variable {orderId key : String} {input data data' value : Json}

theorem Carries.of_get (h : Carries orderId input data)
    (horder : data'.get ["order"] = data.get ["order"])
    (hresults : ∃ fields, data'.get ["results"] = some (.obj fields))
    (hcompensation : Writable data' ↔ Writable data) : Carries orderId input data' where
  order := by
    unfold ForOrder
    rw [horder]
    exact h.order
  results := hresults
  compensation := hcompensation.trans h.compensation

theorem Carries.obj (h : Carries orderId input data) : ∃ fields, data = .obj fields := by
  obtain ⟨fields, hresults⟩ := h.results
  cases data with
  | obj fields => exact ⟨fields, rfl⟩
  | _ => simp [Json.field] at hresults

theorem results_of_get {key : String} (h : data.get ["results", key] = some value) :
    ∃ fields, data.get ["results"] = some (.obj fields) := by
  obtain ⟨fields, hfield⟩ := Json.field_of_get h
  exact ⟨fields, by rw [Json.get_single, hfield]⟩

theorem writable_congr (h : data'.get ["compensation"] = data.get ["compensation"]) :
    Writable data' ↔ Writable data := by
  unfold Writable
  rw [h]

/-- The result of a forward step goes to its own key. -/
theorem Carries.put_result (h : Carries orderId input data) (key : String) (value : Json) :
    ∃ data', data.put ["results", key] value = some data' ∧ Carries orderId input data' ∧
      data'.get ["results", key] = some value ∧
      ∀ key', key' ≠ key → data'.get ["results", key'] = data.get ["results", key'] := by
  obtain ⟨fields, rfl⟩ := h.obj
  obtain ⟨results, hresults⟩ := h.results
  rw [Json.get_single, Json.field_obj] at hresults
  obtain ⟨data', hput⟩ := Json.put_pair "results" key value fun parent hparent =>
    ⟨results, Option.some.inj (hparent.symm.trans hresults)⟩
  have hvalue := Json.get_put hput
  refine ⟨data', hput, h.of_get ?_ (results_of_get hvalue) (writable_congr ?_), hvalue, ?_⟩
  · exact Json.get_put_apart hput (.inl (by decide))
  · exact Json.get_put_apart hput (.inl (by decide))
  · intro key' hne
    exact Json.get_put_apart hput (.inr ⟨rfl, .inl (Ne.symm hne)⟩)

/-- An error caught on the way forward goes to `$.error`. -/
theorem Carries.put_error (h : Carries orderId input data) (value : Json) :
    ∃ data', data.put ["error"] value = some data' ∧ Carries orderId input data' ∧
      data'.get ["error"] = some value ∧
      ∀ key, data'.get ["results", key] = data.get ["results", key] := by
  obtain ⟨fields, rfl⟩ := h.obj
  have hput := Json.put_single "error" value fields
  have hapart : ∀ key rest, key ≠ "error" →
      (Json.obj (Fields.put "error" value fields)).get (key :: rest) =
        (Json.obj fields).get (key :: rest) :=
    fun key rest hne => Json.get_put_apart hput (.inl (Ne.symm hne))
  refine ⟨_, hput, h.of_get (hapart _ _ (by decide)) ?_ (writable_congr (hapart _ _ (by decide))),
    Json.get_put hput, fun key => hapart _ _ (by decide)⟩
  obtain ⟨results, hresults⟩ := h.results
  exact ⟨results, by rw [hapart _ _ (by decide), hresults]⟩

/-- The result of a compensation goes below `$.compensation`, if there is room. -/
theorem Carries.put_compensation (h : Carries orderId input data) (key : String) (value : Json) :
    (¬ Writable input ∧ data.put ["compensation", key] value = none) ∨
    (Writable input ∧ ∃ data', data.put ["compensation", key] value = some data' ∧
      Carries orderId input data' ∧ data'.get ["error"] = data.get ["error"] ∧
      ∀ key, data'.get ["results", key] = data.get ["results", key]) := by
  obtain ⟨fields, rfl⟩ := h.obj
  cases hput : (Json.obj fields).put ["compensation", key] value with
  | none =>
      refine .inl ⟨fun hwritable => ?_, rfl⟩
      obtain ⟨data', hdata'⟩ := Json.put_pair "compensation" key value fun parent hparent =>
        h.compensation.mpr hwritable parent (by rw [Json.get_single, Json.field_obj, hparent])
      cases hput.symm.trans hdata'
  | some data' =>
      have hapart : ∀ key' rest, key' ≠ "compensation" →
          data'.get (key' :: rest) = (Json.obj fields).get (key' :: rest) :=
        fun key' rest hne => Json.get_put_apart hput (.inl (Ne.symm hne))
      have hwritable' : Writable data' := by
        intro parent hparent
        obtain ⟨inner, hinner⟩ := Json.field_of_get (Json.get_put hput)
        rw [Json.get_single, hinner] at hparent
        exact ⟨inner, (Option.some.inj hparent).symm⟩
      have hwritable : Writable (.obj fields) := by
        intro parent hparent
        rw [Json.get_single, Json.field_obj] at hparent
        cases parent with
        | obj inner => exact ⟨inner, rfl⟩
        | _ => simp [Json.put, hparent] at hput
      refine .inr ⟨h.compensation.mp hwritable, data', rfl,
        h.of_get (hapart _ _ (by decide)) ?_ ⟨fun _ => hwritable, fun _ => hwritable'⟩,
        hapart _ _ (by decide), fun key => hapart _ _ (by decide)⟩
      obtain ⟨results, hresults⟩ := h.results
      exact ⟨results, by rw [hapart _ _ (by decide), hresults]⟩

end OrderSaga
