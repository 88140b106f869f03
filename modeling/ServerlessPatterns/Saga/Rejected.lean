-- SUMMARY: Orders that fail their own validation: which records an execution for such an order can change.
import ServerlessPatterns.Saga.Courses

/-!
# Rejected orders

An order that is rejected is never started. Its execution still goes on to `MarkFailed`,
which sets the status of whatever record the table holds under the same id.
-/

namespace OrderSaga

open Asl Program Relation

/-- The order of the event has an id, and fails the validation of `create_order`. -/
def Rejected (py : Python) (event : Json) : Prop :=
  ∃ order given amount items, orderOf event = .ok order ∧
    Python.getD order "amount" (.num (.int 0)) = .ok given ∧ py.float given = .ok amount ∧
    Python.get order "items" = .ok items ∧
    (amount.nonpos = true ∨ (items.orElse (.arr [])).truthy = false)

/-- However the execution goes, it comes to an end, and then all records that were there
    before are as they were. -/
def RecordsUntouched (py : Python) (input : Json) (table₀ : Table) : Prop :=
  ∀ run : Transition.MaximalRun (Step py fun _ => True) ((workflow py).init input table₀),
    (∃ n, Transition.Stuck (Step py fun _ => True) (run.state n)) ∧
    ∀ n, Transition.Stuck (Step py fun _ => True) (run.state n) →
      ∀ k item, table₀ k = some item → (run.state n).world k = some item

variable {py : Python} {input event id : Json} {table table' table₀ : Table} {k : String}
  {allowed : Attempted → Prop}

/-! ## Other records -/

theorem Uses.subject {s : StateName} {op : Op} (h : Uses id s op) : ∀ id' ∈ op.subject, id' = id := by
  cases h with
  | draws => exact nofun
  | _ => exact fun id' heq => (Option.some.inj heq).symm

/-- An attempt writes no record but that of its order. -/
theorem attempt_others {s : StateName} {t : Task StateName Function} (hstate : machine.states s = .task t)
    {calls : List (Event Op Ans)} {outcome : Outcome Exc Json}
    (h : Attempt (exec py) (function py t.resource event) table calls outcome table')
    (hne : Table.keyOf (idOf event) ≠ .ok k) : table' k = table k := by
  have hexpected : ∀ call ∈ calls, Answers call.1 call.2 :=
    h.effects.answered fun _ _ _ _ => answers_of_exec
  have hcourse : Course (idOf event) s [] (function py t.resource event) := handler_course hstate
  refine h.effects.preserves (P := fun t => t k = table k) (fun call hmem t t' hsame hexec => ?_) rfl
  obtain ⟨_, huses, _⟩ := Follows.calls hcourse h.calls hexpected call hmem
  rw [record_same hexec fun id hid => huses.subject id hid ▸ hne, hsame]

/-- Where an execution can be that has only changed the record of its own order. -/
structure KeepsOthers (id : Json) (table₀ : Table) (c : Config) : Prop where
  about : ∀ s data left, c.execution = .running s data left → idOf data = id
  others : ∀ k, Table.keyOf id ≠ .ok k → c.world k = table₀ k

theorem keepsOthers_step {c c' : Config} (h : KeepsOthers id table₀ c) (hstep : Step py allowed c c') :
    KeepsOthers id table₀ c' where
  about s' data' left' hat := by
    obtain ⟨s, data, left, hbefore, hget⟩ := hstep.get_kept machine_leavesAlone hat
    rw [idOf_of_get hget]
    exact h.about s data left hbefore
  others k hne := by
    rw [← h.others k hne]
    cases hstep with
    | attempt hstate hevent hattempt _ _ =>
        refine attempt_others hstate hattempt ?_
        rw [(task_direct hstate).event, Option.some.injEq] at hevent
        rw [← hevent, h.about _ _ _ rfl]
        exact hne
    | _ => rfl

/-- In every state of an execution the records of other orders are as they were. -/
theorem keepsOthers_reachable {c : Config}
    (h : ReflTransGen (Step py allowed) ((workflow py).init input table₀) c) :
    KeepsOthers (idOf input) table₀ c := by
  refine Transition.invariant (P := KeepsOthers (idOf input) table₀) h ?_ fun _ _ => keepsOthers_step
  refine ⟨fun s data left hat => ?_, fun _ _ => rfl⟩
  cases hat
  rfl

/-! ## The record of the order -/

theorem Rejected.congr {event' : Json} (h : Rejected py event) (horder : orderOf event' = orderOf event) :
    Rejected py event' := by
  obtain ⟨order, given, amount, items, hok, hrest⟩ := h
  exact ⟨order, given, amount, items, horder.trans hok, hrest⟩

/-- The validation refuses the order before anything is written. -/
theorem Rejected.createOrder_raises (h : Rejected py event) :
    ∃ message, createOrder py event = .raise (sagaBusinessError message) := by
  obtain ⟨order, given, amount, items, horder, hgiven, hamount, hitems, hfails⟩ := h
  unfold createOrder
  simp only [horder, hgiven, hamount, hitems, ofExcept_ok, ret_bind]
  by_cases hnonpos : amount.nonpos = true
  · rw [if_pos hnonpos]
    exact ⟨_, rfl⟩
  · have hempty := hfails.resolve_left hnonpos
    rw [if_neg hnonpos, hempty]
    exact ⟨_, rfl⟩

/-- The status of a record that is there can be set, at a time other than that of its
    last update. -/
theorem setStatus_changes (py : Python) (newStatus : Json) {fields : List (String × Json)} (hne : k ≠ "")
    (hread : table k = some (.obj fields)) (hfloat : newStatus.hasFloat = false) :
    ∃ table', exec py (.setStatus (.str k) newStatus) table (.ok ()) table' ∧
      table' k ≠ some (.obj fields) := by
  obtain ⟨time, htime⟩ : ∃ time : Int, fields.lookup "updated_at" ≠ some (SagaStore.seconds time) := by
    by_contra hnone
    have hall : ∀ time, fields.lookup "updated_at" = some (SagaStore.seconds time) :=
      fun time => not_not.mp (not_exists.mp hnone time)
    have heq := (hall 0).symm.trans (hall 1)
    simp [SagaStore.seconds] at heq
  obtain ⟨fields', hupdated, hlookup⟩ : ∃ fields',
      Table.updated (SagaStore.statusClauses (fun _ => time) newStatus) (.obj fields) =
        some (.obj fields') ∧ fields'.lookup "updated_at" = some (SagaStore.seconds time) :=
    ⟨_, rfl, Fields.lookup_put_self⟩
  have hupdate : table.updateItem "order_id" (.str k)
      (SagaStore.statusClauses (fun _ => time) newStatus) none =
        (.ok (.obj fields'), table.write k (.obj fields')) := by
    refine Table.updateItem_ok hne ?_ (by simp) (by rw [hread]; exact hupdated)
    simp [SagaStore.statusClauses, Operand.hasFloat, Json.hasFloat, hfloat, SagaStore.seconds]
  refine ⟨table.write k (.obj fields'), ⟨fun _ => time, ?_⟩, ?_⟩
  · simp only [SagaStore.setStatus, hupdate]
    rfl
  · rw [Table.write_self]
    intro heq
    rw [Json.obj.inj (Option.some.inj heq)] at hlookup
    exact htime hlookup

/-- The data with which `CreateOrder` begins. -/
def seeded (inputFields : List (String × Json)) : Json := .obj (Fields.put "results" (.obj []) inputFields)

/-- The data with which `MarkFailed` begins. -/
def failedData (inputFields : List (String × Json)) (message : String) : Json :=
  .obj (Fields.put "error" (TaskError.output ⟨"SagaBusinessError", message⟩)
    (Fields.put "results" (.obj []) inputFields))

/-- An execution for a rejected order comes to its end with the record of the order
    changed, when there is one. -/
theorem rejected_overwrites {fields : List (String × Json)} (hrejected : Rejected py input) (hne : k ≠ "")
    (hid : idOf input = .str k) (hread : table₀ k = some (.obj fields)) :
    ∃ c, ReflTransGen (Step py fun _ => True) ((workflow py).init input table₀) c ∧
      (∃ err, c.execution = .failed .sagaFailed err) ∧ c.world k ≠ some (.obj fields) := by
  obtain ⟨inputFields, rfl⟩ : ∃ inputFields, input = .obj inputFields := by
    obtain ⟨order, given, amount, items, horder, _⟩ := hrejected
    cases input with
    | obj inputFields => exact ⟨inputFields, rfl⟩
    | _ => cases horder
  -- The validation is about the order alone, so it refuses the seeded data, too.
  have hresults := Json.put_single "results" (.obj []) inputFields
  have horder := orderOf_put hresults (.inl (by decide))
  obtain ⟨message, hraises⟩ := (hrejected.congr horder).createOrder_raises
  have hrefused : Attempt (exec py) (createOrder py (seeded inputFields)) table₀ []
      (.raised (sagaBusinessError message)) table₀ := by
    change Attempt (exec py) (createOrder py (.obj _)) table₀ [] _ table₀
    rw [hraises]
    exact ⟨calls_raise.mpr ⟨rfl, .inl rfl⟩, .nil⟩
  -- The error is not one that is retried, and it is put into the data.
  have hfailed : Step py (fun _ => True)
      ⟨.running .createOrder (seeded inputFields) createOrderTask.freshRetries, table₀, []⟩
      ⟨.running .markFailed (failedData inputFields message) markFailedTask.freshRetries, table₀,
        [] ++ [⟨.createOrder, seeded inputFields, [], .raised (sagaBusinessError message)⟩]⟩ :=
    attempt_step rfl Stage.createOrder.direct hrefused trivial .raised rfl
  have hid' : idOf (failedData inputFields message) = .str k := by
    have herror := Json.put_single "error" (TaskError.output ⟨"SagaBusinessError", message⟩)
      (Fields.put "results" (.obj []) inputFields)
    exact (idOf_put herror (.inl (by decide))).trans ((idOf_put hresults (.inl (by decide))).trans hid)
  obtain ⟨order, horder'⟩ := orderOf_of_idOf hid'
  obtain ⟨result, hmark⟩ := markFailed_setsStatus horder' Fields.lookup_put_self
  obtain ⟨table', hexec, hchanged⟩ := setStatus_changes py statusFailed hne hread rfl
  have hmarked : Attempt (exec py) (markFailed (failedData inputFields message)) table₀
      [⟨.setStatus (.str k) statusFailed, .ok ()⟩] (.returned result) table' := by
    rw [hmark, hid']
    exact ⟨calls_call.mpr (.inr ⟨.ok (), [], rfl, calls_ret.mpr ⟨rfl, .inl rfl⟩⟩), .cons hexec .nil⟩
  -- The results are still an object, so that of `MarkFailed` has its place.
  obtain ⟨data, hput⟩ : ∃ data, (failedData inputFields message).put markFailedTask.resultPath
      (markFailedTask.wrap result) = some data := by
    refine Json.put_pair _ _ _ fun parent hparent => ⟨[], ?_⟩
    rw [Fields.lookup_put_ne (by decide), Fields.lookup_put_self] at hparent
    exact (Option.some.inj hparent).symm
  have hended : Step py (fun _ => True)
      ⟨.running .markFailed (failedData inputFields message) markFailedTask.freshRetries, table₀,
        [] ++ [⟨.createOrder, seeded inputFields, [], .raised (sagaBusinessError message)⟩]⟩
      ⟨machine.enter .sagaFailed data, table', _⟩ :=
    attempt_step rfl markFailed_direct hmarked trivial (.returned (by decide))
      (Machine.complete_next markFailed_direct hput rfl)
  exact ⟨_, .tail (.tail (.single seed_step) hfailed) hended, ⟨_, rfl⟩, hchanged⟩

/-! ## Which tables are safe -/

/-- A record of the order is overwritten in some execution. -/
theorem not_untouched {item : Json} (hrejected : Rejected py input) (hkeyed : table₀.Keyed "order_id")
    (hkey : Table.keyOf (idOf input) = .ok k) (hread : table₀ k = some item) :
    ¬ RecordsUntouched py input table₀ := by
  intro huntouched
  obtain ⟨hid, hne⟩ := Table.keyOf_eq_ok hkey
  obtain ⟨fields, rfl⟩ : ∃ fields, item = .obj fields := by
    have hcarries := hkeyed k item hread
    cases item with
    | obj fields => exact ⟨fields, rfl⟩
    | _ => simp [Json.field] at hcarries
  obtain ⟨c, hreach, ⟨err, hended⟩, hchanged⟩ := rejected_overwrites hrejected hne hid hread
  obtain ⟨run, n, rfl⟩ := Transition.MaximalRun.exists_through hreach
  have hstuck : Transition.Stuck (Step py fun _ => True) (run.state n) :=
    Workflow.stuck_of_ended fun s data left hrunning => by cases hended.symm.trans hrunning
  exact hchanged ((huntouched run).2 n hstuck k _ hread)

/-- An execution for a rejected order leaves all records as they were, however it goes,
    if and only if the table holds none under the id of the order. -/
theorem recordsUntouched_iff (hrejected : Rejected py input) (hkeyed : table₀.Keyed "order_id") :
    RecordsUntouched py input table₀ ↔ ∀ k, Table.keyOf (idOf input) = .ok k → table₀ k = none := by
  constructor
  · intro huntouched k hkey
    by_contra hsome
    obtain ⟨item, hread⟩ := Option.ne_none_iff_exists'.mp hsome
    exact not_untouched hrejected hkeyed hkey hread huntouched
  · intro hnone run
    refine ⟨Workflow.halts machine_descends machine_budget run, fun n _ k item hread => ?_⟩
    have hkept : KeepsOthers (idOf input) table₀ (run.state n) := keepsOthers_reachable (run.reachable n)
    by_cases hkey : Table.keyOf (idOf input) = .ok k
    · rw [hnone k hkey] at hread
      cases hread
    · rw [hkept.others k hkey, hread]

/-! ## A completed order that is submitted again -/

/-- The order of the sample input, with an amount of zero. -/
def rejectedInput : Json := .obj [("order", .obj [("order_id", .str "ord-1001"),
    ("customer_id", .str "cust-42"), ("amount", .num (.int 0)), ("currency", .str "USD"),
    ("items", .arr [.obj [("sku", .str "SKU-1"), ("qty", .num (.int 2))]])]),
  ("fail_at", .null), ("flaky_steps", .obj [])]

/-- The record of an order that was completed before. -/
def completedTable : Table :=
  Table.write (fun _ => none) "ord-1001" (.obj [("order_id", .str "ord-1001"), ("status", statusCompleted),
    ("step_status", .obj []), ("attempts", .obj [])])

theorem rejectedInput_rejected : Rejected .sample rejectedInput :=
  ⟨_, _, .finite 0, _, rfl, rfl, rfl, rfl, .inl rfl⟩

theorem completedTable_keyed : completedTable.Keyed "order_id" :=
  Table.keyed_write (fun _ _ hread => by cases hread) rfl

theorem recordsUntouched_iff_rejectedInput : RecordsUntouched .sample rejectedInput completedTable ↔
    ∀ k, Table.keyOf (idOf rejectedInput) = .ok k → completedTable k = none :=
  recordsUntouched_iff rejectedInput_rejected completedTable_keyed

theorem recordsUntouched_counterexample :
    ¬ ∀ (py : Python) (input : Json) (table₀ : Table), Rejected py input → table₀.Keyed "order_id" →
      RecordsUntouched py input table₀ := by
  intro h
  exact not_untouched rejectedInput_rejected completedTable_keyed rfl Table.write_self
    (h .sample rejectedInput completedTable rejectedInput_rejected completedTable_keyed)

end OrderSaga
