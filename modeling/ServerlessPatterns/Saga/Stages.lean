-- SUMMARY: The saga as a plan: its forward steps, their compensations, and what the handler of each of them does.
import ServerlessPatterns.Library.Compensation
import ServerlessPatterns.Library.Contract
import ServerlessPatterns.Saga.StateMachine

/-!
# Stages

A stage is a forward step, an undo is a compensation. Each is tied to its state,
its handler and the name it has in the record. The contracts below say what a
handler asks the store for, in which order, and when it returns.
-/

namespace OrderSaga

open Asl Program

inductive Stage where
  | createOrder
  | chargePayment
  | reserveInventory
  | scheduleShipment
  deriving DecidableEq

inductive Undo where
  | releaseInventory
  | refundPayment
  | cancelOrder
  deriving DecidableEq

/-- Every stage but the last can be compensated. -/
def Stage.undo : Stage → Option Undo
  | .createOrder => some .cancelOrder
  | .chargePayment => some .refundPayment
  | .reserveInventory => some .releaseInventory
  | .scheduleShipment => none

def plan : Compensation.Plan Stage Undo where
  steps := [.createOrder, .chargePayment, .reserveInventory, .scheduleShipment]
  undo := Stage.undo

namespace Stage

def state : Stage → StateName
  | createOrder => .createOrder
  | chargePayment => .chargePayment
  | reserveInventory => .reserveInventory
  | scheduleShipment => .scheduleShipment

def handler (py : Python) : Stage → Json → Handler Json
  | .createOrder => OrderSaga.createOrder py
  | .chargePayment => OrderSaga.chargePayment py
  | .reserveInventory => OrderSaga.reserveInventory py
  | .scheduleShipment => OrderSaga.scheduleShipment py

def task : Stage → Task StateName Function
  | createOrder => createOrderTask
  | chargePayment => chargePaymentTask
  | reserveInventory => reserveInventoryTask
  | scheduleShipment => scheduleShipmentTask

/-- The name under which the step is recorded. -/
def name : Stage → String
  | createOrder => "create_order"
  | chargePayment => "charge_payment"
  | reserveInventory => "reserve_inventory"
  | scheduleShipment => "schedule_shipment"

/-- Where the result is put in the state data. -/
def resultKey : Stage → String
  | createOrder => "order"
  | chargePayment => "payment"
  | reserveInventory => "reservation"
  | scheduleShipment => "shipment"

def next : Stage → StateName
  | createOrder => .chargePayment
  | chargePayment => .reserveInventory
  | reserveInventory => .scheduleShipment
  | scheduleShipment => .completeSaga

def onError : Stage → StateName
  | createOrder => .markFailed
  | chargePayment => .cancelOrder
  | reserveInventory => .refundPayment
  | scheduleShipment => .releaseInventory

end Stage

namespace Undo

def state : Undo → StateName
  | releaseInventory => .releaseInventory
  | refundPayment => .refundPayment
  | cancelOrder => .cancelOrder

def handler : Undo → Json → Handler Json
  | .releaseInventory => OrderSaga.releaseInventory
  | .refundPayment => OrderSaga.refundPayment
  | .cancelOrder => OrderSaga.cancelOrder

def task : Undo → Task StateName Function
  | releaseInventory => releaseInventoryTask
  | refundPayment => refundPaymentTask
  | cancelOrder => cancelOrderTask

def name : Undo → String
  | releaseInventory => "release_inventory"
  | refundPayment => "refund_payment"
  | cancelOrder => "cancel_order"

def next : Undo → StateName
  | releaseInventory => .refundPayment
  | refundPayment => .cancelOrder
  | cancelOrder => .markFailed

/-- The stage that is compensated. -/
def stage : Undo → Stage
  | releaseInventory => .reserveInventory
  | refundPayment => .chargePayment
  | cancelOrder => .createOrder

/-- The field of the stage's result that names what there is to undo. -/
def idKey : Undo → Option String
  | releaseInventory => some "reservation_id"
  | refundPayment => some "payment_id"
  | cancelOrder => none

/-- The detail to record, given what the stage returned. Without an id there is
    nothing to undo. -/
def detail (u : Undo) (result : Json) : Option Json :=
  match u.idKey with
  | none => some (.obj [])
  | some key => ((result.field key).filter Json.truthy).map fun id => .obj [(key, id)]

/-- What `record_step` is given for that detail. -/
def sent : Undo → Json → Json
  | cancelOrder, _ => .null
  | _, d => d

/-- The undo finds the result of its stage in the event, with something to
    undo. -/
def Reads (u : Undo) (event d : Json) : Prop :=
  ∃ result, event.get ["results", u.stage.resultKey] = some result ∧ u.detail result = some d

theorem detail_of_idKey {u : Undo} {key : String} {result d : Json} (hkey : u.idKey = some key)
    (h : u.detail result = some d) :
    ∃ id, result.field key = some id ∧ id.truthy = true ∧ d = .obj [(key, id)] := by
  simp only [detail, hkey, Option.map_eq_some_iff, Option.filter_eq_some_iff] at h
  obtain ⟨id, ⟨hfield, htruthy⟩, rfl⟩ := h
  exact ⟨id, hfield, htruthy, rfl⟩

theorem sent_orElse {u : Undo} {result d : Json} (h : u.detail result = some d) :
    (u.sent d).orElse (.obj []) = d := by
  cases u with
  | cancelOrder =>
      simp only [detail, idKey, Option.some.injEq] at h
      exact h
  | releaseInventory =>
      obtain ⟨id, _, _, rfl⟩ := detail_of_idKey (u := releaseInventory) rfl h
      rfl
  | refundPayment =>
      obtain ⟨id, _, _, rfl⟩ := detail_of_idKey (u := refundPayment) rfl h
      rfl

theorem sent_hasFloat {u : Undo} {d : Json} (h : d.hasFloat = false) :
    (u.sent d).hasFloat = false := by
  cases u with
  | cancelOrder => rfl
  | _ => exact h

end Undo

/-! ## Forward steps -/

/-- The order an event is about, as the handlers read it. -/
def idOf (event : Json) : Json :=
  match orderOf event with
  | .ok order => orderIdOf order
  | .error _ => .null

theorem idOf_of_orderOf {event order : Json} (h : orderOf event = .ok order) :
    orderIdOf order = idOf event := by
  simp only [idOf, h]

/-- What the world is taken to answer: a generated id is not empty. -/
def Answers : (op : Op) → Ans op → Prop
  | .newId _, id => id ≠ ""
  | _, _ => True

theorem answers_of_exec {py : Python} {op : Op} {answer : Ans op} {table table' : Table}
    (h : exec py op table answer table') : Answers op answer := by
  cases op with
  | newId idPrefix =>
      obtain ⟨_, hex, _, rfl⟩ := h
      intro hempty
      have hlength := congrArg String.length hempty
      simp at hlength
  | _ => trivial

namespace Stage

/-- What a stage asks for before it records its step. -/
def Asks (s : Stage) (orderId : Json) : Op → Prop
  | .start id .. => s = .createOrder ∧ id = orderId
  | .incrementAttempt id _ => id = orderId
  | .newId _ => True
  | .recordStep .. | .setStatus .. => False

/-- The recorded detail and the result name the same thing to undo. -/
def Fits (s : Stage) (performed : Performed) : Prop :=
  ∀ u, s.undo = some u → ∃ d, u.detail performed.result = some d ∧ d.hasFloat = false ∧
    (u.idKey.isSome → performed.detail = d)

def Refused (s : Stage) (orderId : Json) (event : Event Op Ans) : Prop :=
  ∃ detail e, event = ⟨.recordStep orderId s.name stepDone detail, .error e⟩

def Commit (s : Stage) (orderId : Json) (event : Event Op Ans) (result : Json) : Prop :=
  ∃ performed : Performed, s.Fits performed ∧ result = performed.result ∧
    event = ⟨.recordStep orderId s.name stepDone performed.detail, .ok ()⟩

/-- The id that tells what the work of a stage was. -/
def workKey : Stage → Option String
  | createOrder => none
  | chargePayment => some "payment_id"
  | reserveInventory => some "reservation_id"
  | scheduleShipment => some "shipment_id"

/-- Two records of a stage name the same work. -/
def SameWork (s : Stage) (detail result : Json) : Prop :=
  ∀ key, s.workKey = some key → ∃ id, result.field key = some id ∧ detail.field key = some id

/-- What names the work is recorded as it is. -/
theorem SameWork.orElse {s : Stage} {detail result : Json} (h : s.SameWork detail result) :
    s.SameWork (detail.orElse (.obj [])) result := by
  intro key hkey
  obtain ⟨id, hresult, hdetail⟩ := h key hkey
  refine ⟨id, hresult, ?_⟩
  cases detail with
  | obj fields =>
      cases fields with
      | nil => simp at hdetail
      | cons field rest => exact hdetail
  | _ => simp [Json.field] at hdetail

/-- A commit of which it is known what was performed. -/
def CommitOf (s : Stage) (good : Performed → Prop) (orderId : Json) (event : Event Op Ans)
    (result : Json) : Prop :=
  ∃ performed : Performed, good performed ∧ result = performed.result ∧
    event = ⟨.recordStep orderId s.name stepDone performed.detail, .ok ()⟩

theorem Fits.sameWork {s : Stage} {u : Undo} {performed : Performed} (hundo : s.undo = some u)
    (hkey : s.workKey = u.idKey) (h : s.Fits performed) : s.SameWork performed.detail performed.result := by
  intro key hs
  rw [hkey] at hs
  obtain ⟨d, hd, _, hdetail⟩ := h u hundo
  obtain ⟨id, hfield, _, rfl⟩ := Undo.detail_of_idKey hs hd
  refine ⟨id, hfield, ?_⟩
  rw [hdetail (by rw [hs]; rfl)]
  simp

end Stage

theorem maybeInjectTransient_meets {py : Python} {s : Stage} {orderId event : Json} {step : String} :
    (maybeInjectTransient py orderId step event).Meets (s.Asks orderId) Answers (fun _ => True)
      fun _ => True := by
  unfold maybeInjectTransient
  apply meets_any.bind
  intro _ _
  apply meets_any.bind
  intro _ _
  split
  · exact meets_ret trivial
  · refine meets_call rfl fun answer _ => ?_
    apply meets_any.bind
    intro _ _
    apply meets_any.bind
    intro _ _
    split
    · exact meets_raise trivial
    · exact meets_ret trivial

theorem maybeInjectBusinessFailure_meets {asks : Op → Prop} {event : Json} {step : String} :
    (maybeInjectBusinessFailure event step).Meets asks Answers (fun _ => True) fun _ => True := by
  unfold maybeInjectBusinessFailure
  apply meets_any.bind
  intro _ _
  split
  · exact meets_raise trivial
  · exact meets_ret trivial

/-- The last call of a stage, and the result that is returned after it. -/
theorem recordStep_commits {s : Stage} {orderId : Json} {good : Performed → Prop}
    (performed : Performed) (hgood : good performed) :
    (call (.recordStep orderId s.name stepDone performed.detail) .ofExcept >>=
      fun _ => (pure performed.result : Handler Json)).Commits (s.Asks orderId) Answers
        (fun _ => True) (s.Refused orderId) (s.CommitOf good orderId) := by
  apply commits_last
  intro answer
  cases answer with
  | error e => exact .inl ⟨⟨performed.detail, e, rfl⟩, e, rfl⟩
  | ok _ => exact .inr ⟨performed.result, rfl, performed, hgood, rfl, rfl⟩

theorem forwardStep_commits {py : Python} {s : Stage} {work : Json → Handler Performed}
    {good : Performed → Prop} (hwork : ∀ order orderId,
      (work order).Meets (s.Asks orderId) Answers (fun _ => True) good) (event : Json) :
    (forwardStep py s.name work event).Commits (s.Asks (idOf event)) Answers (fun _ => True)
      (s.Refused (idOf event)) (s.CommitOf good (idOf event)) := by
  unfold forwardStep
  refine (meets_ofExcept (fun _ h => h) fun _ _ => trivial).commits fun order horder => ?_
  rw [idOf_of_orderOf horder]
  apply maybeInjectTransient_meets.commits
  intro _ _
  apply maybeInjectBusinessFailure_meets.commits
  intro _ _
  exact (hwork order _).commits fun performed hgood => recordStep_commits performed hgood

theorem createOrder_commits (py : Python) (event : Json) :
    (createOrder py event).Commits (Stage.createOrder.Asks (idOf event)) Answers (fun _ => True)
      (Stage.createOrder.Refused (idOf event)) (Stage.createOrder.Commit (idOf event)) := by
  unfold createOrder
  refine (meets_ofExcept (fun _ h => h) fun _ _ => trivial).commits fun order horder => ?_
  rw [idOf_of_orderOf horder]
  apply meets_any.commits
  intro _ _
  apply meets_any.commits
  intro amount _
  apply meets_any.commits
  intro items _
  split
  · exact commits_raise trivial
  dsimp only
  split
  · exact commits_raise trivial
  apply meets_any.commits
  intro _ _
  apply meets_any.commits
  intro _ _
  apply commits_call ⟨rfl, rfl⟩
  intro answer _
  apply meets_any.commits
  intro _ _
  apply maybeInjectTransient_meets.commits
  intro _ _
  apply maybeInjectBusinessFailure_meets.commits
  intro _ _
  apply meets_any.commits
  intro lineItems _
  apply recordStep_commits (s := .createOrder) ⟨_, _⟩
  intro u hu
  obtain rfl : Undo.cancelOrder = u := by simpa [Stage.undo] using hu
  exact ⟨_, rfl, rfl, by simp [Undo.idKey]⟩

/-- A stage records its step last, and returns only then. -/
theorem forward_commits (py : Python) (s : Stage) (event : Json) :
    (s.handler py event).Commits (s.Asks (idOf event)) Answers (fun _ => True)
      (s.Refused (idOf event)) (s.Commit (idOf event)) := by
  cases s with
  | createOrder => exact createOrder_commits py event
  | chargePayment =>
      refine forwardStep_commits (s := .chargePayment) (fun order orderId => ?_) event
      apply meets_call trivial
      intro (paymentId : String) (hid : paymentId ≠ "")
      apply meets_any.bind
      intro _ _
      apply meets_any.bind
      intro _ _
      refine meets_any.bind fun _ _ => meets_ret ?_
      intro u hu
      obtain rfl : Undo.refundPayment = u := by simpa [Stage.undo] using hu
      exact ⟨.obj [("payment_id", .str paymentId)], by simp [Undo.detail, Undo.idKey, hid], rfl,
        fun _ => rfl⟩
  | reserveInventory =>
      refine forwardStep_commits (s := .reserveInventory) (fun order orderId => ?_) event
      apply meets_call trivial
      intro (reservationId : String) (hid : reservationId ≠ "")
      refine meets_any.bind fun _ _ => meets_ret ?_
      intro u hu
      obtain rfl : Undo.releaseInventory = u := by simpa [Stage.undo] using hu
      exact ⟨.obj [("reservation_id", .str reservationId)],
        by simp [Undo.detail, Undo.idKey, hid], rfl, fun _ => rfl⟩
  | scheduleShipment =>
      refine forwardStep_commits (s := .scheduleShipment) (fun order orderId => ?_) event
      refine meets_call trivial fun shipmentId _ => meets_call trivial fun trackingId _ => meets_ret ?_
      intro u hu
      simp [Stage.undo] at hu

/-- What a stage records and what it returns name the same work. -/
theorem forward_sameWork (py : Python) (s : Stage) (event : Json) :
    (s.handler py event).Commits (s.Asks (idOf event)) Answers (fun _ => True) (s.Refused (idOf event))
      (s.CommitOf (fun performed => s.SameWork performed.detail performed.result) (idOf event)) := by
  have hfits : ∀ u, s.undo = some u → s.workKey = u.idKey → (s.handler py event).Commits
      (s.Asks (idOf event)) Answers (fun _ => True) (s.Refused (idOf event))
      (s.CommitOf (fun performed => s.SameWork performed.detail performed.result) (idOf event)) := by
    intro u hundo hkey
    refine (forward_commits py s event).mono fun event result hcommit => ?_
    obtain ⟨performed, hfits, hresult, hevent⟩ := hcommit
    exact ⟨performed, hfits.sameWork hundo hkey, hresult, hevent⟩
  cases s with
  | createOrder => exact hfits .cancelOrder rfl rfl
  | chargePayment => exact hfits .refundPayment rfl rfl
  | reserveInventory => exact hfits .releaseInventory rfl rfl
  | scheduleShipment =>
      refine forwardStep_commits (s := .scheduleShipment) (fun order orderId => ?_) event
      refine meets_call trivial fun shipmentId _ => meets_call trivial fun trackingId _ => meets_ret ?_
      intro key hkey
      cases hkey
      exact ⟨.str shipmentId, by simp, by simp⟩

/-! ## Compensations -/

namespace Undo

def Asks (orderId : Json) (op : Op) : Prop := op = .setStatus orderId statusCompensating

def Refused (u : Undo) (orderId d : Json) (event : Event Op Ans) : Prop :=
  ∃ e, event = ⟨.recordStep orderId u.name stepDone (u.sent d), .error e⟩

def Commit (u : Undo) (orderId d : Json) (event : Event Op Ans) : Prop :=
  event = ⟨.recordStep orderId u.name stepDone (u.sent d), .ok ()⟩

end Undo

theorem completedDetail_eq {event : Json} {key : String} {fields : List (String × Json)}
    (h : event.get ["results", key] = some (.obj fields)) (hne : fields ≠ []) :
    completedDetail event key = .ok (.obj fields) := by
  obtain ⟨results, hresults, hget⟩ := Option.bind_eq_some_iff.mp h
  rw [Json.get_single] at hget
  cases event with
  | obj eventFields =>
      cases results with
      | obj steps =>
          rw [Json.field_obj] at hresults hget
          have hsteps : (Json.obj steps).truthy = true := by
            cases steps with
            | nil => simp at hget
            | cons _ _ => rfl
          have hblock : (Json.obj fields).truthy = true := by
            cases fields with
            | nil => exact absurd rfl hne
            | cons _ _ => rfl
          simp only [completedDetail, Python.get_obj, hresults, Option.getD_some,
            Json.orElse_of_truthy hsteps, hget, Json.orElse_of_truthy hblock, Bind.bind, Except.bind]
          rfl
      | _ => simp [Json.field] at hget
  | _ => simp [Json.field] at hresults

section

variable {expected : (op : Op) → Ans op → Prop} {raises : Exc → Prop} {event order : Json}

theorem compensate_commits {u : Undo} {key status d : _} (hkey : u.idKey = some key)
    (horder : orderOf event = .ok order)
    (hset : ∀ e, expected (.setStatus (idOf event) statusCompensating) (.error e) → raises e)
    (hread : u.Reads event d) :
    (compensate u.name u.stage.resultKey key status event).Commits (Undo.Asks (idOf event)) expected
      raises (u.Refused (idOf event) d) fun commit _ => u.Commit (idOf event) d commit := by
  obtain ⟨result, hresult, hd⟩ := hread
  obtain ⟨id, hid, htruthy, rfl⟩ := Undo.detail_of_idKey hkey hd
  have hsent : u.sent (.obj [(key, id)]) = .obj [(key, id)] := by
    cases u <;> first | rfl | cases hkey
  cases result with
  | obj fields =>
      have hne : fields ≠ [] := by
        rintro rfl
        simp at hid
      unfold compensate
      simp only [horder, ofExcept_ok, ret_bind]
      rw [idOf_of_orderOf horder]
      refine commits_call rfl fun answer hanswer => ?_
      cases answer with
      | error e => exact commits_raise (hset e hanswer)
      | ok _ =>
          rw [Json.field_obj] at hid
          simp only [ofExcept_ok, ret_bind, completedDetail_eq hresult hne, Python.get_obj, hid,
            Option.getD_some, htruthy]
          apply commits_last
          intro answer
          cases answer with
          | error e => exact .inl ⟨⟨e, by rw [hsent]⟩, e, rfl⟩
          | ok _ => exact .inr ⟨_, rfl, by rw [Undo.Commit, hsent]⟩
  | _ => simp [Json.field] at hid

/-- A compensation with something to undo records it last, and returns only then.
    What it raises is the refusal of its first call. -/
theorem undo_commits (u : Undo) {d : Json} (horder : orderOf event = .ok order)
    (hset : ∀ e, expected (.setStatus (idOf event) statusCompensating) (.error e) → raises e)
    (hread : u.Reads event d) :
    (u.handler event).Commits (Undo.Asks (idOf event)) expected raises (u.Refused (idOf event) d)
      fun commit _ => u.Commit (idOf event) d commit := by
  cases u with
  | releaseInventory =>
      exact compensate_commits (u := .releaseInventory) rfl horder hset hread
  | refundPayment =>
      exact compensate_commits (u := .refundPayment) rfl horder hset hread
  | cancelOrder =>
      unfold Undo.handler cancelOrder
      simp only [horder, ofExcept_ok, ret_bind]
      rw [idOf_of_orderOf horder]
      refine commits_call rfl fun answer hanswer => ?_
      cases answer with
      | error e => exact commits_raise (hset e hanswer)
      | ok _ =>
          apply commits_last
          intro answer
          cases answer with
          | error e => exact .inl ⟨⟨e, rfl⟩, e, rfl⟩
          | ok _ => exact .inr ⟨_, rfl, rfl⟩

/-! ## Bookkeeping -/

/-- A handler that only sets the status, and then can do no more than return. -/
def SetsStatus (event newStatus : Json) (handler : Handler Json) : Prop :=
  ∃ result, handler =
    (call (.setStatus (idOf event) newStatus) .ofExcept >>= fun _ => .ret result)

theorem completeSaga_setsStatus (horder : orderOf event = .ok order) :
    SetsStatus event statusCompleted (completeSaga event) := by
  refine ⟨.obj [("status", statusCompleted)], ?_⟩
  unfold completeSaga
  simp only [horder, ofExcept_ok, ret_bind]
  rw [idOf_of_orderOf horder]
  rfl

theorem markFailed_setsStatus {fields : List (String × Json)} (horder : orderOf event = .ok order)
    (herror : event.field "error" = some (.obj fields)) :
    SetsStatus event statusFailed (markFailed event) := by
  refine ⟨.obj [("status", statusFailed)], ?_⟩
  cases event with
  | obj eventFields =>
      rw [Json.field_obj] at herror
      unfold markFailed
      simp only [horder, ofExcept_ok, ret_bind, Python.get_obj, herror, Option.getD_some, Json.orElse_obj,
        Python.getD_obj]
      rw [idOf_of_orderOf horder]
      rfl
  | _ => simp [Json.field] at herror

end

end OrderSaga
