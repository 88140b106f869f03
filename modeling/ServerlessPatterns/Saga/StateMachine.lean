-- SUMMARY: The order saga's state machine, as statemachine.asl.json wires it, with its handlers on the saga table.
import ServerlessPatterns.Library.Workflow
import ServerlessPatterns.Saga.Handlers

/-!
# The saga state machine
-/

namespace OrderSaga

open Asl

/-! ## Operations on the table -/

/-- What an operation may answer, and the table it leaves behind. -/
def exec (py : Python) : (op : Op) → Table → Ans op → Table → Prop
  | .start orderId customerId amount currency ttlSeconds => fun table answer table' =>
    ∃ clock, (answer, table') =
      SagaStore.start py clock orderId customerId amount currency ttlSeconds table
  | .recordStep orderId step status detail => fun table answer table' =>
    ∃ clock, (answer, table') = SagaStore.recordStep clock orderId step status detail table
  | .setStatus orderId status => fun table answer table' =>
    ∃ clock, (answer, table') = SagaStore.setStatus clock orderId status table
  | .incrementAttempt orderId step => fun table answer table' =>
    ∃ clock, (answer, table') = SagaStore.incrementAttempt py clock orderId step table
  | .newId idPrefix => fun table answer table' =>
    table' = table ∧ ∃ hex : String, hex.length = 12 ∧ answer = idPrefix ++ "-" ++ hex

/-- Operations as functions: the clock stands still, and all generated ids of one
    kind are the same. -/
def answer (py : Python) : (op : Op) → Table → Ans op × Table
  | .start orderId customerId amount currency ttlSeconds, table =>
    SagaStore.start py (fun _ => 0) orderId customerId amount currency ttlSeconds table
  | .recordStep orderId step status detail, table =>
    SagaStore.recordStep (fun _ => 0) orderId step status detail table
  | .setStatus orderId status, table => SagaStore.setStatus (fun _ => 0) orderId status table
  | .incrementAttempt orderId step, table =>
    SagaStore.incrementAttempt py (fun _ => 0) orderId step table
  | .newId idPrefix, table => (idPrefix ++ "-" ++ "000000000000", table)

theorem answer_exec {py : Python} (op : Op) (table : Table) :
    exec py op table (answer py op table).1 (answer py op table).2 := by
  cases op with
  | newId idPrefix => exact ⟨rfl, "000000000000", by decide, rfl⟩
  | _ => exact ⟨fun _ => 0, rfl⟩

/-! ## States -/

inductive StateName where
  | initializeSaga
  | createOrder
  | chargePayment
  | reserveInventory
  | scheduleShipment
  | completeSaga
  | releaseInventory
  | refundPayment
  | cancelOrder
  | markFailed
  | sagaFailed
  | compensationFailed
  deriving DecidableEq

/-- The Lambda functions behind the tasks. -/
inductive Function where
  | createOrder
  | chargePayment
  | reserveInventory
  | scheduleShipment
  | completeSaga
  | releaseInventory
  | refundPayment
  | cancelOrder
  | markFailed
  deriving DecidableEq

def serviceErrors : List String :=
  ["Lambda.ServiceException", "Lambda.AWSLambdaException", "Lambda.SdkClientException",
    "Lambda.TooManyRequestsException"]

/-- What the four forward tasks share. -/
def forwardTask (resource : Function) (resultKey : String) (next onError : StateName) :
    Task StateName Function where
  resource := resource
  integration := .lambda
  parameters := none
  resultSelector := none
  resultPath := ["results", resultKey]
  timeoutSeconds := some 30
  retry := [⟨["SagaTransientError"], 2, 3, 2⟩, ⟨serviceErrors, 1, 4, 2⟩]
  catchers := [⟨["States.ALL"], ["error"], onError⟩]
  next := some next

def createOrderTask := forwardTask .createOrder "order" .chargePayment .markFailed
def chargePaymentTask := forwardTask .chargePayment "payment" .reserveInventory .cancelOrder
def reserveInventoryTask :=
  forwardTask .reserveInventory "reservation" .scheduleShipment .refundPayment
def scheduleShipmentTask :=
  forwardTask .scheduleShipment "shipment" .completeSaga .releaseInventory

/-- What the three compensation tasks share. -/
def compensationTask (resource : Function) (resultKey : String) (next : StateName) :
    Task StateName Function where
  resource := resource
  integration := .lambda
  parameters := none
  resultSelector := none
  resultPath := ["compensation", resultKey]
  timeoutSeconds := some 60
  retry := [⟨["States.ALL"], 3, 5, 2⟩]
  catchers := [⟨["States.ALL"], ["compensation", "error"], .compensationFailed⟩]
  next := some next

def releaseInventoryTask := compensationTask .releaseInventory "release_inventory" .refundPayment
def refundPaymentTask := compensationTask .refundPayment "refund_payment" .cancelOrder
def cancelOrderTask := compensationTask .cancelOrder "cancel_order" .markFailed

/-- What the two bookkeeping tasks share. Neither has a `Catch`. -/
def bookkeepingTask (resource : Function) (resultKey : String) (maxAttempts : Nat)
    (next : Option StateName) : Task StateName Function where
  resource := resource
  integration := .lambda
  parameters := none
  resultSelector := none
  resultPath := ["results", resultKey]
  timeoutSeconds := some 30
  retry := [⟨["States.ALL"], 2, maxAttempts, 2⟩]
  catchers := []
  next := next

def completeSagaTask := bookkeepingTask .completeSaga "completion" 3 none
def markFailedTask := bookkeepingTask .markFailed "mark_failed" 4 (some .sagaFailed)

def machine : Machine StateName Function where
  startAt := .initializeSaga
  timeoutSeconds := 900
  states
    | .initializeSaga => .pass (.obj []) ["results"] .createOrder
    | .createOrder => .task createOrderTask
    | .chargePayment => .task chargePaymentTask
    | .reserveInventory => .task reserveInventoryTask
    | .scheduleShipment => .task scheduleShipmentTask
    | .completeSaga => .task completeSagaTask
    | .releaseInventory => .task releaseInventoryTask
    | .refundPayment => .task refundPaymentTask
    | .cancelOrder => .task cancelOrderTask
    | .markFailed => .task markFailedTask
    | .sagaFailed =>
      .fail "SagaRolledBack" "The saga failed and all previously completed steps were compensated."
    | .compensationFailed =>
      .fail "CompensationFailed"
        "A compensating transaction did not succeed after retries; manual intervention is required."

def function (py : Python) : Function → Json → Handler Json
  | .createOrder => createOrder py
  | .chargePayment => chargePayment py
  | .reserveInventory => reserveInventory py
  | .scheduleShipment => scheduleShipment py
  | .completeSaga => completeSaga
  | .releaseInventory => releaseInventory
  | .refundPayment => refundPayment
  | .cancelOrder => cancelOrder
  | .markFailed => markFailed

def workflow (py : Python) : Workflow StateName Function Op Ans Table where
  machine := machine
  handler := function py
  exec := exec py

abbrev Config := Workflow.Config StateName Op Ans Table
abbrev Attempted := Invocation StateName Op Ans
abbrev Step (py : Python) (allowed : Attempted → Prop) : Config → Config → Prop :=
  Workflow.Step (workflow py) allowed

/-- An execution input, with the step that is made to fail. -/
def sampleInput (failAt : Json) : Json := .obj [("order", .obj [("order_id", .str "ord-1001"),
    ("customer_id", .str "cust-42"), ("amount", .num (.float (.finite 149))),
    ("currency", .str "USD"), ("items", .arr [.obj [("sku", .str "SKU-1"), ("qty", .num (.int 2))]])]),
  ("fail_at", failAt), ("flaky_steps", .obj [])]

/-- An execution whose shipment fails, with every attempt acknowledged. -/
def failedShipment : Nat → Config :=
  (workflow .sample).trajectory (answer .sample) (fun _ => .smooth)
    ((workflow .sample).init (sampleInput (.str "schedule_shipment")) fun _ => none)

theorem failedShipment_ends :
    (workflow .sample).advance (answer .sample) .smooth (failedShipment 9) = none := rfl

theorem failedShipment_not_lost :
    ∀ n < 9, ∀ inv ∈ (failedShipment (n + 1)).log, inv.outcome.isLost = false := by
  decide +kernel

end OrderSaga
