-- SUMMARY: The Lambda handlers of the order saga, as programs over the saga store.
import ServerlessPatterns.Library.Program
import ServerlessPatterns.Saga.Store

/-!
# Saga handlers

Four forward steps, three compensations, and two handlers that only keep the
books. An operation is one call of the store, or the choice of a random id.
-/

namespace OrderSaga

inductive Op where
  | start (orderId : Json) (customerId : String) (amount : PyFloat) (currency : String)
      (ttlSeconds : Int)
  | recordStep (orderId : Json) (step : String) (status detail : Json)
  | setStatus (orderId status : Json)
  | incrementAttempt (orderId : Json) (step : String)
  | newId (idPrefix : String)

abbrev Ans : Op → Type
  | .incrementAttempt .. => Except Exc Int
  | .newId _ => String
  | _ => Except Exc Unit

abbrev Handler (α : Type) := Program Op Ans Exc α

/-- A terminal business-rule failure. -/
def sagaBusinessError (message : String) : Exc :=
  ⟨"SagaBusinessError", ["errors.SagaBusinessError", "errors.SagaError", "Exception"], message⟩

/-- A retryable failure. -/
def sagaTransientError (message : String) : Exc :=
  ⟨"SagaTransientError", ["errors.SagaTransientError", "errors.SagaError", "Exception"], message⟩

def defaultTtlSeconds : Int := 90 * 24 * 60 * 60

def stepDone : Json := .str "DONE"
def stepSkipped : Json := .str "SKIPPED"

/-! ## Helpers -/

/-- Extract and lightly validate the `order` block from the event. -/
def orderOf (event : Json) : Except Exc Json := do
  let order ← Python.get event "order"
  match order with
  | .obj fields =>
    if (fields.lookup "order_id").isSome then return order
    else .error (sagaBusinessError "event is missing a valid 'order' object with 'order_id'")
  | _ => .error (sagaBusinessError "event is missing a valid 'order' object with 'order_id'")

/-- `order["order_id"]`, once `orderOf` has found it there. -/
def orderIdOf (order : Json) : Json := (order.field "order_id").getD .null

/-- Raise until the step's attempt count is reached. -/
def maybeInjectTransient (py : Python) (orderId : Json) (step : String) (event : Json) :
    Handler Unit := do
  let flaky := (← .ofExcept (Python.get event "flaky_steps")).orElse (.obj [])
  let succeedOn ← .ofExcept (Python.get flaky step)
  if !succeedOn.truthy then return ()
  else do
    let attempt ← .call (.incrementAttempt orderId step) .ofExcept
    let limit ← .ofExcept (py.int succeedOn)
    if attempt < limit then
      .raise (sagaTransientError (s!"{step}: injected transient failure on attempt {attempt} " ++
        s!"(will succeed on attempt {py.str succeedOn})"))
    else return ()

/-- Raise if `fail_at` targets the step. -/
def maybeInjectBusinessFailure (event : Json) (step : String) : Handler Unit := do
  if (← .ofExcept (Python.get event "fail_at")) = .str step then
    .raise (sagaBusinessError s!"{step}: injected business failure (fail_at={step})")
  else return ()

/-! ## Forward steps -/

/-- Forward step 1: persist a new order. -/
def createOrder (py : Python) (event : Json) : Handler Json := do
  let order ← .ofExcept (orderOf event)
  let orderId := orderIdOf order
  let amount ← .ofExcept (py.float (← .ofExcept (Python.getD order "amount" (.num (.int 0)))))
  let items := (← .ofExcept (Python.get order "items")).orElse (.arr [])
  if amount.nonpos then
    .raise (sagaBusinessError (s!"order {py.str orderId}: amount must be positive, " ++
      s!"got {py.str (.num (.float amount))}"))
  else if !items.truthy then
    .raise (sagaBusinessError s!"order {py.str orderId}: at least one line item is required")
  else do
    let customerId := py.str (← .ofExcept (Python.getD order "customer_id" (.str "unknown")))
    let currency := py.str (← .ofExcept (Python.getD order "currency" (.str "USD")))
    .call (.start orderId customerId amount currency defaultTtlSeconds) .ofExcept
    maybeInjectTransient py orderId "create_order" event
    maybeInjectBusinessFailure event "create_order"
    let lineItems ← .ofExcept (Python.len items)
    let result := .obj [("order_id", orderId), ("status", .str "PENDING"),
      ("line_items", .num (.int lineItems))]
    .call (.recordStep orderId "create_order" stepDone result) .ofExcept
    return result

/-- What the work of a forward step comes to: the detail that is recorded, and
    the result that is returned. -/
structure Performed where
  detail : Json
  result : Json

/-- The course that the three later forward steps share. -/
def forwardStep (py : Python) (step : String) (work : Json → Handler Performed) (event : Json) :
    Handler Json := do
  let order ← .ofExcept (orderOf event)
  let orderId := orderIdOf order
  maybeInjectTransient py orderId step event
  maybeInjectBusinessFailure event step
  let performed ← work order
  .call (.recordStep orderId step stepDone performed.detail) .ofExcept
  return performed.result

/-- Forward step 2: charge the customer's payment method. -/
def chargePayment (py : Python) : Json → Handler Json :=
  forwardStep py "charge_payment" fun order => do
    let paymentId ← .perform (.newId "pay")
    let amount ← .ofExcept (py.float (← .ofExcept (Python.getD order "amount" (.num (.int 0)))))
    let currency := py.str (← .ofExcept (Python.getD order "currency" (.str "USD")))
    return {
      detail := .obj [("payment_id", .str paymentId)]
      result := .obj [("payment_id", .str paymentId), ("amount", .num (.float amount)),
        ("currency", .str currency), ("status", .str "CHARGED")] }

/-- Forward step 3: reserve inventory for the order's line items. -/
def reserveInventory (py : Python) : Json → Handler Json :=
  forwardStep py "reserve_inventory" fun order => do
    let reservationId ← .perform (.newId "rsv")
    let items := (← .ofExcept (Python.get order "items")).orElse (.arr [])
    return {
      detail := .obj [("reservation_id", .str reservationId)]
      result := .obj [("reservation_id", .str reservationId), ("items", items),
        ("status", .str "RESERVED")] }

/-- Forward step 4: schedule the outbound shipment. -/
def scheduleShipment (py : Python) : Json → Handler Json :=
  forwardStep py "schedule_shipment" fun _ => do
    let shipmentId ← .perform (.newId "shp")
    let trackingNumber := Python.upper (← .perform (.newId "trk"))
    return {
      detail := .obj [("shipment_id", .str shipmentId)]
      result := .obj [("shipment_id", .str shipmentId), ("tracking_number", .str trackingNumber),
        ("status", .str "SCHEDULED")] }

/-- Terminal happy-path step: mark the saga COMPLETED. -/
def completeSaga (event : Json) : Handler Json := do
  let order ← .ofExcept (orderOf event)
  .call (.setStatus (orderIdOf order) statusCompleted) .ofExcept
  return .obj [("status", statusCompleted)]

/-! ## Compensation steps -/

/-- The recorded detail for a previously completed forward step. -/
def completedDetail (event : Json) (step : String) : Except Exc Json := do
  let results := (← Python.get event "results").orElse (.obj [])
  let block := (← Python.get results step).orElse (.obj [])
  match block with
  | .obj _ => return block
  | _ => return .obj []

/-- The course that the two compensations of a step with an id share. -/
def compensate (step resultKey idKey status : String) (event : Json) : Handler Json := do
  let order ← .ofExcept (orderOf event)
  let orderId := orderIdOf order
  .call (.setStatus orderId statusCompensating) .ofExcept
  let block ← .ofExcept (completedDetail event resultKey)
  let id ← .ofExcept (Python.get block idKey)
  if !id.truthy then do
    .call (.recordStep orderId step stepSkipped .null) .ofExcept
    return .obj [("status", .str "SKIPPED")]
  else do
    .call (.recordStep orderId step stepDone (.obj [(idKey, id)])) .ofExcept
    return .obj [("status", .str status), (idKey, id)]

/-- Compensation for `reserveInventory`: release the reservation. -/
def releaseInventory : Json → Handler Json :=
  compensate "release_inventory" "reservation" "reservation_id" "RELEASED"

/-- Compensation for `chargePayment`: refund the captured charge. -/
def refundPayment : Json → Handler Json :=
  compensate "refund_payment" "payment" "payment_id" "REFUNDED"

/-- Compensation for `createOrder`: mark the order cancelled. -/
def cancelOrder (event : Json) : Handler Json := do
  let order ← .ofExcept (orderOf event)
  let orderId := orderIdOf order
  .call (.setStatus orderId statusCompensating) .ofExcept
  .call (.recordStep orderId "cancel_order" stepDone .null) .ofExcept
  return .obj [("status", .str "CANCELLED"), ("order_id", orderId)]

/-- Terminal failure step: record the saga as FAILED after rollback. -/
def markFailed (event : Json) : Handler Json := do
  let order ← .ofExcept (orderOf event)
  .call (.setStatus (orderIdOf order) statusFailed) .ofExcept
  -- The cause is only logged, but reading it raises when `error` is no object.
  let error := (← .ofExcept (Python.get event "error")).orElse (.obj [])
  let _ ← .ofExcept (Python.getD error "Cause" (.str "unknown"))
  return .obj [("status", statusFailed)]

end OrderSaga
