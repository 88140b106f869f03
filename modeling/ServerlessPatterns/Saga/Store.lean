-- SUMMARY: The saga table: the store's methods and what each of them leaves in a record.
import ServerlessPatterns.Library.DocumentStore

/-!
# The saga store

One item per saga, keyed by `order_id`, with an overall status, a map of step
results and a map of attempt counters. `start` puts a whole item. The other
methods set a path of the item, and those that set a path inside one of the maps
are refused while the item has no such map.
-/

namespace OrderSaga

def statusStarted : Json := .str "STARTED"
def statusCompleted : Json := .str "COMPLETED"
def statusFailed : Json := .str "FAILED"
def statusCompensating : Json := .str "COMPENSATING"

/-- The successive readings of the clock within one call, in whole seconds. -/
abbrev Clock := Nat → Int

namespace SagaStore

def seconds (n : Int) : Json := .num (.int n)

/-- The item that `start` puts. -/
def newItem (clock : Clock) (orderId : Json) (customerId : String) (amount : ℚ) (currency : String)
    (ttlSeconds : Int) : Json :=
  .obj ([("order_id", orderId), ("customer_id", .str customerId), ("amount", .num (.decimal amount)),
      ("currency", .str currency), ("status", statusStarted), ("step_status", .obj []),
      ("attempts", .obj []), ("created_at", seconds (clock 0)), ("updated_at", seconds (clock 1))]
    ++ if 0 < ttlSeconds then [("expires_at", seconds (clock 2 + ttlSeconds))] else [])

/-- Create, or reset, the saga record in STARTED state. -/
def start (py : Python) (clock : Clock) (orderId : Json) (customerId : String) (amount : PyFloat)
    (currency : String) (ttlSeconds : Int) (table : Table) : Except Exc Unit × Table :=
  match py.toDecimal amount with
  | .error e => (.error e, table)
  | .ok amount =>
    let (answer, table) :=
      table.putItem "order_id" (newItem clock orderId customerId amount currency ttlSeconds)
    (answer.mapError DbError.exc, table)

/-- The update expression of `record_step`. -/
def stepClauses (clock : Clock) (step : String) (status detail : Json) :
    List (Json.Path × Operand) :=
  [(["step_status", step], .value (.obj [("status", status), ("detail", detail.orElse (.obj [])),
      ("at", seconds (clock 0))])),
    (["updated_at"], .value (seconds (clock 1)))]

/-- Record the outcome of a single saga step. -/
def recordStep (clock : Clock) (orderId : Json) (step : String) (status detail : Json)
    (table : Table) : Except Exc Unit × Table :=
  let (answer, table) :=
    table.updateItem "order_id" orderId (stepClauses clock step status detail) none
  ((answer.mapError DbError.exc).map fun _ => (), table)

/-- The update expression of `set_status`. -/
def statusClauses (clock : Clock) (status : Json) : List (Json.Path × Operand) :=
  [(["status"], .value status), (["updated_at"], .value (seconds (clock 0)))]

/-- Update the overall saga status. -/
def setStatus (clock : Clock) (orderId status : Json) (table : Table) : Except Exc Unit × Table :=
  let (answer, table) := table.updateItem "order_id" orderId (statusClauses clock status) none
  ((answer.mapError DbError.exc).map fun _ => (), table)

/-- The update expression of `increment_attempt`. -/
def attemptClauses (clock : Clock) (step : String) : List (Json.Path × Operand) :=
  [(["attempts", step], .plus (.ifNotExists ["attempts", step] (.value (.num (.decimal 0))))
      (.value (.num (.decimal 1)))),
    (["updated_at"], .value (seconds (clock 0)))]

/-- Atomically increment and return the attempt counter for a step. -/
def incrementAttempt (py : Python) (clock : Clock) (orderId : Json) (step : String)
    (table : Table) : Except Exc Int × Table :=
  let (answer, table) := table.updateItem "order_id" orderId (attemptClauses clock step) none
  ((answer.mapError DbError.exc).bind fun item =>
    py.int ((item.get ["attempts", step]).getD .null), table)

/-- Return the saga record, or `none` if there is none. -/
def get (orderId : Json) (table : Table) : Except Exc (Option Json) :=
  (table.getItem orderId).mapError DbError.exc

end SagaStore

end OrderSaga
