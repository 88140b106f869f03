-- SUMMARY: The fan-out SQS worker, and what it does with one record of a batch.
import ServerlessPatterns.Library.Contract
import ServerlessPatterns.Library.Python

/-!
# Fan-out worker

Drains an SQS queue that is fed by an SNS fan-out topic. The business logic is
the one operation of the handler, so it may do anything with any record.
-/

namespace FanOut

open Program

/-- A call of `process_record`. The message id tells for which record it is
    made; the source does not pass it on. -/
inductive Op where
  | processRecord (messageId body attributes : Json)

abbrev Ans : Op → Type
  | .processRecord .. => Except Exc Unit

abbrev Handler (α : Type) := Program Op Ans Exc α

/-- `except Exception`: the record is reported as failed. -/
def reportFailure (messageId : Json) (e : Exc) : Option (Handler (Option Json)) :=
  if e.isInstance "Exception" then some (pure (some (.obj [("itemIdentifier", messageId)])))
  else none

/-- What `except (json.JSONDecodeError, KeyError)` catches. -/
def unparseable (e : Exc) : Bool :=
  e.isInstance "json.JSONDecodeError" || e.isInstance "KeyError"

/-- The body of the loop. What it yields is appended to `failures`. -/
def handleRecord (py : Python) (record : Json) : Handler (Option Json) := do
  let messageId ← .ofExcept (Python.item record "messageId")
  match Python.item record "body" >>= py.jsonLoads with
  | .error e => if unparseable e then return none else .raise e
  | .ok body =>
    Program.tryCatch (reportFailure messageId) do
      let attributes ← .ofExcept (Python.getD record "attributes" (.obj []))
      .call (.processRecord messageId body attributes) .ofExcept
      return none

def handler (py : Python) (event : Json) : Handler Json := do
  let records ← .ofExcept (Python.getD event "Records" (.arr []) >>= Python.iter)
  let failures ← collect (handleRecord py) records []
  return .obj [("batchItemFailures", .arr failures)]

end FanOut
