-- SUMMARY: The SQS processor that backs failed records off with exponential delay and full jitter.
import ServerlessPatterns.Library.Contract
import ServerlessPatterns.Library.Python

/-!
# Retry with backoff

For each record that fails, the handler extends its visibility timeout by a random
delay and reports it in `batchItemFailures`. The business logic, the random source
and SQS are its operations.
-/

namespace RetryBackoff

open Program Python

inductive Op where
  /-- The message id tells for which record `process_record` is called; the source
      does not pass it on. -/
  | processRecord (messageId body attributes : Json)
  /-- `random.uniform(low, high)`. -/
  | uniform (low high : Int)
  | changeMessageVisibility (queueUrl : String) (receiptHandle : Json) (visibilityTimeout : Int)

abbrev Ans : Op → Type
  | .processRecord .. => Except Exc Unit
  | .uniform .. => ℚ
  | .changeMessageVisibility .. => Except Exc Unit

abbrev Handler (α : Type) := Program Op Ans Exc α

/-- The environment of the function. -/
structure Config where
  queueUrl : String
  backoffBaseSeconds : Option String
  backoffMaxSeconds : Option String

def sqsMaxVisibilitySeconds : Int := 43200

/-- Read an integer environment variable, falling back to `default`. -/
def intEnv (py : Python) (value : Option String) (default : Int) : Int :=
  match value with
  | none => default
  | some text => (py.parseInt text).getD default

/-- The upper end of the delay, before jitter. -/
def backoffCeiling (receiveCount base cap : Int) : Int :=
  let attempt := max 1 receiveCount
  let exponent := min (attempt - 1) 30
  let ceiling := min (min cap (base * 2 ^ exponent.toNat)) sqsMaxVisibilitySeconds
  max 0 ceiling

def computeBackoffSeconds (receiveCount base cap : Int) : Handler Int := do
  let drawn ← .perform (.uniform 0 (backoffCeiling receiveCount base cap))
  return truncate drawn

/-- `except Exception` around the change of the visibility: it is swallowed. -/
def swallow (delay : Int) (e : Exc) : Option (Handler Int) :=
  if e.isInstance "Exception" then some (return delay) else none

/-- Compute and apply the backoff of a failed record. -/
def backoffRecord (py : Python) (config : Config) (receiptHandle : Json) (receiveCount : Int) :
    Handler Int := do
  let base := intEnv py config.backoffBaseSeconds 5
  let cap := intEnv py config.backoffMaxSeconds 900
  let delay ← computeBackoffSeconds receiveCount base cap
  Program.tryCatch (swallow delay) do
    .call (.changeMessageVisibility config.queueUrl receiptHandle delay) .ofExcept
    return delay

/-- What `except (json.JSONDecodeError, KeyError)` catches. -/
def unparseable (e : Exc) : Bool :=
  e.isInstance "json.JSONDecodeError" || e.isInstance "KeyError"

/-- `json.loads(record["body"]) if record.get("body") else {}`. -/
def parsed (py : Python) (record : Json) : Except Exc Json := do
  if (← get record "body").truthy then py.jsonLoads (← item record "body")
  else return .obj []

def failure (messageId : Json) : Json := .obj [("itemIdentifier", messageId)]

/-- `except Exception` around the business logic: the record is backed off and
    reported. -/
def backOff (py : Python) (config : Config) (record messageId : Json) (receiveCount : Int)
    (e : Exc) : Option (Handler (Option Json)) :=
  if e.isInstance "Exception" then some do
    let receiptHandle ← .ofExcept (item record "receiptHandle")
    let _ ← backoffRecord py config receiptHandle receiveCount
    return some (failure messageId)
  else none

/-- The body of the loop. What it yields is appended to `failures`. -/
def handleRecord (py : Python) (config : Config) (record : Json) : Handler (Option Json) := do
  let messageId ← .ofExcept (item record "messageId")
  let attributes ← .ofExcept (getD record "attributes" (.obj []))
  let receiveCount ← .ofExcept
    (getD attributes "ApproximateReceiveCount" (.str "1") >>= py.int)
  match parsed py record with
  | .error e => if unparseable e then return some (failure messageId) else .raise e
  | .ok body =>
    Program.tryCatch (backOff py config record messageId receiveCount) do
      .call (.processRecord messageId body attributes) .ofExcept
      return none

def handle (py : Python) (config : Config) (event : Json) : Handler Json := do
  let records ← .ofExcept (getD event "Records" (.arr []) >>= iter)
  let failures ← collect (handleRecord py config) records []
  return .obj [("batchItemFailures", .arr failures)]

end RetryBackoff
