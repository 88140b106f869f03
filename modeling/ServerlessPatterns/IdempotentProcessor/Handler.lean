-- SUMMARY: The SQS processor whose business function runs under an idempotency key chosen from the record.
import ServerlessPatterns.Library.Contract
import ServerlessPatterns.Library.Python

/-!
# Idempotent processor

The handler of one record puts an idempotency key into the payload and calls
`process_payload`, which is wrapped by an idempotency layer. The digest is left
open.
-/

namespace IdempotentProcessor

open Program Python

/-- A call of the wrapped `process_payload`. -/
inductive Op where
  | processPayload (payload : Json)

abbrev Ans : Op → Type
  | .processPayload .. => Except Exc Json

abbrev Handler (α : Type) := Program Op Ans Exc α

/-- `hashlib.sha256(data).hexdigest()`. -/
abbrev Sha256 := (data : Bytes) → String

/-- The configuration of the layer, with the defaults for what is not passed. -/
structure IdempotencyConfig where
  eventKeyJmespath : String
  raiseOnNoIdempotencyKey : Bool := false
  useLocalCache : Bool := false
  expiresAfterSeconds : ℚ := 3600

def config : IdempotencyConfig where
  eventKeyJmespath := "idempotency_key"
  raiseOnNoIdempotencyKey := true
  useLocalCache := true

/-- The first of the fields with a value that counts as one. -/
def firstKey (py : Python) (body : Json) : List String → Except Exc (Option String)
  | [] => .ok none
  | field :: fields => do
    let value ← get body field
    if value.truthy then return some (py.str value) else firstKey py body fields

/-- Choose a stable idempotency key for a record. -/
def idempotencyKey (py : Python) (sha256 : Sha256) (recordBody : String) (body : Json) :
    Except Exc String := do
  match ← firstKey py body ["idempotency_key", "id"] with
  | some key => return key
  | none => return sha256 (encode recordBody)

/-- `body[key] = value`. -/
def setItem (key : String) (value : Json) : Json → Except Exc Json
  | .obj fields => .ok (.obj (Fields.put key value fields))
  | _ => .error (.typeError "object does not support item assignment")

def recordHandler (py : Python) (sha256 : Sha256) (recordBody : String) : Handler Json := do
  let body ← .ofExcept (if recordBody ≠ "" then py.loads recordBody else .ok (.obj []))
  let key ← .ofExcept (idempotencyKey py sha256 recordBody body)
  let payload ← .ofExcept (setItem "idempotency_key" (.str key) body)
  .call (.processPayload payload) .ofExcept

end IdempotentProcessor
