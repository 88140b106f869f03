-- SUMMARY: The webhook ingest consumer, which verifies, parses and processes the records of a batch.
import ServerlessPatterns.Library.Contract
import ServerlessPatterns.WebhookIngest.VerifySignature

/-!
# Webhook consumer

Drains the SQS buffer behind the webhook endpoint. Reading the signing key and
the business logic are its two operations.
-/

namespace WebhookIngest

open Program Python

/-- What Secrets Manager returns for the signing key. -/
structure SecretValue where
  secretString : Option String
  secretBinary : Option Bytes

inductive Op where
  | getSecretValue
  /-- The message id tells for which record `process_event` is called; the source
      does not pass it on. -/
  | processEvent (messageId source payload : Json)

abbrev Ans : Op → Type
  | .getSecretValue => Except Exc SecretValue
  | .processEvent .. => Except Exc Unit

abbrev Handler (α : Type) := Program Op Ans Exc α

/-- The environment of the function. -/
structure Config where
  signatureAlgorithm : String
  signaturePrefix : String

/-- Internal marker for a record that failed signature verification. -/
def unverified (message : String) : Exc :=
  ⟨"_Unverified", ["handler._Unverified", "RuntimeError", "Exception"], message⟩

/-- Fetch the signing key, unless an earlier invocation of this execution
    environment has it in the cache. -/
def signingKey : (cached : Option Bytes) → Handler Bytes
  | some key => return key
  | none => do
    let response ← .call .getSecretValue .ofExcept
    match response.secretString with
    | some secret => return encode secret
    | none =>
      match response.secretBinary with
      | some secret => return secret
      | none => .raise (.keyError "SecretBinary")

/-- Extract a string message attribute value from an SQS record. -/
def attr (record : Json) (name : String) : Except Exc Json := do
  let attrs ← getD record "messageAttributes" (.obj [])
  let entry ← get attrs name
  if !entry.truthy then return .null
  else get entry "stringValue"

/-- `body.encode("utf-8")`. -/
def encoded : Json → Except Exc Bytes
  | .str s => .ok (encode s)
  | _ => .error (.attributeError "object has no attribute 'encode'")

/-- The exceptions on which a record is dropped. -/
def drops (e : Exc) : Bool :=
  e.isInstance "handler._Unverified" || e.isInstance "verify_signature.SignatureError" ||
    e.isInstance "json.JSONDecodeError"

/-- The `except` clauses of the loop body. -/
def handleError (messageId : Json) (e : Exc) : Option (Handler (Option Json)) :=
  if drops e then some (return none)
  else if e.isInstance "Exception" then some (return some (.obj [("itemIdentifier", messageId)]))
  else none

/-- The `try` block: verify the signature and parse the body. -/
def verified (py : Python) (hmac : Hmac) (config : Config) (key : Bytes)
    (messageId signature body : Json) : Except Exc Json := do
  let ok ← verify py hmac key (← encoded body) signature config.signatureAlgorithm
    config.signaturePrefix
  if !ok then .error (unverified (py.str messageId))
  else if body.truthy then py.jsonLoads body
  else return .obj []

/-- The body of the loop. What it yields is appended to `failures`. -/
def handleRecord (py : Python) (hmac : Hmac) (config : Config) (key : Bytes) (record : Json) :
    Handler (Option Json) := do
  let messageId ← .ofExcept (item record "messageId")
  let source := (← .ofExcept (attr record "source")).orElse (.str "unknown")
  let signature := (← .ofExcept (attr record "signature")).orElse (.str "")
  let body ← .ofExcept (getD record "body" (.str ""))
  Program.tryCatch (handleError messageId) do
    let payload ← .ofExcept (verified py hmac config key messageId signature body)
    .call (.processEvent messageId source payload) .ofExcept
    return none

def handle (py : Python) (hmac : Hmac) (config : Config) (cached : Option Bytes) (event : Json) :
    Handler Json := do
  let key ← signingKey cached
  let records ← .ofExcept (getD event "Records" (.arr []) >>= iter)
  let failures ← collect (handleRecord py hmac config key) records []
  return .obj [("batchItemFailures", .arr failures)]

end WebhookIngest
