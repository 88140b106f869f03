-- SUMMARY: Which calls of the business logic a batch of webhooks leads to, record by record.
import ServerlessPatterns.Library.BatchFunction
import ServerlessPatterns.WebhookIngest.Retries

/-!
# Batches

The loop over a batch calls the business logic for the records that are verified
and parse, in the order of the batch. One record does not interfere with another:
a batch does what its parts do one after the other.
-/

namespace WebhookIngest

open Program Python
open BatchFunction (event response Loops calls_loop)

/-- A record of a batch. -/
structure Record where
  messageId : String
  body : String
  attributes : List (String × List (String × Json))

namespace Record

def messages (record : Record) : Messages where
  body _ := record.body
  attributes _ := record.attributes

def json (record : Record) : Json := record.messages.record record.messageId

/-- The `stringValue` of a message attribute. -/
def stringValue (record : Record) (name : String) : Json :=
  ((record.attributes.lookup name).bind (·.lookup "stringValue")).getD .null

def source (record : Record) : Json := (record.stringValue "source").orElse (.str "unknown")

def signature (record : Record) : Json := (record.stringValue "signature").orElse (.str "")

end Record

def recordsEvent (records : List Record) : Json := event (records.map Record.json)

/-- The payload in a body: none in an empty one, or what it parses as. -/
def parsed (py : Python) (body : String) : Except Exc Json :=
  if body = "" then .ok (.obj []) else py.loads body

/-- The call a record is due: its signature verifies and its body is empty or
    parses. -/
def due (py : Python) (hmac : Hmac) (config : Config) (key : Bytes) (record : Record) :
    Option Op :=
  match verify py hmac key (encode record.body) record.signature config.signatureAlgorithm
      config.signaturePrefix with
  | .ok true =>
    match parsed py record.body with
    | .ok payload => some (.processEvent (.str record.messageId) record.source payload)
    | .error _ => none
  | _ => none

variable {py : Python} {hmac : Hmac} {config : Config} {key : Bytes} {record : Record}

/-! ## One record -/

theorem lookup_entries {entries : List (String × List (String × Json))} {name : String} :
    (entries.map fun entry => (entry.1, Json.obj entry.2)).lookup name =
      (entries.lookup name).map .obj := by
  induction entries with
  | nil => rfl
  | cons entry rest ih =>
      cases entry with
      | mk head fields =>
          by_cases hname : name = head
          · simp [hname]
          · have hne : (name == head) = false := by simpa using hname
            simpa [List.lookup_cons, hne] using ih

theorem attr_json {name : String} : attr record.json name = .ok (record.stringValue name) := by
  have hattrs : getD record.json "messageAttributes" (.obj []) =
      .ok (.obj (record.attributes.map fun entry => (entry.1, .obj entry.2))) := rfl
  unfold attr
  rw [hattrs]
  simp only [Bind.bind, Except.bind, get_obj, lookup_entries]
  unfold Record.stringValue
  cases record.attributes.lookup name with
  | none => rfl
  | some fields =>
      cases fields with
      | nil => rfl
      | cons field rest => rfl

/-- What the `try` block has for the business logic is what the record is due. -/
theorem due_eq : due py hmac config key record =
    match verified py hmac config key (.str record.messageId) record.signature
      (.str record.body) with
    | .ok payload => some (.processEvent (.str record.messageId) record.source payload)
    | .error _ => none := by
  have hencoded : encoded (.str record.body) = .ok (encode record.body) := rfl
  unfold due verified parsed
  rw [hencoded]
  simp only [Bind.bind, Except.bind]
  cases verify py hmac key (encode record.body) record.signature config.signatureAlgorithm
      config.signaturePrefix with
  | error e => rfl
  | ok verdict =>
      cases verdict with
      | false => rfl
      | true =>
          by_cases hbody : record.body = ""
          · simp [hbody, Json.truthy, pure, Except.pure]
          · simp [hbody, Json.truthy, jsonLoads]

theorem handleRecord_performs :
    (handleRecord py hmac config key record.json).Performs Expected
      (due py hmac config key record).toList := by
  have hcaught : ∀ e : Exc, e.isInstance "Exception" = true →
      ((handleError (.str record.messageId) e).getD (.raise e)).Performs Expected [] := by
    intro e he
    rw [handleError_ordinary he]
    exact performs_ret
  unfold Record.json
  rw [handleRecord_record attr_json attr_json, due_eq]
  change (Program.tryCatch _ (ofExcept (verified py hmac config key (.str record.messageId)
    record.signature (.str record.body)) >>= _)).Performs _ _
  cases hverified : verified py hmac config key (.str record.messageId) record.signature
      (.str record.body) with
  | error e => exact hcaught e (ordinary_verified e hverified)
  | ok payload =>
      apply performs_call
      intro answer hanswer
      cases answer with
      | ok done => exact performs_ret
      | error e => exact hcaught e (hanswer e rfl)

/-! ## The batch -/

theorem handle_loops :
    Loops (handle py hmac config (some key)) (handleRecord py hmac config key) := fun _ => rfl

/-- An invocation asks for the calls its records are due, in the order of the
    batch. -/
theorem handle_performs {records : List Record} :
    (handle py hmac config (some key) (recordsEvent records)).Performs Expected
      (records.filterMap (due py hmac config key)) := by
  have hops : records.filterMap (due py hmac config key) =
      records.flatMap (fun record => (due py hmac config key record).toList) ++ [] := by
    rw [List.append_nil, List.filterMap_eq_flatMap_toList]
  unfold recordsEvent
  rw [handle_loops, collect_map, hops]
  apply (performs_collect fun record _ => handleRecord_performs).bind
  intro failures
  exact performs_ret

/-- The business logic is called exactly once, and in the order of the batch, for
    the records whose signature verifies and whose body is empty or parses, and for
    no other; the invocation does not raise. The calls and the failures of two lists
    of records are those of the first followed by those of the second. -/
theorem handle_gated_compositional (py : Python) (hmac : Hmac) (config : Config) (key : Bytes) :
    (∀ (records : List Record) (calls : List (Event Op Ans)) (outcome : Outcome Exc Json),
      Calls (handle py hmac config (some key) (recordsEvent records)) calls outcome →
      (∀ event ∈ calls, Expected event.1 event.2) →
      calls.map Sigma.fst <+: records.filterMap (due py hmac config key) ∧
        (outcome ≠ .lost →
          calls.map Sigma.fst = records.filterMap (due py hmac config key) ∧
          ∃ failures, outcome = .returned (response failures))) ∧
    ∀ (front back : List Record) (calls : List (Event Op Ans)) (failures : List Json),
      Calls (handle py hmac config (some key) (recordsEvent (front ++ back))) calls
          (.returned (response failures)) ↔
        ∃ calls₁ failures₁ calls₂ failures₂, calls = calls₁ ++ calls₂ ∧
          failures = failures₁ ++ failures₂ ∧
          Calls (handle py hmac config (some key) (recordsEvent front)) calls₁
            (.returned (response failures₁)) ∧
          Calls (handle py hmac config (some key) (recordsEvent back)) calls₂
            (.returned (response failures₂)) := by
  constructor
  · intro records calls outcome hcalls hexpected
    obtain ⟨hfront, hall⟩ := handle_performs.calls hcalls hexpected
    refine ⟨hfront, fun hended => ?_⟩
    obtain ⟨heq, document, rfl⟩ := hall hended
    unfold recordsEvent at hcalls
    rw [handle_loops] at hcalls
    obtain ⟨failures, rfl, _⟩ := calls_bind_ret.mp hcalls
    exact ⟨heq, failures, rfl⟩
  · intro front back calls failures
    simp only [recordsEvent, calls_loop handle_loops, List.map_append]
    exact calls_collect_append

def sampleRecord : Record where
  messageId := "evt-1"
  body := "\x7b\x7d"
  attributes := sampleMessages.attributes "evt-1"

/-- A record with the sample body and a signature that is none of it. -/
def forgedRecord : Record where
  messageId := "evt-2"
  body := "\x7b\x7d"
  attributes := [("source", [("stringValue", .str "github")]),
    ("signature", [("stringValue", .str "forged")])]

theorem forgedRecord_calls :
    Calls (handle Python.sample sampleHmac sampleConfig (some sampleKey)
      (recordsEvent [forgedRecord])) [] (.returned (response [])) := by
  have hverified : verified Python.sample sampleHmac sampleConfig sampleKey (.str "evt-2")
      forgedRecord.signature (.str "\x7b\x7d") = .error (unverified "evt-2") := by
    decide +kernel
  apply (calls_loop handle_loops).mpr
  apply calls_bind_ret.mpr
  refine ⟨none, rfl, ?_⟩
  unfold Record.json
  rw [handleRecord_record attr_json attr_json]
  change Calls (Program.tryCatch _ (ofExcept (verified Python.sample sampleHmac sampleConfig
    sampleKey (.str "evt-2") forgedRecord.signature (.str "\x7b\x7d")) >>= _)) _ _
  rw [hverified]
  exact calls_ret.mpr ⟨rfl, .inl rfl⟩

/-- Of a forged record and the sample record only the second is due its call, and it
    gets it also when the call fails. -/
theorem handle_gated_compositional_sample :
    [Op.processEvent (.str "evt-1") ((Json.str "github").orElse (.str "unknown")) (.obj [])] =
      [forgedRecord, sampleRecord].filterMap
        (due Python.sample sampleHmac sampleConfig sampleKey) := by
  have hcontract := handle_gated_compositional Python.sample sampleHmac sampleConfig sampleKey
  have hsample : Calls (handle Python.sample sampleHmac sampleConfig (some sampleKey)
      (recordsEvent [sampleRecord]))
      [⟨.processEvent (.str "evt-1") ((Json.str "github").orElse (.str "unknown")) (.obj []),
        .error unavailable⟩] (.returned (response [listing "evt-1"])) :=
    sample_calls (show unavailable.isInstance "Exception" = true from rfl)
  have hcalls := (hcontract.2 [forgedRecord] [sampleRecord] _ _).mpr
    ⟨_, _, _, _, rfl, rfl, forgedRecord_calls, hsample⟩
  exact ((hcontract.1 _ _ _ hcalls (expected_error rfl)).2 (by simp)).1

end WebhookIngest
