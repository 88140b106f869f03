-- SUMMARY: The webhook endpoint: what the mapping template makes of a request, and what the consumer finds in the queue.
import ServerlessPatterns.Library.Forms
import ServerlessPatterns.WebhookIngest.Queue

/-!
# Edge

API Gateway writes the request into a `SendMessage` form and maps the status that SQS has
for it to its own answer. The consumer verifies what SQS reads from the form.
-/

namespace WebhookIngest

open Program Python Hyperlinks Forms

/-- A request as the mapping template sees it: header names are in lower case, and a
    request without a content type has that of JSON. -/
structure Request where
  source : String
  headers : List (String × String)
  contentType : String
  body : String
  requestTimeEpoch : String
  epochDigits : Plain requestTimeEpoch.toList

/-- A required parameter is there and not blank. -/
def present (value : Option String) : Bool := value.any fun text => strip text ≠ ""

/-- The `validate-body` request validator. No model is given for the body. -/
def valid (signatureHeader : String) (request : Request) : Bool :=
  present (some request.source) && present (request.headers.lookup signatureHeader)

/-- A content type without its parameters. -/
def mediaType (contentType : String) : String :=
  strip (String.ofList (contentType.toList.takeWhile (· ≠ ';')))

def signatureOf (signatureHeader : String) (request : Request) : String :=
  (request.headers.lookup signatureHeader).getD ""

/-- The request template for `application/json`, with the line break at its end. -/
def requestTemplate (signatureHeader : String) (request : Request) : String :=
  "Action=SendMessage&MessageBody=" ++ urlEncode request.body ++
  "&MessageAttribute.1.Name=signature&MessageAttribute.1.Value.StringValue=" ++
  urlEncode (signatureOf signatureHeader request) ++
  "&MessageAttribute.1.Value.DataType=String&MessageAttribute.2.Name=source" ++
  "&MessageAttribute.2.Value.StringValue=" ++ urlEncode request.source ++
  "&MessageAttribute.2.Value.DataType=String&MessageAttribute.3.Name=received_at" ++
  "&MessageAttribute.3.Value.StringValue=" ++ request.requestTimeEpoch ++
  "&MessageAttribute.3.Value.DataType=Number\n"

/-- The `selection_pattern` of the error response. -/
def serverError (status : Nat) : Bool :=
  match (toString status).toList with
  | ['5', c, d] => c.isDigit && d.isDigit
  | _ => false

/-- The integration response that the status of SQS selects. -/
def integrationResponse (status : Nat) : Nat := if serverError status then 500 else 202

/-- What the caller is answered, and the form that put a message on the queue. -/
structure Reply where
  status : Nat
  queued : Option String

/-- The endpoint, given the status with which SQS answers a form. A message is on the
    queue when that is 200. -/
def respond (signatureHeader : String) (sqs : String → Nat) (request : Request) : Reply :=
  if !valid signatureHeader request then ⟨400, none⟩
  else if mediaType request.contentType ≠ "application/json" then ⟨415, none⟩
  else
    let form := requestTemplate signatureHeader request
    ⟨integrationResponse (sqs form), if sqs form = 200 then some form else none⟩

/-! ## The queue's side -/

/-- A message attribute of a `SendMessage` form. -/
def messageAttribute (fields : List (String × String)) (i : Nat) :
    Option (String × List (String × Json)) := do
  let name ← fields.lookup s!"MessageAttribute.{i}.Name"
  let value ← fields.lookup s!"MessageAttribute.{i}.Value.StringValue"
  let dataType ← fields.lookup s!"MessageAttribute.{i}.Value.DataType"
  return (name, [("stringValue", .str value), ("dataType", .str dataType)])

/-- The record in which the consumer receives the message of a form. -/
def delivered (form messageId : String) : Option Record := do
  let fields ← parseQuery true form.toList
  let body ← fields.lookup "MessageBody"
  return ⟨messageId, body, (List.range' 1 10).filterMap (messageAttribute fields)⟩

variable {signatureHeader messageId : String} {request : Request}

/-- The fields of the template, as it writes them. -/
def templateFields (signatureHeader : String) (request : Request) : List (List Char) :=
  ["Action".toList ++ '=' :: "SendMessage".toList,
    "MessageBody".toList ++ '=' :: (urlEncode request.body).toList,
    "MessageAttribute.1.Name".toList ++ '=' :: "signature".toList,
    "MessageAttribute.1.Value.StringValue".toList ++
      '=' :: (urlEncode (signatureOf signatureHeader request)).toList,
    "MessageAttribute.1.Value.DataType".toList ++ '=' :: "String".toList,
    "MessageAttribute.2.Name".toList ++ '=' :: "source".toList,
    "MessageAttribute.2.Value.StringValue".toList ++ '=' :: (urlEncode request.source).toList,
    "MessageAttribute.2.Value.DataType".toList ++ '=' :: "String".toList,
    "MessageAttribute.3.Name".toList ++ '=' :: "received_at".toList,
    "MessageAttribute.3.Value.StringValue".toList ++ '=' :: request.requestTimeEpoch.toList,
    "MessageAttribute.3.Value.DataType".toList ++ '=' :: "Number\n".toList]

theorem toList_requestTemplate : (requestTemplate signatureHeader request).toList =
    ['&'].intercalate (templateFields signatureHeader request) := by
  have hbody : "Action=SendMessage&MessageBody=".toList =
      "Action".toList ++ '=' :: ("SendMessage".toList ++ '&' :: ("MessageBody".toList ++ ['='])) := by
    decide +kernel
  have hsignature :
      "&MessageAttribute.1.Name=signature&MessageAttribute.1.Value.StringValue=".toList =
      '&' :: ("MessageAttribute.1.Name".toList ++ '=' :: ("signature".toList ++
        '&' :: ("MessageAttribute.1.Value.StringValue".toList ++ ['=']))) := by
    decide +kernel
  have htype : "&MessageAttribute.1.Value.DataType=String&MessageAttribute.2.Name=source".toList =
      '&' :: ("MessageAttribute.1.Value.DataType".toList ++ '=' :: ("String".toList ++
        '&' :: ("MessageAttribute.2.Name".toList ++ '=' :: "source".toList))) := by
    decide +kernel
  have hsource : "&MessageAttribute.2.Value.StringValue=".toList =
      '&' :: ("MessageAttribute.2.Value.StringValue".toList ++ ['=']) := by
    decide +kernel
  have hreceived :
      "&MessageAttribute.2.Value.DataType=String&MessageAttribute.3.Name=received_at".toList =
      '&' :: ("MessageAttribute.2.Value.DataType".toList ++ '=' :: ("String".toList ++
        '&' :: ("MessageAttribute.3.Name".toList ++ '=' :: "received_at".toList))) := by
    decide +kernel
  have hepoch : "&MessageAttribute.3.Value.StringValue=".toList =
      '&' :: ("MessageAttribute.3.Value.StringValue".toList ++ ['=']) := by
    decide +kernel
  have hnumber : "&MessageAttribute.3.Value.DataType=Number\n".toList =
      '&' :: ("MessageAttribute.3.Value.DataType".toList ++ '=' :: "Number\n".toList) := by
    decide +kernel
  unfold requestTemplate templateFields
  simp only [String.toList_append, hbody, hsignature, htype, hsource, hreceived, hepoch, hnumber]
  simp only [List.intercalate, List.intersperse, List.flatten_cons, List.flatten_nil, List.append_assoc,
    List.cons_append, List.nil_append, List.append_nil]

theorem parseQuery_requestTemplate :
    parseQuery true (requestTemplate signatureHeader request).toList = some
      [("Action", "SendMessage"), ("MessageBody", request.body),
        ("MessageAttribute.1.Name", "signature"),
        ("MessageAttribute.1.Value.StringValue", signatureOf signatureHeader request),
        ("MessageAttribute.1.Value.DataType", "String"),
        ("MessageAttribute.2.Name", "source"),
        ("MessageAttribute.2.Value.StringValue", request.source),
        ("MessageAttribute.2.Value.DataType", "String"),
        ("MessageAttribute.3.Name", "received_at"),
        ("MessageAttribute.3.Value.StringValue", request.requestTimeEpoch),
        ("MessageAttribute.3.Value.DataType", "Number\n")] := by
  rw [toList_requestTemplate]
  apply parseQuery_fields _ (by simp [templateFields])
  repeat' apply List.Forall₂.cons
  · exact field_plain (by decide) (by decide)
  · exact field_urlEncode (by decide)
  · exact field_plain (by decide) (by decide)
  · exact field_urlEncode (by decide)
  · exact field_plain (by decide) (by decide)
  · exact field_plain (by decide) (by decide)
  · exact field_urlEncode (by decide)
  · exact field_plain (by decide) (by decide)
  · exact field_plain (by decide) (by decide)
  · exact field_plain (by decide) request.epochDigits
  · exact field_plain (by decide) (by decide)
  · exact .nil

/-- What the queue holds for a request. -/
def relayed (signatureHeader messageId : String) (request : Request) : Record where
  messageId := messageId
  body := request.body
  attributes :=
    [("signature", [("stringValue", .str (signatureOf signatureHeader request)), ("dataType", .str "String")]),
      ("source", [("stringValue", .str request.source), ("dataType", .str "String")]),
      ("received_at", [("stringValue", .str request.requestTimeEpoch), ("dataType", .str "Number\n")])]

theorem delivered_requestTemplate : delivered (requestTemplate signatureHeader request) messageId =
    some (relayed signatureHeader messageId request) := by
  unfold delivered
  rw [parseQuery_requestTemplate]
  rfl

/-! ## From the request to the business logic -/

/-- What the endpoint does with a request, and what the consumer makes of it. -/
structure Relays (py : Python) (hmac : Hmac) (config : Config) (signatureHeader : String)
    (sqs : String → Nat) (request : Request) : Prop where
  /-- A request is accepted and lost exactly when SQS turns it down with a status that is
      no server error. -/
  lost : (respond signatureHeader sqs request).status = 202 ∧
      (respond signatureHeader sqs request).queued = none ↔
    valid signatureHeader request = true ∧ mediaType request.contentType = "application/json" ∧
      sqs (requestTemplate signatureHeader request) ≠ 200 ∧
      serverError (sqs (requestTemplate signatureHeader request)) = false
  accepted : (respond signatureHeader sqs request).queued ≠ none →
    (respond signatureHeader sqs request).status = 202
  /-- The consumer receives the body, the header and the source in the path as they were
      sent. It verifies this header on this body, and processes the payload in it for this
      source. -/
  relayed : ∀ form ∈ (respond signatureHeader sqs request).queued, ∀ messageId,
    ∃ record, delivered form messageId = some record ∧ record.messageId = messageId ∧
      record.body = request.body ∧ record.signature = .str (signatureOf signatureHeader request) ∧
      record.source = .str request.source ∧ ∀ key op,
        due py hmac config key record = some op ↔
          verify py hmac key (encode request.body) (.str (signatureOf signatureHeader request))
            config.signatureAlgorithm config.signaturePrefix = .ok true ∧
          ∃ payload, parsed py request.body = .ok payload ∧
            op = .processEvent (.str messageId) (.str request.source) payload

variable {py : Python} {hmac : Hmac} {config : Config} {key : Bytes} {sqs : String → Nat}

theorem source_ne (hvalid : valid signatureHeader request = true) : request.source ≠ "" := by
  have hpresent := (Bool.and_eq_true_iff.mp hvalid).1
  rintro hempty
  rw [hempty] at hpresent
  revert hpresent
  decide +kernel

theorem relayed_signature : (relayed signatureHeader messageId request).signature =
    .str (signatureOf signatureHeader request) := by
  have hvalue : (relayed signatureHeader messageId request).stringValue "signature" =
      .str (signatureOf signatureHeader request) := rfl
  unfold Record.signature Json.orElse
  rw [hvalue]
  by_cases hempty : signatureOf signatureHeader request = ""
  · rw [hempty]
    rfl
  · rw [if_pos (Json.truthy_str.mpr hempty)]

theorem relayed_source (hne : request.source ≠ "") :
    (relayed signatureHeader messageId request).source = .str request.source := by
  have hvalue : (relayed signatureHeader messageId request).stringValue "source" =
      .str request.source := rfl
  unfold Record.source
  rw [hvalue, Json.orElse_of_truthy (Json.truthy_str.mpr hne)]

theorem due_eq_some {record : Record} {op : Op} :
    due py hmac config key record = some op ↔
      verify py hmac key (encode record.body) record.signature config.signatureAlgorithm
        config.signaturePrefix = .ok true ∧
      ∃ payload, parsed py record.body = .ok payload ∧
        op = .processEvent (.str record.messageId) record.source payload := by
  unfold due
  cases verify py hmac key (encode record.body) record.signature config.signatureAlgorithm
      config.signaturePrefix with
  | error e => simp
  | ok verdict =>
      cases verdict with
      | false => simp
      | true =>
          cases parsed py record.body with
          | error e => simp
          | ok payload => simp [eq_comm]

theorem due_relayed (hne : request.source ≠ "") {op : Op} :
    due py hmac config key (relayed signatureHeader messageId request) = some op ↔
      verify py hmac key (encode request.body) (.str (signatureOf signatureHeader request))
        config.signatureAlgorithm config.signaturePrefix = .ok true ∧
      ∃ payload, parsed py request.body = .ok payload ∧
        op = .processEvent (.str messageId) (.str request.source) payload := by
  rw [due_eq_some, relayed_signature, relayed_source hne]
  exact Iff.rfl

theorem integrationResponse_accepted {status : Nat} :
    integrationResponse status = 202 ↔ serverError status = false := by
  unfold integrationResponse
  cases serverError status <;> simp

theorem respond_queued {form : String} (h : form ∈ (respond signatureHeader sqs request).queued) :
    valid signatureHeader request = true ∧ form = requestTemplate signatureHeader request ∧
      sqs form = 200 := by
  unfold respond at h
  cases hvalid : valid signatureHeader request with
  | false =>
      rw [hvalid] at h
      cases h
  | true =>
      rw [hvalid] at h
      by_cases hjson : mediaType request.contentType = "application/json"
      · by_cases hstatus : sqs (requestTemplate signatureHeader request) = 200
        · simp only [Bool.not_true, Bool.false_eq_true, if_false, ne_eq, hjson, not_true_eq_false,
            hstatus, if_true] at h
          obtain rfl := Option.some.inj h
          exact ⟨rfl, rfl, hstatus⟩
        · simp [hjson, hstatus] at h
      · simp [hjson] at h

/-- Whatever a request holds, its body, signature and source reach the consumer as they
    were sent. It is answered 202 also when SQS turned it down. -/
theorem relays (py : Python) (hmac : Hmac) (config : Config) (signatureHeader : String)
    (sqs : String → Nat) (request : Request) :
    Relays py hmac config signatureHeader sqs request where
  lost := by
    unfold respond
    cases valid signatureHeader request with
    | false => simp
    | true =>
        by_cases hjson : mediaType request.contentType = "application/json"
        · simp [hjson, integrationResponse_accepted, and_comm]
        · simp [hjson]
  accepted := by
    intro hqueued
    obtain ⟨form, hform⟩ := Option.ne_none_iff_exists'.mp hqueued
    obtain ⟨hvalid, rfl, hstatus⟩ := respond_queued hform
    have hjson : mediaType request.contentType = "application/json" := by
      by_contra hjson
      unfold respond at hform
      simp [hvalid, hjson] at hform
    unfold respond
    simp [hvalid, hjson, hstatus, integrationResponse_accepted]
    decide +kernel
  relayed := by
    intro form hform messageId
    obtain ⟨hvalid, rfl, _⟩ := respond_queued hform
    have hne := source_ne hvalid
    exact ⟨_, delivered_requestTemplate, rfl, rfl, relayed_signature, relayed_source hne,
      fun key op => due_relayed hne⟩

/-! ## Genuine webhooks -/

theorem due_genuine (hconfig : config.Sound)
    (hhex : ∀ algorithm ∈ supportedAlgorithms, ∀ secret body, IsHexDigest (hmac algorithm secret body))
    (hlower : ∀ digest, IsHexDigest digest → py.lower digest = digest) {secret : SecretValue}
    (hvalid : valid signatureHeader request = true) (hkey : secret.key = some key)
    (hgenuine : Genuine hmac config secret (relayed signatureHeader messageId request))
    {payload : Json} (hparsed : parsed py request.body = .ok payload) :
    due py hmac config key (relayed signatureHeader messageId request) =
      some (.processEvent (.str messageId) (.str request.source) payload) := by
  obtain ⟨key', hkey', hsignature⟩ := hgenuine
  obtain rfl : key' = key := Option.some.inj (hkey'.symm.trans hkey)
  have hheader : signatureOf signatureHeader request =
      config.signaturePrefix ++ hmac config.signatureAlgorithm key' (encode request.body) :=
    Json.str.inj hsignature
  have hdigest := hhex _ hconfig.algorithm key' (encode request.body)
  refine (due_relayed (source_ne hvalid)).mpr ⟨?_, payload, hparsed, rfl⟩
  rw [hheader]
  exact verify_genuine hconfig.algorithm hconfig.signaturePrefix rfl hdigest (hlower _ hdigest)

/-- A genuine webhook whose body is empty or parses, and that only invocations with the
    right key were done with, was handed to the business logic as the provider sent it. -/
theorem genuine_processed (hconfig : config.Sound)
    (hhex : ∀ algorithm ∈ supportedAlgorithms, ∀ secret body, IsHexDigest (hmac algorithm secret body))
    (hlower : ∀ digest, IsHexDigest digest → py.lower digest = digest) {secret : SecretValue}
    {maxReceiveCount : Nat} {messages : Messages} {m : String} {q : MessageQueue.Queue Op Ans}
    {invs : List (MessageQueue.Begun (Option Bytes) Op Ans)}
    (h : (ingest py hmac config maxReceiveCount messages).History q invs)
    (hkeys : ∀ inv ∈ invs, ∀ key, Holds inv key → secret.key = some key)
    (hvalid : valid signatureHeader request = true)
    (hmessage : messages.webhook m = relayed signatureHeader m request)
    (hgenuine : Genuine hmac config secret (messages.webhook m)) {payload : Json}
    (hparsed : parsed py request.body = .ok payload) (hdeleted : q.place m = .deleted) :
    ∃ inv ∈ invs, MessageQueue.Acknowledges inv.toInvocation m ∧ ∃ answer,
      ⟨.processEvent (.str m) (.str request.source) payload, answer⟩ ∈ inv.calls ∧
        ∀ e, answer = .error e → drops e = true := by
  obtain ⟨inv, hinv, hack, key, hholds, calls, hconcluded, hcalls⟩ :=
    concluded_of_deleted h hdeleted
  rw [hmessage] at hgenuine hconcluded
  have hdue := due_genuine hconfig hhex hlower hvalid (hkeys inv hinv key hholds) hgenuine hparsed
  rw [due_checked] at hdue
  refine ⟨inv, hinv, hack, ?_⟩
  cases hconcluded with
  | refused hchecked =>
      rw [hchecked] at hdue
      cases hdue
  | processed hchecked =>
      rw [hchecked] at hdue
      injection Option.some.inj hdue with _ hsource hpayload
      rw [hsource, hpayload] at hcalls
      exact ⟨.ok (), hcalls _ List.mem_cons_self, nofun⟩
  | @dropped _ e hchecked hdrops =>
      rw [hchecked] at hdue
      injection Option.some.inj hdue with _ hsource hpayload
      rw [hsource, hpayload] at hcalls
      refine ⟨.error e, hcalls _ List.mem_cons_self, ?_⟩
      rintro _ ⟨⟩
      exact hdrops

def sampleRequest : Request where
  source := "github"
  headers := [("x-signature-256", sampleSignature)]
  contentType := "application/json"
  body := "\x7b\x7d"
  requestTimeEpoch := "1700000000000"
  epochDigits := by decide

def relayedMessages : Messages where
  body _ := "\x7b\x7d"
  attributes m := (relayed "x-signature-256" m sampleRequest).attributes

theorem genuine_processed_sample : ∃ inv : MessageQueue.Begun (Option Bytes) Op Ans,
    MessageQueue.Acknowledges inv.toInvocation "evt-1" ∧ ∃ answer,
      ⟨.processEvent (.str "evt-1") (.str "github") (.obj []), answer⟩ ∈ inv.calls ∧
        ∀ e, answer = .error e → drops e = true := by
  have hchecked : checked Python.sample rotationHmac sampleConfig sampleKey
      (relayedMessages.webhook "evt-1") = .ok (.obj []) := by
    decide +kernel
  have hrecord : Calls (handleRecord Python.sample rotationHmac sampleConfig sampleKey
      (relayedMessages.record "evt-1"))
      [⟨.processEvent (.str "evt-1") (relayedMessages.webhook "evt-1").source (.obj []), .ok ()⟩]
      (.returned none) := by
    rw [handleRecord_webhook, hchecked]
    exact calls_call_cons.mpr (calls_ret.mpr ⟨rfl, .inl rfl⟩)
  have hkey : signingKey (some sampleKey) = ret sampleKey := rfl
  have hhandle : Calls ((ingest Python.sample rotationHmac sampleConfig 5 relayedMessages).handler
        (some sampleKey) ((ingest Python.sample rotationHmac sampleConfig 5 relayedMessages).event
        (fun _ => 1) ["evt-1"]))
      [⟨.processEvent (.str "evt-1") (relayedMessages.webhook "evt-1").source (.obj []), .ok ()⟩]
      (.returned (BatchFunction.response [])) := by
    rw [ingest_event, hkey, ret_bind]
    apply calls_bind_ret.mpr
    exact ⟨[], rfl, calls_bind_ret.mpr ⟨none, rfl, hrecord⟩⟩
  obtain ⟨q, hhistory, hplace⟩ := MessageQueue.Service.exists_deleted hhandle nofun
  have hkeys : ∀ inv ∈ [⟨⟨["evt-1"], [⟨.processEvent (.str "evt-1") (.str "github") (.obj []), .ok ()⟩],
      .returned (BatchFunction.response [])⟩, some sampleKey⟩], ∀ key, Holds inv key →
        sampleSecret.key = some key := by
    intro inv hinv key hholds
    obtain rfl := List.mem_singleton.mp hinv
    rcases hholds with hfound | ⟨hnone, _⟩
    · exact hfound
    · cases hnone
  have hgenuine : Genuine rotationHmac sampleConfig sampleSecret (relayedMessages.webhook "evt-1") := by
    refine ⟨sampleKey, rfl, ?_⟩
    decide +kernel
  have hparsed : parsed Python.sample sampleRequest.body = .ok (.obj []) := by
    decide +kernel
  have hvalid : valid "x-signature-256" sampleRequest = true := by
    decide +kernel
  obtain ⟨inv, _, hprocessed⟩ := genuine_processed sampleConfig_sound rotationHmac_hex sample_lower
    hhistory hkeys hvalid rfl hgenuine hparsed hplace
  exact ⟨inv, hprocessed⟩

end WebhookIngest
