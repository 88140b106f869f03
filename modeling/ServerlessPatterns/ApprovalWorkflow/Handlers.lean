-- SUMMARY: The Lambda handlers of the approval workflow, as programs over the store, Step Functions and SES.
import ServerlessPatterns.ApprovalWorkflow.Store
import ServerlessPatterns.Library.Program

/-!
# Approval handlers

`prepareRequest`, `sendApprovalEmail`, `onApproved` and `onRejected` are the
state machine's tasks, `decisionHandler` answers the clicks on the emailed
links. An operation is one call to DynamoDB, Step Functions or SES, or a reading
of the clock or of the random source.
-/

namespace ApprovalWorkflow

/-- The message `_send_email` hands to SES. -/
structure Email where
  source : String
  toAddresses : List String
  subject : String
  textBody : String
  htmlBody : String

/-- What a callback reports for a task token. -/
inductive TaskResult where
  | success (output : String)
  | failure (error cause : String)
  deriving DecidableEq

inductive Op where
  | create (requestId : Json) (title : String) (amount : Option PyFloat) (requester : String)
      (context : Json) (ttlSeconds : Int)
  | attachToken (requestId taskToken : Json)
  | recordDecision (requestId decision : Json) (approver comment : String)
  | get (requestId : Json)
  /-- `SendTaskSuccess` or `SendTaskFailure`. -/
  | sendTask (taskToken : String) (result : TaskResult)
  | sendEmail (email : Email)
  | newId (idPrefix : String)
  | nowIso

abbrev Ans : Op → Type
  | .get _ => Except Exc (Option Json)
  | .newId _ | .nowIso => String
  | _ => Except Exc Unit

abbrev Handler (α : Type) := Program Op Ans Exc α

/-- The environment variables the handlers read. -/
structure Env where
  apiBaseUrl : String
  fromAddress : String
  approverAddresses : String
  emailSubjectPrefix : String

/-- Raised when an approval request fails validation. -/
def approvalInputError (message : String) : Exc :=
  ⟨"ApprovalInputError", ["errors.ApprovalInputError", "errors.ApprovalError", "Exception"], message⟩

def defaultTtlSeconds : Int := 90 * 24 * 60 * 60

/-! ## Helpers -/

/-- `quote(value)`, which takes strings only. -/
def quoteArg : Json → Except Exc String
  | .str s => .ok (Python.quote s)
  | _ => .error (.typeError "quote_from_bytes() expected bytes")

/-- Build an absolute approve/reject callback URL with URL-encoded params. -/
def decisionUrl (env : Env) (action : String) (requestId token : Json) : Except Exc String := do
  let base := Python.rstripChar '/' env.apiBaseUrl
  let r ← quoteArg requestId
  let t ← quoteArg token
  return s!"{base}/{action}?request_id={r}&token={t}"

structure HtmlResponse where
  statusCode : Nat
  headers : List (String × String)
  body : String

/-- Render a minimal HTML response for the API Gateway proxy integration. -/
def htmlResponse (statusCode : Nat) (title message : String) : HtmlResponse where
  statusCode := statusCode
  headers := [("Content-Type", "text/html; charset=utf-8")]
  body :=
    "<!doctype html><html><head><meta charset='utf-8'>" ++
    "<meta name='viewport' content='width=device-width, initial-scale=1'>" ++
    "<title>" ++ Python.htmlEscape title ++ "</title></head>" ++
    "<body style='font-family:system-ui,sans-serif;max-width:32rem;margin:4rem auto;" ++
    "text-align:center;color:#1f2937'>" ++
    "<h1>" ++ Python.htmlEscape title ++ "</h1><p>" ++ Python.htmlEscape message ++ "</p>" ++
    "<p style='color:#6b7280'>You can close this window.</p></body></html>"

@[simp] theorem htmlResponse_statusCode {code : Nat} {title message : String} :
    (htmlResponse code title message).statusCode = code := rfl

/-! ## Step Functions tasks -/

/-- The `amount` of a request, `None` or a `float`. -/
def requestAmount (py : Python) (amount : Json) : Except Exc (Option PyFloat) :=
  match amount with
  | .null => .ok none
  | amount =>
    match py.float amount with
    | .ok x => .ok (some x)
    | .error e =>
      if e.isInstance "TypeError" || e.isInstance "ValueError" then
        .error (approvalInputError ("amount must be numeric, got " ++ py.repr amount))
      else .error e

/-- `spec.get("request_id") or _new_id("req")`. -/
def requestIdOf (requestId : Json) : Handler Json :=
  if requestId.truthy then .ret requestId
  else .call (.newId "req") fun id => .ret (.str id)

/-- Validate the incoming request and persist it in PENDING state. -/
def prepareRequest (py : Python) (event : Json) : Handler Json := do
  let spec := event.orElse (.obj [])
  match ← .ofExcept (Python.get spec "title") with
  | .str title =>
    if title = "" then .raise (approvalInputError "request is missing a non-empty 'title'")
    else do
      let requester := py.str (← .ofExcept (Python.getD spec "requester" (.str "unknown")))
      let requestId ← requestIdOf (← .ofExcept (Python.get spec "request_id"))
      let amount ← .ofExcept (requestAmount py (← .ofExcept (Python.get spec "amount")))
      let context := (← .ofExcept (Python.get spec "context")).orElse (.obj [])
      .call (.create requestId title amount requester context defaultTtlSeconds) .ofExcept
      return .obj [("request_id", requestId), ("title", .str title),
        ("amount", match amount with | some x => .num (.float x) | none => .null),
        ("requester", .str requester)]
  | _ => .raise (approvalInputError "request is missing a non-empty 'title'")

/-- Send the approval email to the configured approver(s) via SES. -/
def sendEmail (py : Python) (env : Env) (request : Json) (approveUrl rejectUrl : String) :
    Handler Unit := do
  let recipients := ((Python.splitChar ',' env.approverAddresses).map Python.strip).filter (· ≠ "")
  if recipients.isEmpty then
    .raise (approvalInputError "no approver addresses configured (APPROVER_ADDRESSES is empty)")
  else do
    let title := py.str (← .ofExcept (Python.getD request "title" (.str "approval request")))
    let requester := py.str (← .ofExcept (Python.getD request "requester" (.str "unknown")))
    let amount ← .ofExcept (Python.get request "amount")
    let amountLine := if amount = .null then "" else s!"Amount: {py.str amount}\n"
    let amountHtml := if amount = .null then "" else
      s!"<p>Amount: <strong>{Python.htmlEscape (py.str amount)}</strong></p>"
    .call (.sendEmail {
      source := env.fromAddress
      toAddresses := recipients
      subject := s!"{env.emailSubjectPrefix} {title}"
      textBody :=
        "An approval is requested.\n\n" ++ s!"Title: {title}\n" ++ s!"Requested by: {requester}\n" ++
        s!"{amountLine}\n" ++ s!"Approve: {approveUrl}\n" ++ s!"Reject:  {rejectUrl}\n"
      htmlBody :=
        "<html><body style='font-family:system-ui,sans-serif;color:#1f2937'>" ++
        s!"<h2>{Python.htmlEscape env.emailSubjectPrefix} {Python.htmlEscape title}</h2>" ++
        s!"<p>Requested by <strong>{Python.htmlEscape requester}</strong>.</p>" ++ amountHtml ++
        "<p style='margin-top:1.5rem'>" ++
        s!"<a href='{Python.htmlEscape approveUrl}' style='background:#16a34a;color:#fff;" ++
        "padding:.6rem 1.2rem;border-radius:.4rem;text-decoration:none;margin-right:.75rem'>Approve</a>" ++
        s!"<a href='{Python.htmlEscape rejectUrl}' style='background:#dc2626;color:#fff;" ++
        "padding:.6rem 1.2rem;border-radius:.4rem;text-decoration:none'>Reject</a>" ++
        "</p></body></html>" }) .ofExcept

/-- Email approver(s) Approve/Reject links carrying the task token. -/
def sendApprovalEmail (py : Python) (env : Env) (event : Json) : Handler Json := do
  let token ← .ofExcept (Python.get event "task_token")
  let request := (← .ofExcept (Python.get event "request")).orElse (.obj [])
  let requestId ← .ofExcept (Python.get request "request_id")
  if !requestId.truthy || !token.truthy then
    .raise (approvalInputError "send_approval_email: missing request_id or task_token")
  else do
    .call (.attachToken requestId token) .ofExcept
    let approveUrl ← .ofExcept (decisionUrl env "approve" requestId token)
    let rejectUrl ← .ofExcept (decisionUrl env "reject" requestId token)
    sendEmail py env request approveUrl rejectUrl
    return .obj [("request_id", requestId), ("status", statusNotified)]

/-- Record the approval and run the gated action. -/
def onApproved (event : Json) : Handler Json := do
  let request := (← .ofExcept (Python.get event "request")).orElse (.obj [])
  let requestId ← .ofExcept (Python.get request "request_id")
  let decision := (← .ofExcept (Python.get event "decision")).orElse (.obj [])
  return .obj [("request_id", requestId), ("outcome", statusApproved),
    ("approved_by", ← .ofExcept (Python.get decision "approved_by")),
    ("decided_at", ← .ofExcept (Python.get decision "decided_at"))]

/-- What a rejection's `Cause` says: its JSON, or the text itself as a comment. -/
def rejectionDetail (py : Python) (cause : Json) : Except Exc Json :=
  match cause with
  | .str text =>
    match py.loads text with
    | .ok detail => .ok detail
    | .error e => if e.isInstance "json.JSONDecodeError" then .ok (.obj [("comment", cause)]) else .error e
  | _ => .ok (.obj [])

/-- Record the rejection. -/
def onRejected (py : Python) (event : Json) : Handler Json := do
  let request := (← .ofExcept (Python.get event "request")).orElse (.obj [])
  let requestId ← .ofExcept (Python.get request "request_id")
  let decision := (← .ofExcept (Python.get event "decision")).orElse (.obj [])
  let cause ← .ofExcept (Python.get decision "Cause")
  let detail ← .ofExcept (rejectionDetail py cause)
  let rejectedBy ← .ofExcept (Python.get detail "rejected_by")
  let comment ← .ofExcept (Python.get detail "comment")
  return .obj [("request_id", requestId), ("outcome", statusRejected),
    ("rejected_by", rejectedBy), ("comment", comment)]

/-! ## API Gateway target -/

/-- The part of an HTTP API request that `decision_handler` reads. -/
structure HttpEvent where
  rawPath : Option String
  queryStringParameters : Option (List (String × String))

namespace HttpEvent

/-- `params.get(name) or ""`. -/
def param (event : HttpEvent) (name : String) : String :=
  ((event.queryStringParameters.getD []).lookup name).getD ""

def requestId (event : HttpEvent) : String := event.param "request_id"

def token (event : HttpEvent) : String := event.param "token"

/-- `params.get("approver") or "unknown"`. -/
def approver (event : HttpEvent) : String :=
  if event.param "approver" = "" then "unknown" else event.param "approver"

def comment (event : HttpEvent) : String := event.param "comment"

/-- The action that the route, or else the `action` parameter, asks for. -/
def action (py : Python) (event : HttpEvent) : String :=
  if Python.endsWith (event.rawPath.getD "") "/approve" then "approve"
  else if Python.endsWith (event.rawPath.getD "") "/reject" then "reject"
  else py.lower (event.param "action")

end HttpEvent

/-- The status a decided record has, if the record is decided. -/
def decidedStatus (record : Json) : Option String :=
  match record.field "status" with
  | some (.str s) => if Json.str s = statusApproved || Json.str s = statusRejected then some s else none
  | _ => none

/-- The `except` clauses of `decision_handler`. -/
def handleDecisionError (e : Exc) : Option (Handler HtmlResponse) :=
  if e.isInstance "store.AlreadyDecidedError" then
    some (.ret (htmlResponse 409 "Already decided" "This request was already decided."))
  else if e.isInstance "sfn.TaskTimedOut" then
    some (.ret (htmlResponse 410 "Link expired" "This approval link has expired."))
  else if e.isInstance "sfn.TaskDoesNotExist" then
    some (.ret (htmlResponse 410 "Link expired" "This approval request is no longer awaiting a decision."))
  else none

/-- The `try` block of `decision_handler`: resume the execution, then record the
    decision. -/
def decide (py : Python) (event : HttpEvent) (action decidedAt : String) : Handler HtmlResponse :=
  let detail (key : String) := py.dumps (.obj [(key, .str event.approver),
    ("decided_at", .str decidedAt), ("comment", .str event.comment)])
  if action = "approve" then do
    .call (.sendTask event.token (.success (detail "approved_by"))) .ofExcept
    .call (.recordDecision (.str event.requestId) statusApproved event.approver event.comment) .ofExcept
    return htmlResponse 200 "Approved" "Thank you — the request has been approved."
  else do
    .call (.sendTask event.token (.failure "ApprovalRejected"
      (String.ofList ((detail "rejected_by").toList.take 32000)))) .ofExcept
    .call (.recordDecision (.str event.requestId) statusRejected event.approver event.comment) .ofExcept
    return htmlResponse 200 "Rejected" "The request has been rejected."

/-- Resume the paused execution from an Approve/Reject link click. -/
def decisionHandler (py : Python) (event : HttpEvent) : Handler HtmlResponse := do
  let action := event.action py
  if (action ≠ "approve" ∧ action ≠ "reject") ∨ event.requestId = "" ∨ event.token = "" then
    return htmlResponse 400 "Invalid link" "This approval link is malformed."
  else
    match ← .ofExcept (← .perform (.get (.str event.requestId))) with
    | none => return htmlResponse 404 "Not found" "No matching approval request was found."
    | some record =>
      match decidedStatus record with
      | some status =>
        return htmlResponse 409 "Already decided"
          s!"This request was already {py.lower status}."
      | none => do
        let decidedAt ← .perform .nowIso
        (decide py event action decidedAt).tryCatch handleDecisionError

end ApprovalWorkflow
