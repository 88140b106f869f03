-- SUMMARY: What the approval email and the answers to its links show, and that no request can change their tags.
import ServerlessPatterns.ApprovalWorkflow.Click
import ServerlessPatterns.ApprovalWorkflow.Links
import ServerlessPatterns.Library.Markup

/-!
# Pages

`_send_email` and `_html_response` fill a request's words into pages. Whatever these words
are, a reader finds them as text, and finds the tags and links that the source wrote.
-/

namespace ApprovalWorkflow

open Program Markup Python

variable {py : Python} {env : Env}

/-- What a reader finds in the page. -/
def found (page : String) : Reading := (read .text page.toList).unescaped

/-! ## The page of an answer -/

/-- What is found in a page with this title and message. -/
def pageFound (title message : String) : Reading := .ofStrings
  (title ++ title ++ message ++ "You can close this window.")
  ("utf-8'" ++ "viewport'width=device-width, initial-scale=1'" ++
    "font-family:system-ui,sans-serif;max-width:32rem;margin:4rem auto;" ++
    "text-align:center;color:#1f2937'" ++ "color:#6b7280'")
  ("<!doctype html><html><head><meta charset='>" ++ "<meta name=' content='>" ++ "<title>" ++
    "</title></head>" ++ "<body style='" ++ ">" ++ "<h1>" ++ "</h1><p>" ++ "</p>" ++
    "<p style='></p></body></html>")

set_option maxRecDepth 4000 in
theorem found_htmlResponse {code : Nat} {title message : String} :
    found (htmlResponse code title message).body = pageFound title message := by
  simp only [found, htmlResponse, String.toList_append, List.append_assoc]
  rw [found_markup .text "" "utf-8'" "<!doctype html><html><head><meta charset='>" rfl rfl rfl
      (by decide),
    found_markup .text "" "viewport'width=device-width, initial-scale=1'" "<meta name=' content='>" rfl
      rfl rfl (by decide),
    found_markup .text "" "" "<title>" rfl rfl rfl (by decide), found_text,
    found_markup .text "" "" "</title></head>" rfl rfl rfl (by decide),
    found_markup (.value '\'') "" "font-family:system-ui,sans-serif;max-width:32rem;margin:4rem auto;"
      "<body style='" rfl rfl rfl (by decide),
    found_markup .text "" "text-align:center;color:#1f2937'" ">" rfl rfl rfl (by decide),
    found_markup .text "" "" "<h1>" rfl rfl rfl (by decide), found_text,
    found_markup .text "" "" "</h1><p>" rfl rfl rfl (by decide), found_text,
    found_markup .text "" "" "</p>" rfl rfl rfl (by decide),
    found_last .text "You can close this window." "color:#6b7280'" "<p style='></p></body></html>" rfl
      rfl rfl (by decide)]
  simp only [pageFound, Reading.ofStrings_append, String.append_assoc, String.empty_append]

def alreadyDecidedTexts (py : Python) (status : String) : String × String :=
  ("Already decided", s!"This request was already {py.lower status}.")

/-- The titles and messages of the answers. -/
def answerTexts (py : Python) : List (String × String) :=
  [("Invalid link", "This approval link is malformed."),
    ("Not found", "No matching approval request was found."),
    alreadyDecidedTexts py "APPROVED", alreadyDecidedTexts py "REJECTED",
    ("Approved", "Thank you — the request has been approved."),
    ("Rejected", "The request has been rejected."),
    ("Already decided", "This request was already decided."),
    ("Link expired", "This approval link has expired."),
    ("Link expired", "This approval request is no longer awaiting a decision.")]

/-- Nothing of a click gets into its answer. -/
def FixedPage (py : Python) (response : HtmlResponse) : Prop :=
  ∃ texts ∈ answerTexts py, found response.body = pageFound texts.1 texts.2

theorem fixedPage_htmlResponse {code : Nat} {title message : String}
    (h : (title, message) ∈ answerTexts py) : FixedPage py (htmlResponse code title message) :=
  ⟨_, h, found_htmlResponse⟩

theorem decidedStatus_mem {record : Json} {status : String} (h : decidedStatus record = some status) :
    status = "APPROVED" ∨ status = "REJECTED" := by
  unfold decidedStatus at h
  split at h
  · split at h
    · rename_i hdecided
      obtain rfl := Option.some.inj h
      simp only [Bool.or_eq_true, decide_eq_true_eq] at hdecided
      exact hdecided.imp Json.str.inj Json.str.inj
    · cases h
  · cases h

theorem handleDecisionError_fixed {e : Exc} :
    ((handleDecisionError e).getD (.raise e)).Meets (fun _ => True) (fun _ _ => True) (fun _ => True)
      (FixedPage py) := by
  unfold handleDecisionError
  split
  · exact meets_ret (fixedPage_htmlResponse (by simp [answerTexts]))
  split
  · exact meets_ret (fixedPage_htmlResponse (by simp [answerTexts]))
  split
  · exact meets_ret (fixedPage_htmlResponse (by simp [answerTexts]))
  · exact meets_raise trivial

theorem recordedResponse_fixed {event : HttpEvent} : FixedPage py (event.recordedResponse py) := by
  unfold HttpEvent.recordedResponse
  split
  · exact fixedPage_htmlResponse (by simp [answerTexts])
  · exact fixedPage_htmlResponse (by simp [answerTexts])

theorem decide_fixed {event : HttpEvent} {decidedAt : String} :
    (decide py event (event.action py) decidedAt).Meets (fun _ => True) (fun _ _ => True)
      (fun _ => True) (FixedPage py) := by
  rw [decide_eq]
  exact meets_call trivial fun _ _ => meets_any.bind fun _ _ =>
    meets_call trivial fun _ _ => meets_any.bind fun _ _ => meets_ret recordedResponse_fixed

/-- Whatever a click brings along, it is answered with one of the fixed pages. -/
theorem decisionHandler_fixed {event : HttpEvent} :
    (decisionHandler py event).Meets (fun _ => True) (fun _ _ => True) (fun _ => True)
      (FixedPage py) := by
  by_cases hvalid : event.Valid py
  · rw [decisionHandler_valid hvalid]
    refine meets_call trivial fun answer _ => meets_any.bind fun found _ => ?_
    cases found with
    | none => exact meets_ret (fixedPage_htmlResponse (by simp [answerTexts]))
    | some record =>
        dsimp only
        split
        · rename_i status hstatus
          rcases decidedStatus_mem hstatus with rfl | rfl
          · exact meets_ret (fixedPage_htmlResponse (by simp [answerTexts, alreadyDecidedTexts]))
          · exact meets_ret (fixedPage_htmlResponse (by simp [answerTexts, alreadyDecidedTexts]))
        · exact meets_call trivial fun _ _ => decide_fixed.tryCatch fun _ _ => handleDecisionError_fixed
  · rw [decisionHandler_invalid hvalid]
    exact meets_ret (fixedPage_htmlResponse (by simp [answerTexts]))

/-! ## The email -/

/-- What the page says of the amount, and the tags around it. -/
def amountText (py : Python) (amount : Json) : String :=
  if amount = .null then "" else s!"Amount: {py.str amount}"

def amountTags (amount : Json) : String :=
  if amount = .null then "" else "<p><strong>" ++ "</strong></p>"

/-- The page shows the request's words, its attributes have the two URLs, and its tags have
    nothing from the request. -/
def emailFound (py : Python) (env : Env) (title requester amount : Json)
    (approveUrl rejectUrl : String) : Reading := .ofStrings
  (s!"{env.emailSubjectPrefix} {py.str title}Requested by {py.str requester}." ++
    amountText py amount ++ "Approve" ++ "Reject")
  ("font-family:system-ui,sans-serif;color:#1f2937'" ++ "margin-top:1.5rem'" ++
    s!"{approveUrl}'background:#16a34a;color:#fff;" ++
    "padding:.6rem 1.2rem;border-radius:.4rem;text-decoration:none;margin-right:.75rem'" ++
    s!"{rejectUrl}'background:#dc2626;color:#fff;" ++
    "padding:.6rem 1.2rem;border-radius:.4rem;text-decoration:none'")
  ("<html><body style='>" ++ "<h2>" ++ "</h2>" ++ "<p><strong>" ++ "</strong></p>" ++
    amountTags amount ++ "<p style='>" ++ "<a href='" ++ " style='" ++ "></a>" ++ "<a href='" ++
    " style='" ++ "></a>" ++ "</p></body></html>")

/-- The email is about the request, and shows it as it is. -/
def Presents (py : Python) (env : Env) (request : Json) (approveUrl rejectUrl : String)
    (email : Email) : Prop :=
  ∃ title requester amount,
    getD request "title" (.str "approval request") = .ok title ∧
    getD request "requester" (.str "unknown") = .ok requester ∧
    Python.get request "amount" = .ok amount ∧
    email.subject = s!"{env.emailSubjectPrefix} {py.str title}" ∧
    found email.htmlBody = emailFound py env title requester amount approveUrl rejectUrl

/-- The email is about the event's request, and its links carry that request and the token. -/
def ShowsRequest (py : Python) (env : Env) (event : Json) (email : Email) : Prop :=
  ∃ token request requestId approveUrl rejectUrl, Python.get event "task_token" = .ok token ∧
    Python.get event "request" = .ok request ∧
    Python.get (request.orElse (.obj [])) "request_id" = .ok requestId ∧
    decisionUrl env "approve" requestId token = .ok approveUrl ∧
    decisionUrl env "reject" requestId token = .ok rejectUrl ∧
    Presents py env (request.orElse (.obj [])) approveUrl rejectUrl email

theorem found_amount {amount : Json} {rest : List Char} :
    (read .text ((if amount = .null then "" else
      "<p>Amount: <strong>" ++ htmlEscape (py.str amount) ++ "</strong></p>").toList ++ rest)).unescaped =
    .ofStrings (amountText py amount) "" (amountTags amount) ++ (read .text rest).unescaped := by
  unfold amountText amountTags
  by_cases hnone : amount = .null
  · simp only [if_pos hnone]
    rfl
  · simp only [if_neg hnone, toString, String.toList_append, List.append_assoc]
    rw [found_markup .text "Amount: " "" "<p><strong>" rfl rfl rfl (by decide), found_text,
      found_markup .text "" "" "</strong></p>" rfl rfl rfl (by decide)]
    rw [← Reading.append_assoc, ← Reading.append_assoc, Reading.ofStrings_append,
      Reading.ofStrings_append]
    simp only [String.append_empty]

set_option maxRecDepth 4000 in
theorem sendEmail_presents {request : Json} {approveUrl rejectUrl : String} :
    (sendEmail py env request approveUrl rejectUrl).Only
      fun op => ∀ email, op = .sendEmail email → Presents py env request approveUrl rejectUrl email := by
  unfold sendEmail
  simp only
  split
  · exact meets_raise trivial
  refine (meets_ofExcept (fun _ h => h) fun _ _ => trivial).bind fun title htitle => ?_
  refine (meets_ofExcept (fun _ h => h) fun _ _ => trivial).bind fun requester hrequester => ?_
  refine (meets_ofExcept (fun _ h => h) fun _ _ => trivial).bind fun amount hamount => ?_
  refine meets_call ?_ fun _ _ => meets_any
  intro email heq
  injection heq with heq
  subst heq
  refine ⟨title, requester, amount, htitle, hrequester, hamount, rfl, ?_⟩
  simp only [found, toString, String.toList_append, List.append_assoc]
  rw [found_markup .text "" "font-family:system-ui,sans-serif;color:#1f2937'" "<html><body style='>" rfl
      rfl rfl (by decide),
    found_markup .text "" "" "<h2>" rfl rfl rfl (by decide), found_text,
    found_markup .text " " "" "" rfl rfl rfl (by decide), found_text,
    found_markup .text "" "" "</h2>" rfl rfl rfl (by decide),
    found_markup .text "Requested by " "" "<p><strong>" rfl rfl rfl (by decide),
    found_text,
    found_markup .text "." "" "</strong></p>" rfl rfl rfl (by decide), found_amount,
    found_markup .text "" "margin-top:1.5rem'" "<p style='>" rfl rfl rfl (by decide),
    found_markup (.value '\'') "" "" "<a href='" rfl rfl rfl (by decide), found_value (by decide),
    found_markup (.value '\'') "" "'background:#16a34a;color:#fff;" " style='" rfl rfl rfl (by decide),
    found_markup .text "Approve"
      "padding:.6rem 1.2rem;border-radius:.4rem;text-decoration:none;margin-right:.75rem'" "></a>" rfl
      rfl rfl (by decide),
    found_markup (.value '\'') "" "" "<a href='" rfl rfl rfl (by decide), found_value (by decide),
    found_markup (.value '\'') "" "'background:#dc2626;color:#fff;" " style='" rfl rfl rfl (by decide),
    found_markup .text "Reject" "padding:.6rem 1.2rem;border-radius:.4rem;text-decoration:none'" "></a>"
      rfl rfl rfl (by decide),
    found_last .text "" "" "</p></body></html>" rfl rfl rfl (by decide)]
  simp only [emailFound, toString, Reading.ofStrings_append, String.append_assoc, String.empty_append,
    String.append_empty]

theorem sendApprovalEmail_shows {event : Json} :
    (sendApprovalEmail py env event).Only
      fun op => ∀ email, op = .sendEmail email → ShowsRequest py env event email := by
  unfold sendApprovalEmail
  refine (meets_ofExcept (fun _ h => h) fun _ _ => trivial).bind fun token htoken => ?_
  refine (meets_ofExcept (fun _ h => h) fun _ _ => trivial).bind fun request hrequest => ?_
  refine (meets_ofExcept (fun _ h => h) fun _ _ => trivial).bind fun requestId hid => ?_
  split
  · exact meets_raise trivial
  refine meets_call nofun fun _ _ => meets_any.bind fun _ _ => ?_
  refine (meets_ofExcept (fun _ h => h) fun _ _ => trivial).bind fun approveUrl happrove => ?_
  refine (meets_ofExcept (fun _ h => h) fun _ _ => trivial).bind fun rejectUrl hreject => ?_
  refine (sendEmail_presents.mono ?_ fun _ _ => trivial).bind fun _ _ => meets_ret trivial
  rintro op hpresents email rfl
  exact ⟨token, request, requestId, approveUrl, rejectUrl, htoken, hrequest, hid, happrove, hreject,
    hpresents email rfl⟩

/-- What the pages show, whatever the events are made of. -/
structure PagesInert (py : Python) (env : Env) : Prop where
  /-- The tags of an email are fixed, but for the row of the amount: it is there if and only
      if the request has an amount. -/
  emails : ∀ event calls outcome email answer, Calls (sendApprovalEmail py env event) calls outcome →
    ⟨.sendEmail email, answer⟩ ∈ calls → ShowsRequest py env event email
  answers : ∀ event calls response, Calls (decisionHandler py event) calls (.returned response) →
    FixedPage py response

/-- Nothing in a request or a click adds a tag, an attribute or a link to a page. -/
theorem pages_inert (py : Python) (env : Env) : PagesInert py env where
  emails _ _ _ email _ hcalls hsent := sendApprovalEmail_shows.asks hcalls _ hsent email rfl
  answers _ _ response hcalls :=
    (decisionHandler_fixed.calls hcalls fun _ _ => trivial).2.1 response rfl

/-- A request whose title is markup. -/
def markedUp : Json := .obj [("request_id", .str "req-1"),
  ("title", .str "</h2><a href='https://example.org'>Approve</a>"), ("requester", .str "a & b"),
  ("amount", .num (.int 250))]

theorem pages_inert_markedUp : ∃ calls outcome email answer,
    Calls (sendApprovalEmail .sample sampleEnv (gateEvent "token-1" markedUp .null)) calls outcome ∧
    ⟨.sendEmail email, answer⟩ ∈ calls ∧
    ShowsRequest .sample sampleEnv (gateEvent "token-1" markedUp .null) email := by
  have hcalls : ∃ email, Calls (sendApprovalEmail .sample sampleEnv (gateEvent "token-1" markedUp .null))
      [⟨.attachToken (.str "req-1") (.str "token-1"), .ok ()⟩, ⟨.sendEmail email, .ok ()⟩]
      (.returned (.obj [("request_id", .str "req-1"), ("status", statusNotified)])) :=
    ⟨_, calls_call_cons.mpr (calls_call_cons.mpr (calls_ret.mpr ⟨rfl, .inl rfl⟩))⟩
  obtain ⟨email, hcalls⟩ := hcalls
  have hsent : (⟨.sendEmail email, .ok ()⟩ : Event Op Ans) ∈
      [⟨.attachToken (.str "req-1") (.str "token-1"), .ok ()⟩, ⟨.sendEmail email, .ok ()⟩] := by
    simp
  exact ⟨_, _, email, .ok (), hcalls, hsent, (pages_inert _ _).emails _ _ _ _ _ hcalls hsent⟩

end ApprovalWorkflow
