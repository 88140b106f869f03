-- SUMMARY: What a click on an approve or reject link does, operation by operation.
import ServerlessPatterns.ApprovalWorkflow.World

/-!
# Clicks

A click reads the record, takes the time, calls Step Functions and then records
the decision. `ClickEvents` lists how far it can have come. Everything the later
modules say about `decision_handler` follows from this list, and from the one
place where a click answers with 200.
-/

namespace ApprovalWorkflow

open Program

namespace HttpEvent

/-- The link names an action, a request and a token. -/
def Valid (py : Python) (event : HttpEvent) : Prop :=
  (event.action py = "approve" ∨ event.action py = "reject") ∧
    event.requestId ≠ "" ∧ event.token ≠ ""

instance {py : Python} {event : HttpEvent} : Decidable (event.Valid py) :=
  inferInstanceAs (Decidable ((_ ∨ _) ∧ _ ∧ _))

/-- The status the click records. -/
def verdict (py : Python) (event : HttpEvent) : Json :=
  if event.action py = "approve" then statusApproved else statusRejected

/-- The document the click reports to Step Functions. -/
def detail (py : Python) (event : HttpEvent) (key decidedAt : String) : String :=
  py.dumps (.obj [(key, .str event.approver), ("decided_at", .str decidedAt),
    ("comment", .str event.comment)])

/-- What the click reports to Step Functions. -/
def report (py : Python) (event : HttpEvent) (decidedAt : String) : TaskResult :=
  if event.action py = "approve" then .success (event.detail py "approved_by" decidedAt)
  else .failure "ApprovalRejected"
    (String.ofList ((event.detail py "rejected_by" decidedAt).toList.take 32000))

/-- The page that a recorded decision is answered with. -/
def recordedResponse (py : Python) (event : HttpEvent) : HtmlResponse :=
  if event.action py = "approve" then
    htmlResponse 200 "Approved" "Thank you — the request has been approved."
  else htmlResponse 200 "Rejected" "The request has been rejected."

/-- The last operation of the click. -/
def recordOp (py : Python) (event : HttpEvent) : Op :=
  .recordDecision (.str event.requestId) (event.verdict py) event.approver event.comment

@[simp] theorem sendTask_ne_recordOp {py : Python} {event : HttpEvent} {token : String}
    {result : TaskResult} : Op.sendTask token result ≠ event.recordOp py := nofun

@[simp] theorem recordOp_ne_sendTask {py : Python} {event : HttpEvent} {token : String}
    {result : TaskResult} : event.recordOp py ≠ Op.sendTask token result := nofun

@[simp] theorem create_ne_recordOp {py : Python} {event : HttpEvent} {r : Json} {t : String}
    {a : Option PyFloat} {q : String} {c : Json} {ttl : Int} :
    Op.create r t a q c ttl ≠ event.recordOp py := nofun

@[simp] theorem attachToken_ne_recordOp {py : Python} {event : HttpEvent} {r v : Json} :
    Op.attachToken r v ≠ event.recordOp py := nofun

end HttpEvent

variable {py : Python} {event : HttpEvent}

theorem HttpEvent.verdict_eq_approved {event : HttpEvent} :
    event.verdict py = statusApproved ↔ event.action py = "approve" := by
  unfold HttpEvent.verdict
  split <;> simp_all [statusApproved, statusRejected]

theorem HttpEvent.verdict_of_success {event : HttpEvent} {decidedAt output : String}
    (h : event.report py decidedAt = .success output) : event.verdict py = statusApproved := by
  unfold HttpEvent.report at h
  split at h
  · exact if_pos ‹_›
  · cases h

theorem HttpEvent.verdict_of_failure {event : HttpEvent} {decidedAt error cause : String}
    (h : event.report py decidedAt = .failure error cause) :
    event.verdict py = statusRejected := by
  unfold HttpEvent.report at h
  split at h
  · cases h
  · exact if_neg ‹_›

theorem decide_eq {decidedAt : String} :
    decide py event (event.action py) decidedAt =
      .call (.sendTask event.token (event.report py decidedAt)) fun sent =>
        .ofExcept sent >>= fun _ =>
          .call (.recordDecision (.str event.requestId) (event.verdict py) event.approver
            event.comment) fun recorded =>
            .ofExcept recorded >>= fun _ => .ret (event.recordedResponse py) := by
  by_cases h : event.action py = "approve"
  · have hverdict : event.verdict py = statusApproved := if_pos h
    have hreport : event.report py decidedAt = .success (event.detail py "approved_by" decidedAt) :=
      if_pos h
    have hresponse : event.recordedResponse py =
        htmlResponse 200 "Approved" "Thank you — the request has been approved." := if_pos h
    rw [decide, if_pos h, hverdict, hreport, hresponse]
    rfl
  · have hverdict : event.verdict py = statusRejected := if_neg h
    have hreport : event.report py decidedAt = .failure "ApprovalRejected"
        (String.ofList ((event.detail py "rejected_by" decidedAt).toList.take 32000)) := if_neg h
    have hresponse : event.recordedResponse py =
        htmlResponse 200 "Rejected" "The request has been rejected." := if_neg h
    rw [decide, if_neg h, hverdict, hreport, hresponse]
    rfl

/-- The record was found and is not decided. -/
def ReadUndecided (answer : Except Exc (Option Json)) : Prop :=
  ∃ record, answer = .ok (some record) ∧ decidedStatus record = none

/-- How far a click can have come. -/
inductive ClickEvents (py : Python) (event : HttpEvent) : List (Event Op Ans) → Prop where
  | start : ClickEvents py event []
  | read {a} (hvalid : event.Valid py) : ClickEvents py event [⟨.get (.str event.requestId), a⟩]
  | clocked {a t} (hvalid : event.Valid py) (hread : ReadUndecided a) :
      ClickEvents py event [⟨.get (.str event.requestId), a⟩, ⟨.nowIso, t⟩]
  | sent {a t s} (hvalid : event.Valid py) (hread : ReadUndecided a) :
      ClickEvents py event [⟨.get (.str event.requestId), a⟩, ⟨.nowIso, t⟩,
        ⟨.sendTask event.token (event.report py t), s⟩]
  | recorded {a t r} (hvalid : event.Valid py) (hread : ReadUndecided a) :
      ClickEvents py event [⟨.get (.str event.requestId), a⟩, ⟨.nowIso, t⟩,
        ⟨.sendTask event.token (event.report py t), .ok ()⟩, ⟨event.recordOp py, r⟩]

theorem decisionHandler_invalid (h : ¬ event.Valid py) :
    decisionHandler py event =
      .ret (htmlResponse 400 "Invalid link" "This approval link is malformed.") := by
  have hcheck : (event.action py ≠ "approve" ∧ event.action py ≠ "reject") ∨
      event.requestId = "" ∨ event.token = "" := by
    simp only [HttpEvent.Valid] at h
    tauto
  simp only [decisionHandler, if_pos hcheck]
  rfl

theorem decisionHandler_valid (h : event.Valid py) :
    decisionHandler py event = .call (.get (.str event.requestId)) fun answer =>
      .ofExcept answer >>= fun
        | none => .ret (htmlResponse 404 "Not found" "No matching approval request was found.")
        | some record =>
          match decidedStatus record with
          | some status => .ret (htmlResponse 409 "Already decided"
              s!"This request was already {py.lower status}.")
          | none => .call .nowIso fun decidedAt =>
              (decide py event (event.action py) decidedAt).tryCatch handleDecisionError := by
  have hcheck : ¬ ((event.action py ≠ "approve" ∧ event.action py ≠ "reject") ∨
      event.requestId = "" ∨ event.token = "") := by
    simp only [HttpEvent.Valid] at h
    tauto
  simp only [decisionHandler, if_neg hcheck]
  rfl

/-- The operation a click asks for next, by how far it has come. -/
inductive NextOp (py : Python) (event : HttpEvent) : List (Event Op Ans) → Op → Prop where
  | get (hvalid : event.Valid py) : NextOp py event [] (.get (.str event.requestId))
  | nowIso {a} (hvalid : event.Valid py) (hread : ReadUndecided a) :
      NextOp py event [⟨.get (.str event.requestId), a⟩] .nowIso
  | sendTask {a t} (hvalid : event.Valid py) (hread : ReadUndecided a) :
      NextOp py event [⟨.get (.str event.requestId), a⟩, ⟨.nowIso, t⟩]
        (.sendTask event.token (event.report py t))
  | recordDecision {a t} (hvalid : event.Valid py) (hread : ReadUndecided a) :
      NextOp py event [⟨.get (.str event.requestId), a⟩, ⟨.nowIso, t⟩,
        ⟨.sendTask event.token (event.report py t), .ok ()⟩] (event.recordOp py)

/-- How a click stands after a trace: still asking, or done. A click that is
    done answers 200 only after it recorded its decision. -/
def ClickAt (py : Python) (event : HttpEvent) (events : List (Event Op Ans)) :
    Handler HtmlResponse → Prop
  | .call op _ => NextOp py event events op
  | .ret response => ClickEvents py event events ∧
      (response.statusCode = 200 → ⟨event.recordOp py, .ok ()⟩ ∈ events)
  | .raise _ => ClickEvents py event events

/-- An exception that is answered with a page is not answered with 200. -/
theorem handleDecisionError_trace {e : Exc} {events : List (Event Op Ans)}
    {q : Handler HtmlResponse} (h : Trace ((handleDecisionError e).getD (.raise e)) events q) :
    events = [] ∧ (q = .raise e ∨ ∃ response, q = .ret response ∧ response.statusCode ≠ 200) := by
  unfold handleDecisionError at h
  split at h
  · simp only [Option.getD_some, trace_ret] at h
    exact ⟨h.1, .inr ⟨_, h.2, by simp⟩⟩
  · split at h
    · simp only [Option.getD_some, trace_ret] at h
      exact ⟨h.1, .inr ⟨_, h.2, by simp⟩⟩
    · split at h
      · simp only [Option.getD_some, trace_ret] at h
        exact ⟨h.1, .inr ⟨_, h.2, by simp⟩⟩
      · simp only [Option.getD_none, trace_raise] at h
        exact ⟨h.1, .inl h.2⟩

theorem clickAt_of_handled {e : Exc} {done events : List (Event Op Ans)} {q : Handler HtmlResponse}
    (hdone : ClickEvents py event done)
    (h : Trace ((handleDecisionError e).getD (.raise e)) events q) :
    ClickAt py event (done ++ events) q := by
  obtain ⟨rfl, rfl | ⟨response, rfl, hcode⟩⟩ := handleDecisionError_trace h
  · simpa [ClickAt] using hdone
  · exact ⟨by simpa using hdone, fun h => absurd h hcode⟩

theorem clickAt_of_trace {events : List (Event Op Ans)} {q : Handler HtmlResponse}
    (h : Trace (decisionHandler py event) events q) : ClickAt py event events q := by
  by_cases hvalid : event.Valid py
  · rw [decisionHandler_valid hvalid, trace_call] at h
    rcases h with ⟨rfl, rfl⟩ | ⟨answer, events, rfl, h⟩
    · exact .get hvalid
    cases answer with
    | error e =>
        obtain ⟨rfl, rfl⟩ := trace_raise.mp h
        exact ClickEvents.read hvalid
    | ok record =>
        cases record with
        | none =>
            obtain ⟨rfl, rfl⟩ := trace_ret.mp h
            exact ⟨.read hvalid, by simp⟩
        | some record =>
            simp only [ofExcept_ok, ret_bind] at h
            split at h
            · obtain ⟨rfl, rfl⟩ := trace_ret.mp h
              exact ⟨.read hvalid, by simp⟩
            · rename_i hstatus
              have hread : ReadUndecided (.ok (some record)) := ⟨record, rfl, hstatus⟩
              rw [trace_call] at h
              rcases h with ⟨rfl, rfl⟩ | ⟨decidedAt, events, rfl, h⟩
              · exact .nowIso hvalid hread
              rw [decide_eq, tryCatch_call, trace_call] at h
              rcases h with ⟨rfl, rfl⟩ | ⟨sent, events, rfl, h⟩
              · exact .sendTask hvalid hread
              cases sent with
              | error e =>
                  exact clickAt_of_handled (.sent (t := decidedAt) (s := .error e) hvalid hread) h
              | ok _ =>
                  simp only [ofExcept_ok, ret_bind, tryCatch_call, trace_call] at h
                  rcases h with ⟨rfl, rfl⟩ | ⟨recorded, events, rfl, h⟩
                  · exact .recordDecision hvalid hread
                  have hdone (r) := ClickEvents.recorded (t := decidedAt) (r := r) hvalid hread
                  cases recorded with
                  | error e => exact clickAt_of_handled (hdone (.error e)) h
                  | ok _ =>
                      obtain ⟨rfl, rfl⟩ := trace_ret.mp h
                      exact ⟨hdone (.ok ()), fun _ => by simp [HttpEvent.recordOp]⟩
  · rw [decisionHandler_invalid hvalid, trace_ret] at h
    obtain ⟨rfl, rfl⟩ := h
    exact ⟨.start, by simp⟩

/-! ## The events of a click -/

theorem clickEvents_of_clickAt {events : List (Event Op Ans)}
    {q : Handler HtmlResponse} (h : ClickAt py event events q) : ClickEvents py event events := by
  cases q with
  | ret response => exact h.1
  | raise e => exact h
  | call op k =>
      cases (h : NextOp py event events op) with
      | get => exact .start
      | nowIso hvalid => exact .read hvalid
      | sendTask hvalid hread => exact .clocked hvalid hread
      | recordDecision hvalid hread => exact .sent hvalid hread

/-- A result that a click reported is what its link asks for. -/
theorem ClickEvents.report_eq {events : List (Event Op Ans)} (h : ClickEvents py event events)
    {token : String} {result : TaskResult} {answer : Except Exc Unit}
    (hmem : ⟨.sendTask token result, answer⟩ ∈ events) :
    token = event.token ∧ ∃ decidedAt, result = event.report py decidedAt := by
  cases h with
  | start | read | clocked => simp at hmem
  | @sent a t s =>
      simp only [List.mem_cons, Sigma.mk.injEq, reduceCtorEq, false_and, false_or,
        Op.sendTask.injEq, List.not_mem_nil, or_false] at hmem
      exact ⟨hmem.1.1, t, hmem.1.2⟩
  | @recorded a t r =>
      simp only [List.mem_cons, Sigma.mk.injEq, reduceCtorEq, false_and, false_or,
        Op.sendTask.injEq, List.not_mem_nil, or_false, HttpEvent.sendTask_ne_recordOp] at hmem
      exact ⟨hmem.1.1, t, hmem.1.2⟩

/-- A click that tried to record its decision had its callback accepted. -/
theorem ClickEvents.accepted_of_recordOp {events : List (Event Op Ans)}
    (h : ClickEvents py event events) {answer : Except Exc Unit}
    (hmem : ⟨event.recordOp py, answer⟩ ∈ events) :
    ∃ decidedAt, ⟨.sendTask event.token (event.report py decidedAt), .ok ()⟩ ∈ events := by
  cases h with
  | start | read | clocked | sent => simp [HttpEvent.recordOp] at hmem
  | @recorded a t r => exact ⟨t, by simp⟩

/-- A click calls `record_decision` once at most, last, and for its own link. -/
theorem ClickEvents.recordDecision_eq {events : List (Event Op Ans)} (h : ClickEvents py event events)
    {n : Nat} {requestId decision : Json} {approver comment : String} {answer : Except Exc Unit}
    (hget : events[n]? =
      some (⟨.recordDecision requestId decision approver comment, answer⟩ : Event Op Ans)) :
    n = 3 ∧ requestId = .str event.requestId ∧ decision = event.verdict py ∧
      approver = event.approver ∧ comment = event.comment := by
  cases h with
  | start => simp at hget
  | read => rcases n with _ | n <;> simp at hget
  | clocked => rcases n with _ | _ | n <;> simp at hget
  | sent => rcases n with _ | _ | _ | n <;> simp at hget
  | @recorded a t r =>
      rcases n with _ | _ | _ | _ | n
      · simp at hget
      · simp at hget
      · simp at hget
      · have hop := congrArg Sigma.fst (Option.some.inj hget)
        simp only [HttpEvent.recordOp, Op.recordDecision.injEq] at hop
        exact ⟨rfl, hop.1.symm, hop.2.1.symm, hop.2.2.1.symm, hop.2.2.2.symm⟩
      · simp at hget

end ApprovalWorkflow
