-- SUMMARY: Which causes of a rejection the rejection handler decodes, those a click sends and all others.
import ServerlessPatterns.ApprovalWorkflow.Click
import ServerlessPatterns.ApprovalWorkflow.StateMachine

/-!
# Causes of a rejection

A click on the reject link sends its details to Step Functions as the `Cause` of a
failure, cut to 32000 characters, and the `Catch` of the gate hands the cause to
`on_rejected`. Anyone with a task token may send another one.
-/

namespace ApprovalWorkflow

open Asl Program

variable {py : Python} {cause : String} {rejectedBy comment : Json}

/-! ## From the cause to the report -/

/-- The state data at the gate hold the request, as an object. -/
def HoldsRequest (data : Json) : Prop := ∃ request, data.get ["request"] = some (.obj request)

def rejectionReport (requestId rejectedBy comment : Json) : Json :=
  .obj [("request_id", requestId), ("outcome", statusRejected), ("rejected_by", rejectedBy),
    ("comment", comment)]

/-- When the gate fails with the cause, `HandleRejection` runs `on_rejected` on an event
    for which it returns who rejected and why. -/
def Reports (py : Python) (cause : String) (rejectedBy comment : Json) : Prop :=
  ∀ context data left, HoldsRequest data → ∃ data' left' event requestId,
    machine.fault .requestApproval requestApprovalTask data left ⟨"ApprovalRejected", cause⟩ =
      .running .handleRejection data' left' ∧
    handleRejectionTask.event context data' = some event ∧
    onRejected py event = .ret (rejectionReport requestId rejectedBy comment)

/-- What `on_rejected` does with a cause. -/
def rejection (py : Python) (requestId : Json) (cause : String) : Handler Json :=
  .ofExcept (rejectionDetail py (.str cause)) >>= fun detail =>
    .ofExcept (Python.get detail "rejected_by") >>= fun rejectedBy =>
      .ofExcept (Python.get detail "comment") >>= fun comment =>
        .ret (rejectionReport requestId rejectedBy comment)

theorem onRejected_eq {fields request : List (String × Json)} {error : String}
    (hrequest : fields.lookup "request" = some (.obj request))
    (hdecision : fields.lookup "decision" = some (TaskError.output ⟨error, cause⟩)) :
    onRejected py (.obj fields) =
      rejection py ((request.lookup "request_id").getD .null) cause := by
  simp only [onRejected, Python.get_obj, hrequest, hdecision, Option.getD_some, ofExcept_ok, ret_bind,
    Json.orElse_obj, TaskError.output]
  rfl

/-- The catcher of the gate puts the error beside the request. -/
theorem gate_fault {data : Json} (left : List Nat) (hdata : HoldsRequest data) :
    ∃ fields request, fields.lookup "request" = some (.obj request) ∧
      fields.lookup "decision" = some (TaskError.output ⟨"ApprovalRejected", cause⟩) ∧
      machine.fault .requestApproval requestApprovalTask data left ⟨"ApprovalRejected", cause⟩ =
        .running .handleRejection (.obj fields) handleRejectionTask.freshRetries := by
  obtain ⟨request, hrequest⟩ := hdata
  rw [Json.get_single] at hrequest
  cases data with
  | obj fields =>
      refine ⟨Fields.put "decision" (TaskError.output ⟨"ApprovalRejected", cause⟩) fields, request,
        ?_, Fields.lookup_put_self, rfl⟩
      rw [Fields.lookup_put_ne (by decide)]
      exact hrequest
  | _ => cases hrequest

theorem rejection_eq_ret {requestId report : Json} :
    rejection py requestId cause = .ret report ↔ ∃ detail rejectedBy comment,
      rejectionDetail py (.str cause) = .ok detail ∧
      Python.get detail "rejected_by" = .ok rejectedBy ∧ Python.get detail "comment" = .ok comment ∧
      report = rejectionReport requestId rejectedBy comment := by
  constructor
  · intro h
    unfold rejection at h
    cases hdetail : rejectionDetail py (.str cause) with
    | error e =>
        rw [hdetail] at h
        cases h
    | ok detail =>
        cases detail with
        | obj fields =>
            rw [hdetail] at h
            cases h
            exact ⟨_, _, _, rfl, rfl, rfl, rfl⟩
        | _ =>
            rw [hdetail] at h
            cases h
  · rintro ⟨detail, rejectedBy, comment, hdetail, hrejectedBy, hcomment, rfl⟩
    simp only [rejection, hdetail, hrejectedBy, hcomment, ofExcept_ok, ret_bind]

/-- The report depends on what the cause says, and on nothing else. -/
theorem reports_iff :
    Reports py cause rejectedBy comment ↔ ∃ detail, rejectionDetail py (.str cause) = .ok detail ∧
      Python.get detail "rejected_by" = .ok rejectedBy ∧ Python.get detail "comment" = .ok comment := by
  constructor
  · intro h
    have hdata : HoldsRequest (.obj [("request", .obj [])]) := ⟨[], rfl⟩
    obtain ⟨data', left', event, requestId, hfault, hevent, hreturned⟩ := h .null _ [] hdata
    obtain ⟨fields, request, hrequest, hdecision, hfault'⟩ := gate_fault [] hdata
    cases hfault'.symm.trans hfault
    obtain rfl : .obj fields = event := Option.some.inj hevent
    rw [onRejected_eq hrequest hdecision, rejection_eq_ret] at hreturned
    obtain ⟨detail, _, _, hdetail, hrejectedBy, hcomment, hreport⟩ := hreturned
    simp only [rejectionReport, Json.obj.injEq, List.cons.injEq, Prod.mk.injEq, true_and,
      and_true] at hreport
    exact ⟨detail, hdetail, hreport.2.1 ▸ hrejectedBy, hreport.2.2 ▸ hcomment⟩
  · rintro ⟨detail, hdetail, hrejectedBy, hcomment⟩ context data left hdata
    obtain ⟨fields, request, hrequest, hdecision, hfault⟩ := gate_fault left hdata
    refine ⟨_, _, _, (request.lookup "request_id").getD .null, hfault, rfl, ?_⟩
    rw [onRejected_eq hrequest hdecision, rejection_eq_ret]
    exact ⟨detail, rejectedBy, comment, hdetail, hrejectedBy, hcomment, rfl⟩

/-! ## Causes of a click -/

/-- A click on the reject link at some time. -/
structure RejectClick (py : Python) where
  event : HttpEvent
  valid : event.Valid py
  rejects : event.action py = "reject"
  decidedAt : String

namespace RejectClick

/-- What the click reports. -/
def document (click : RejectClick py) : Json :=
  .obj [("rejected_by", .str click.event.approver), ("decided_at", .str click.decidedAt),
    ("comment", .str click.event.comment)]

/-- The cause that is sent, which may be cut. -/
def sentCause (click : RejectClick py) : String :=
  String.ofList ((py.dumps click.document).toList.take 32000)

theorem report_eq (click : RejectClick py) :
    click.event.report py click.decidedAt = .failure "ApprovalRejected" click.sentCause := by
  unfold HttpEvent.report
  rw [if_neg (by rw [click.rejects]; decide)]
  rfl

end RejectClick

/-- What a click reports belongs to the time it read. -/
theorem ClickEvents.sent_at {event : HttpEvent} {events : List (Event Op Ans)}
    (h : ClickEvents py event events) {t token : String} {result : TaskResult}
    {answer : Except Exc Unit} (hclock : ⟨.nowIso, t⟩ ∈ events)
    (hsent : ⟨.sendTask token result, answer⟩ ∈ events) : result = event.report py t := by
  cases h with
  | start | read | clocked => simp at hsent
  | @sent a t' s =>
      simp only [List.mem_cons, Sigma.mk.injEq, reduceCtorEq, false_and, false_or, or_false,
        heq_eq_eq, true_and, Op.sendTask.injEq, List.not_mem_nil] at hclock hsent
      rw [hsent.1.2, hclock]
  | @recorded a t' r =>
      have hother : Op.nowIso ≠ event.recordOp py := nofun
      simp only [List.mem_cons, Sigma.mk.injEq, reduceCtorEq, false_and, false_or, or_false,
        heq_eq_eq, true_and, Op.sendTask.injEq, List.not_mem_nil, hother,
        HttpEvent.sendTask_ne_recordOp] at hclock hsent
      rw [hsent.1.2, hclock]

/-- In every run of the click that sends its cause, the approver and the comment come
    through. -/
def ClickDecoded (py : Python) (click : RejectClick py) : Prop :=
  ∀ calls outcome token cause answer, Calls (decisionHandler py click.event) calls outcome →
    ⟨.nowIso, click.decidedAt⟩ ∈ calls →
    ⟨.sendTask token (.failure "ApprovalRejected" cause), answer⟩ ∈ calls →
    Reports py cause (.str click.event.approver) (.str click.event.comment)

/-- The click sends its cause once it finds the request undecided. -/
theorem exists_click (click : RejectClick py) :
    ∃ calls token, Calls (decisionHandler py click.event) calls .lost ∧
      ⟨.nowIso, click.decidedAt⟩ ∈ calls ∧
      ⟨.sendTask token (.failure "ApprovalRejected" click.sentCause), .ok ()⟩ ∈ calls := by
  refine ⟨[⟨.get (.str click.event.requestId), .ok (some (.obj []))⟩, ⟨.nowIso, click.decidedAt⟩,
    ⟨.sendTask click.event.token (click.event.report py click.decidedAt), .ok ()⟩],
    click.event.token, ?_, by simp, by simp [click.report_eq]⟩
  rw [decisionHandler_valid click.valid]
  refine calls_call_cons.mpr (calls_call_cons.mpr ?_)
  rw [decide_eq]
  exact calls_call_cons.mpr ⟨_, .nil, trivial⟩

theorem clickDecoded_iff_reports (click : RejectClick py) :
    ClickDecoded py click ↔
      Reports py click.sentCause (.str click.event.approver) (.str click.event.comment) := by
  constructor
  · intro h
    obtain ⟨calls, token, hcalls, hclock, hsent⟩ := exists_click click
    exact h calls _ token _ _ hcalls hclock hsent
  · rintro h calls outcome token cause answer ⟨q, htrace, _⟩ hclock hsent
    have hevents := clickEvents_of_clickAt (clickAt_of_trace htrace)
    have hreport := hevents.sent_at hclock hsent
    rw [click.report_eq] at hreport
    cases hreport
    exact h

/-- `json.loads` inverts `json.dumps` on the document, and rejects every text that
    breaks off before its end. -/
structure Decodes (py : Python) (document : Json) : Prop where
  inverse : py.loads (py.dumps document) = .ok document
  proper : ∀ text, text.toList <+: (py.dumps document).toList → text ≠ py.dumps document →
    ∃ e, py.loads text = .error e ∧ e.isInstance "json.JSONDecodeError" = true

theorem rejectionDetail_broken {e : Exc} (hloads : py.loads cause = .error e)
    (he : e.isInstance "json.JSONDecodeError" = true) :
    rejectionDetail py (.str cause) = .ok (.obj [("comment", .str cause)]) := by
  simp only [rejectionDetail, hloads, he, if_true]

theorem rejectionDetail_ok {detail : Json} (hloads : py.loads cause = .ok detail) :
    rejectionDetail py (.str cause) = .ok detail := by
  simp only [rejectionDetail, hloads]

theorem clickDecoded_iff {click : RejectClick py} (hdecodes : Decodes py click.document) :
    ClickDecoded py click ↔ (py.dumps click.document).length ≤ 32000 := by
  rw [clickDecoded_iff_reports, reports_iff]
  constructor
  · rintro ⟨detail, hdetail, hrejectedBy, _⟩
    by_contra hlong
    have hprefix : click.sentCause.toList <+: (py.dumps click.document).toList := by
      rw [RejectClick.sentCause, String.toList_ofList]
      exact List.take_prefix _ _
    have hproper : click.sentCause ≠ py.dumps click.document := by
      intro heq
      have hlength := congrArg String.length heq
      rw [RejectClick.sentCause, String.length_ofList, List.length_take, String.length_toList] at hlength
      omega
    -- What is left is no JSON, so the approver is lost.
    obtain ⟨e, hloads, he⟩ := hdecodes.proper _ hprefix hproper
    cases (rejectionDetail_broken hloads he).symm.trans hdetail
    cases hrejectedBy
  · intro hshort
    have hwhole : click.sentCause = py.dumps click.document := by
      rw [RejectClick.sentCause, List.take_of_length_le (by rw [String.length_toList]; exact hshort),
        String.ofList_toList]
    exact ⟨click.document, hwhole ▸ rejectionDetail_ok hdecodes.inverse, rfl, rfl⟩

/-! ## Other causes -/

def IsObject (py : Python) (cause : String) : Prop := ∃ fields, py.loads cause = .ok (.obj fields)

/-- The rejection is reported, with the cause as its comment unless that is an object. -/
def CauseDecoded (py : Python) (cause : String) : Prop :=
  ∃ rejectedBy comment, Reports py cause rejectedBy comment ∧
    (¬ IsObject py cause → comment = .str cause)

/-- The cause is an object, or no JSON. -/
def Readable (py : Python) (cause : String) : Prop :=
  IsObject py cause ∨ ∃ e, py.loads cause = .error e ∧ e.isInstance "json.JSONDecodeError" = true

theorem causeDecoded_iff : CauseDecoded py cause ↔ Readable py cause := by
  constructor
  · rintro ⟨rejectedBy, comment, hreports, _⟩
    obtain ⟨detail, hdetail, hrejectedBy, _⟩ := reports_iff.mp hreports
    cases hloads : py.loads cause with
    | ok value =>
        cases (rejectionDetail_ok hloads).symm.trans hdetail
        cases detail with
        | obj fields => exact .inl ⟨fields, hloads⟩
        | _ => cases hrejectedBy
    | error e =>
        cases he : e.isInstance "json.JSONDecodeError" with
        | true => exact .inr ⟨e, hloads, he⟩
        | false =>
            simp only [rejectionDetail, hloads, he, Bool.false_eq_true, if_false] at hdetail
            cases hdetail
  · rintro (⟨fields, hloads⟩ | ⟨e, hloads, he⟩)
    · refine ⟨_, _, reports_iff.mpr ⟨_, rejectionDetail_ok hloads, rfl, rfl⟩, ?_⟩
      exact fun hnot => absurd ⟨fields, hloads⟩ hnot
    · exact ⟨_, _, reports_iff.mpr ⟨_, rejectionDetail_broken hloads he, rfl, rfl⟩, fun _ => rfl⟩

/-- A click comes through unless its cause is cut, and any other cause unless it is JSON
    but no object, or too much for the decoder. -/
theorem causes_decoded_iff (py : Python) :
    (∀ click : RejectClick py, Decodes py click.document →
      (ClickDecoded py click ↔ (py.dumps click.document).length ≤ 32000)) ∧
    ∀ cause, CauseDecoded py cause ↔ Readable py cause :=
  ⟨fun _ hdecodes => clickDecoded_iff hdecodes, fun _ => causeDecoded_iff⟩

/-- A decoder that knows these texts. -/
def decoder (known : List (String × Json)) : Python :=
  { Python.sample with
    loads := fun text => (known.lookup text).elim
      (.error ⟨"JSONDecodeError", ["json.JSONDecodeError", "ValueError", "Exception"],
        "Expecting value"⟩) .ok
    loads_error := by
      intro text e h
      cases hknown : known.lookup text with
      | none =>
          rw [hknown] at h
          cases h
          rfl
      | some value =>
          rw [hknown] at h
          cases h }

theorem decodes_decoder (document : Json) :
    Decodes (decoder [(Python.text document, document)]) document where
  inverse := by simp [decoder, Python.sample]
  proper text _ hne := by
    have hunknown : [(Python.text document, document)].lookup text = none := by
      have hkey : (text == Python.text document) = false := beq_false_of_ne hne
      simp [List.lookup_cons, hkey]
    refine ⟨⟨"JSONDecodeError", ["json.JSONDecodeError", "ValueError", "Exception"],
      "Expecting value"⟩, ?_, rfl⟩
    simp [decoder, hunknown]

/-- The event of a click on the link of request `req-1`. -/
def rejectEvent (comment : String) : HttpEvent where
  rawPath := some "/reject"
  queryStringParameters := some [("request_id", "req-1"), ("token", "token-1"),
    ("approver", "manager@example.com"), ("comment", comment)]

theorem rejectEvent_action {comment : String} : (rejectEvent comment).action py = "reject" := by
  have happrove : Python.endsWith "/reject" "/approve" = false := by decide
  have hreject : Python.endsWith "/reject" "/reject" = true := by decide
  simp [HttpEvent.action, rejectEvent, happrove, hreject]

def rejectClick (py : Python) (comment : String) : RejectClick py where
  event := rejectEvent comment
  valid := ⟨.inr rejectEvent_action, by simp [rejectEvent, HttpEvent.requestId, HttpEvent.param],
    by simp [rejectEvent, HttpEvent.token, HttpEvent.param, List.lookup_cons]⟩
  rejects := rejectEvent_action
  decidedAt := "2026-01-01T00:00:00Z"

/-- What such a click reports. -/
def rejectDocument (comment : String) : Json :=
  .obj [("rejected_by", .str "manager@example.com"), ("decided_at", .str "2026-01-01T00:00:00Z"),
    ("comment", .str comment)]

theorem rejectClick_document {comment : String} :
    (rejectClick py comment).document = rejectDocument comment := rfl

/-- A decoder that knows what such a click reports. -/
def rejectDecoder (comment : String) : Python :=
  decoder [(Python.text (rejectDocument comment), rejectDocument comment)]

theorem decodes_rejectDocument {comment : String} :
    Decodes (rejectDecoder comment) (rejectClick (rejectDecoder comment) comment).document := by
  rw [rejectClick_document]
  exact decodes_decoder _

theorem length_dumps {comment : String} :
    ((rejectDecoder comment).dumps (rejectClick (rejectDecoder comment) comment).document).length =
      comment.length + 91 := by
  change (Python.text (rejectDocument comment)).length = comment.length + 91
  have hrejectedBy : "\"rejected_by\": \"manager@example.com\", ".length = 38 := by decide +kernel
  have hdecidedAt : "\"decided_at\": \"2026-01-01T00:00:00Z\", ".length = 38 := by decide +kernel
  have hcomment : "\"comment\": ".length = 11 := by decide +kernel
  have hmarks : "\"".length = 1 ∧ "\x7b".length = 1 ∧ "\x7d".length = 1 := by decide +kernel
  simp [rejectDocument, Python.text, Python.textFields, String.length_append, hrejectedBy, hdecidedAt,
    hcomment, hmarks]
  omega

theorem causes_decoded_iff_short :
    ClickDecoded (rejectDecoder "Too expensive") (rejectClick _ "Too expensive") ∧
      CauseDecoded (decoder []) "no budget" := by
  constructor
  · refine ((causes_decoded_iff _).1 _ decodes_rejectDocument).mpr ?_
    have hlength : "Too expensive".length = 13 := by decide +kernel
    rw [length_dumps, hlength]
    omega
  · exact ((causes_decoded_iff _).2 _).mpr (.inr ⟨_, rfl, rfl⟩)

/-- A comment of 32000 characters, and a cause that is JSON but no object. -/
theorem causes_decoded_counterexample :
    ¬ ClickDecoded (rejectDecoder (String.ofList (List.replicate 32000 'x')))
        (rejectClick _ (String.ofList (List.replicate 32000 'x'))) ∧
      ¬ CauseDecoded (decoder [("null", .null)]) "null" := by
  constructor
  · rw [clickDecoded_iff decodes_rejectDocument, length_dumps, String.length_ofList,
      List.length_replicate]
    omega
  · rw [causeDecoded_iff]
    rintro (⟨fields, hloads⟩ | ⟨e, hloads, _⟩)
    · cases hloads
    · cases hloads

end ApprovalWorkflow
