-- SUMMARY: What `prepare_request` and `send_approval_email` do, operation by operation.
import ServerlessPatterns.ApprovalWorkflow.World

/-!
# Task calls

As `ClickEvents` for the clicks: how far a call of the two tasks that write the
record can have come. Both write once at most, after all their checks.
-/

namespace ApprovalWorkflow

open Program

/-! ## `prepare_request` -/

inductive PrepareEvents : List (Event Op Ans) → Prop where
  | start : PrepareEvents []
  | named {idPrefix id} : PrepareEvents [⟨.newId idPrefix, id⟩]
  | created {r t a q c s answer} : PrepareEvents [⟨.create r t a q c s, answer⟩]
  | namedCreated {idPrefix id r t a q c s answer} :
      PrepareEvents [⟨.newId idPrefix, id⟩, ⟨.create r t a q c s, answer⟩]

theorem requestIdOf_trace {requestId : Json} {events : List (Event Op Ans)} {q : Handler Json}
    (h : Trace (requestIdOf requestId) events q) :
    events = [] ∨ ∃ idPrefix id, events = [⟨.newId idPrefix, id⟩] := by
  unfold requestIdOf at h
  split at h
  · exact .inl (trace_ret.mp h).1
  · rw [trace_call] at h
    rcases h with ⟨rfl, _⟩ | ⟨id, rest, rfl, h⟩
    · exact .inl rfl
    · rw [(trace_ret.mp h).1]
      exact .inr ⟨_, id, rfl⟩

/-- What is left to do once the request has its id. -/
theorem createEvents_of_trace {py : Python} {spec requestId : Json} {title requester : String}
    {events : List (Event Op Ans)} {q : Handler Json}
    (h : Trace (do
      let amount ← .ofExcept (requestAmount py (← .ofExcept (Python.get spec "amount")))
      let context := (← .ofExcept (Python.get spec "context")).orElse (.obj [])
      .call (.create requestId title amount requester context defaultTtlSeconds) .ofExcept
      return .obj [("request_id", requestId), ("title", .str title),
        ("amount", match amount with | some x => .num (.float x) | none => .null),
        ("requester", .str requester)] : Handler Json) events q) :
    events = [] ∨ ∃ r t a q c s answer, events = [⟨.create r t a q c s, answer⟩] := by
  rcases trace_silent_bind silent_ofExcept h with ⟨rfl, _⟩ | ⟨given, _, hamount⟩
  · exact .inl rfl
  rcases trace_silent_bind silent_ofExcept hamount with ⟨rfl, _⟩ | ⟨amount, _, hcontext⟩
  · exact .inl rfl
  rcases trace_silent_bind silent_ofExcept hcontext with ⟨rfl, _⟩ | ⟨context, _, hcreate⟩
  · exact .inl rfl
  simp only [call_bind, trace_call] at hcreate
  rcases hcreate with ⟨rfl, _⟩ | ⟨answer, rest, rfl, hrest⟩
  · exact .inl rfl
  rcases trace_silent_bind silent_ofExcept hrest with ⟨rfl, _⟩ | ⟨_, _, hret⟩
  · exact .inr ⟨_, _, _, _, _, _, _, rfl⟩
  · rw [pure_eq, trace_ret] at hret
    rw [hret.1]
    exact .inr ⟨_, _, _, _, _, _, _, rfl⟩

theorem prepareEvents_of_trace {py : Python} {event : Json} {events : List (Event Op Ans)}
    {q : Handler Json} (h : Trace (prepareRequest py event) events q) : PrepareEvents events := by
  unfold prepareRequest at h
  rcases trace_silent_bind silent_ofExcept h with ⟨rfl, _⟩ | ⟨title, _, htitle⟩
  · exact .start
  split at htitle
  case h_2 =>
      rw [(trace_raise.mp htitle).1]
      exact .start
  split at htitle
  · rw [(trace_raise.mp htitle).1]
    exact .start
  rcases trace_silent_bind silent_ofExcept htitle with ⟨rfl, _⟩ | ⟨requester, _, hrequester⟩
  · exact .start
  rcases trace_silent_bind silent_ofExcept hrequester with ⟨rfl, _⟩ | ⟨givenId, _, hgiven⟩
  · exact .start
  rcases trace_bind hgiven with ⟨_, hid, _⟩ | ⟨requestId, front, back, rfl, hid, hcreate⟩
  · rcases requestIdOf_trace hid with rfl | ⟨_, _, rfl⟩
    · exact .start
    · exact .named
  · rcases requestIdOf_trace hid with rfl | ⟨_, _, rfl⟩ <;>
      rcases createEvents_of_trace hcreate with rfl | ⟨_, _, _, _, _, _, _, rfl⟩
    · exact .start
    · exact .created
    · exact .named
    · exact .namedCreated

/-! ## `send_approval_email` -/

/-- The event of the email task for a token and a request. -/
def gateEvent (token : String) (request execution : Json) : Json :=
  .obj [("task_token", .str token), ("request", request), ("execution", execution)]

inductive GateEvents (requestId token : Json) : List (Event Op Ans) → Prop where
  | start : GateEvents requestId token []
  | attached {answer} : GateEvents requestId token [⟨.attachToken requestId token, answer⟩]
  | emailed {email answer} : GateEvents requestId token
      [⟨.attachToken requestId token, .ok ()⟩, ⟨.sendEmail email, answer⟩]

theorem sendEmail_trace {py : Python} {env : Env} {request : Json} {approveUrl rejectUrl : String}
    {events : List (Event Op Ans)} {q : Handler Unit}
    (h : Trace (sendEmail py env request approveUrl rejectUrl) events q) :
    events = [] ∨ ∃ email answer, events = [⟨.sendEmail email, answer⟩] := by
  unfold sendEmail at h
  simp only at h
  split at h
  · exact .inl (trace_raise.mp h).1
  rcases trace_silent_bind silent_ofExcept h with ⟨rfl, _⟩ | ⟨title, _, htitle⟩
  · exact .inl rfl
  rcases trace_silent_bind silent_ofExcept htitle with ⟨rfl, _⟩ | ⟨requester, _, hrequester⟩
  · exact .inl rfl
  rcases trace_silent_bind silent_ofExcept hrequester with ⟨rfl, _⟩ | ⟨amount, _, hamount⟩
  · exact .inl rfl
  rw [trace_call] at hamount
  rcases hamount with ⟨rfl, _⟩ | ⟨answer, rest, rfl, hrest⟩
  · exact .inl rfl
  cases answer with
  | ok _ =>
      obtain ⟨rfl, _⟩ := trace_ret.mp hrest
      exact .inr ⟨_, _, rfl⟩
  | error e =>
      obtain ⟨rfl, _⟩ := trace_raise.mp hrest
      exact .inr ⟨_, _, rfl⟩

/-- A truthy `request_id` of `event.get("request") or {}` is the request's own. -/
theorem field_of_get_orElse {request requestId : Json}
    (h : Python.get (request.orElse (.obj [])) "request_id" = .ok requestId)
    (htruthy : requestId.truthy = true) : request.field "request_id" = some requestId := by
  by_cases hrequest : request.truthy = true
  · rw [Json.orElse_of_truthy hrequest] at h
    cases request with
    | obj fields =>
        simp only [Python.get, Except.ok.injEq] at h
        cases hfield : fields.lookup "request_id" with
        | none =>
            rw [hfield] at h
            subst h
            simp at htruthy
        | some value =>
            rw [hfield, Option.getD_some] at h
            rw [Json.field_obj, hfield, h]
    | _ => simp [Python.get] at h
  · simp only [Json.orElse, if_neg hrequest, Python.get, List.lookup_nil, Option.getD_none,
      Except.ok.injEq] at h
    subst h
    simp at htruthy

theorem sendApprovalEmail_gateEvent {py : Python} {env : Env} {token : String}
    {request execution : Json} :
    sendApprovalEmail py env (gateEvent token request execution) = (do
      let requestId ← .ofExcept (Python.get (request.orElse (.obj [])) "request_id")
      if !requestId.truthy || !(Json.str token).truthy then
        .raise (approvalInputError "send_approval_email: missing request_id or task_token")
      else do
        .call (.attachToken requestId (.str token)) .ofExcept
        let approveUrl ← .ofExcept (decisionUrl env "approve" requestId (.str token))
        let rejectUrl ← .ofExcept (decisionUrl env "reject" requestId (.str token))
        sendEmail py env (request.orElse (.obj [])) approveUrl rejectUrl
        return .obj [("request_id", requestId), ("status", statusNotified)]) := by
  simp only [sendApprovalEmail, gateEvent, Python.get_obj, List.lookup_cons, beq_self_eq_true]
  rfl

/-- The email task writes the token it got under the id of the request it got,
    and it returns only after that. -/
theorem gate_trace {py : Python} {env : Env} {token : String} {request execution : Json}
    {events : List (Event Op Ans)} {q : Handler Json}
    (h : Trace (sendApprovalEmail py env (gateEvent token request execution)) events q) :
    (events = [] ∧ ∀ a, q ≠ .ret a) ∨
    ∃ requestId, request.field "request_id" = some requestId ∧
      GateEvents requestId (.str token) events ∧
      ∀ a, q = .ret a → ⟨.attachToken requestId (.str token), .ok ()⟩ ∈ events := by
  rw [sendApprovalEmail_gateEvent] at h
  rcases trace_silent_bind silent_ofExcept h with ⟨rfl, _, rfl⟩ | ⟨requestId, hid, hcheck⟩
  · exact .inl ⟨rfl, fun _ => raise_ne_ret⟩
  split at hcheck
  · obtain ⟨rfl, rfl⟩ := trace_raise.mp hcheck
    exact .inl ⟨rfl, fun _ => raise_ne_ret⟩
  rename_i htruthy
  have hfield : request.field "request_id" = some requestId := by
    refine field_of_get_orElse ?_ (by simp at htruthy; exact htruthy.1)
    cases hget : Python.get (request.orElse (.obj [])) "request_id" with
    | ok value =>
        rw [hget] at hid
        injection hid with heq
        rw [heq]
    | error e =>
        rw [hget] at hid
        cases hid
  simp only [call_bind, trace_call] at hcheck
  rcases hcheck with ⟨rfl, rfl⟩ | ⟨attached, rest, rfl, hattached⟩
  · exact .inl ⟨rfl, fun _ => call_ne_ret⟩
  refine .inr ⟨requestId, hfield, ?_⟩
  rcases trace_silent_bind silent_ofExcept hattached with ⟨rfl, _, rfl⟩ | ⟨_, hok, happrove⟩
  · exact ⟨.attached, fun _ heq => absurd heq raise_ne_ret⟩
  have hattachedOk : attached = .ok () := by
    cases attached with
    | ok _ => rfl
    | error e => cases hok
  subst hattachedOk
  refine ⟨?_, fun _ _ => List.mem_cons_self⟩
  rcases trace_silent_bind silent_ofExcept happrove with ⟨rfl, _⟩ | ⟨approveUrl, _, hreject⟩
  · exact .attached
  rcases trace_silent_bind silent_ofExcept hreject with ⟨rfl, _⟩ | ⟨rejectUrl, _, hemail⟩
  · exact .attached
  rcases trace_bind hemail with ⟨_, hsend, _⟩ | ⟨_, front, back, rfl, hsend, hret⟩
  · rcases sendEmail_trace hsend with rfl | ⟨email, answer, rfl⟩
    · exact .attached
    · exact .emailed
  · obtain ⟨rfl, _⟩ := trace_ret.mp hret
    rcases sendEmail_trace hsend with rfl | ⟨email, answer, rfl⟩
    · exact .attached
    · exact .emailed

end ApprovalWorkflow
