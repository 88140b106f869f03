-- SUMMARY: How the request travels from PrepareRequest to the handlers of the later states, and that its id does not arrive.
import ServerlessPatterns.ApprovalWorkflow.StateMachine

/-!
# The data flow of the approval state machine

`PrepareRequest` selects its result into an object with the field `request` and
then puts that object at `$.request`. The request so ends up one level deeper
than the handlers of the later states look for it.
-/

namespace ApprovalWorkflow

open Asl Relation Workflow

/-- A configuration of one approval execution. -/
abbrev Config := Workflow.Config StateName Op Ans World

/-- One step of an approval execution; any attempt may fail at any point. -/
abbrev Step (py : Python) (env : Env) : Config → Config → Prop :=
  Workflow.Step (workflow py env) fun _ => True

/-- The request id that a handler reads from its event. -/
def readRequestId (event : Json) : Option Json := event.get ["request", "request_id"]

def missingRequestId : Exc :=
  approvalInputError "send_approval_email: missing request_id or task_token"

/-- `prepare_request` persisted a record under `key` and returned. -/
def Persisted (c : Config) (key : Json) : Prop :=
  ∃ inv ∈ c.log, inv.state = .prepareRequest ∧ (∃ a, inv.outcome = .returned a) ∧
    ∃ title amount requester context ttlSeconds,
      ⟨.create key title amount requester context ttlSeconds, .ok ()⟩ ∈ inv.calls

/-- Every handler after `PrepareRequest` reads the id of the persisted record;
    the email step does not miss it and attaches its token to that record. -/
def RequestBound (c : Config) : Prop :=
  ∀ inv ∈ c.log, inv.state ≠ .prepareRequest → ∃ key, Persisted c key ∧
    readRequestId inv.event = some key ∧ inv.outcome ≠ .raised missingRequestId ∧
    ∀ requestId token answer, ⟨.attachToken requestId token, answer⟩ ∈ inv.calls → requestId = key

/-- `prepare_request` can run to its end on this input. -/
def Accepts (py : Python) (input : Json) (w : World) : Prop :=
  ∃ calls payload w', Program.Attempt (exec py) (prepareRequest py input) w calls (.returned payload) w'

/-- In every state that the execution can reach, the request is bound. -/
def DataFlowHolds (py : Python) (env : Env) (input : Json) (w : World) : Prop :=
  ∀ c, ReflTransGen (Step py env) ((workflow py env).init input w) c → RequestBound c

/-! ## The request one level too deep -/

/-- The state data has the request at `$.request.request`, and nothing else at
    `$.request`. -/
def Nested (data : Json) : Prop :=
  ∃ payload, data.get ["request"] = some (.obj [("request", payload)])

theorem prepareRequest_complete (context data payload : Json) :
    machine.complete .prepareRequest prepareRequestTask context data
        (prepareRequestTask.wrap payload) = .runtimeError .prepareRequest ∨
    ∃ data', machine.complete .prepareRequest prepareRequestTask context data
        (prepareRequestTask.wrap payload) = .running .requestApproval data' [] ∧ Nested data' := by
  have hselect : prepareRequestTask.output context data (prepareRequestTask.wrap payload) =
      data.put ["request"] (.obj [("request", payload)]) := rfl
  cases hput : data.put ["request"] (.obj [("request", payload)]) with
  | none => exact .inl (by simp [Machine.complete, hselect, hput])
  | some data' =>
      refine .inr ⟨data', ?_, payload, Json.get_put hput⟩
      simp only [Machine.complete, hselect, hput]
      rfl

/-- The event of the email step, when the state data is nested. -/
theorem requestApproval_event {context data event : Json} (hnested : Nested data)
    (h : requestApprovalTask.event context data = some event) :
    ∃ token payload execution, event = .obj [("task_token", token),
      ("request", .obj [("request", payload)]), ("execution", execution)] := by
  obtain ⟨payload, hrequest⟩ := hnested
  cases htoken : context.get ["Task", "Token"] with
  | none =>
      simp only [Task.event, requestApprovalTask, Template.eval, Template.evalFields, htoken] at h
      simp at h
  | some token =>
      cases hexecution : context.get ["Execution", "Id"] with
      | none =>
          simp only [Task.event, requestApprovalTask, Template.eval, Template.evalFields,
            hrequest, hexecution] at h
          simp at h
      | some execution =>
          refine ⟨token, payload, execution, ?_⟩
          simp only [Task.event, requestApprovalTask, Template.eval, Template.evalFields,
            htoken, hrequest, hexecution] at h
          simpa using h.symm

/-- On such an event the email step fails before it does anything. -/
theorem sendApprovalEmail_nested {py : Python} {env : Env} {token payload execution : Json} :
    sendApprovalEmail py env (.obj [("task_token", token), ("request", .obj [("request", payload)]),
      ("execution", execution)]) = .raise missingRequestId := by
  simp [sendApprovalEmail, missingRequestId, List.lookup_cons, Json.orElse, Json.truthy]

/-- An error never leads to the email step. -/
theorem fault_ne_requestApproval {s : StateName} {t : Task StateName Function}
    (hs : machine.states s = .task t) {data : Json} {left : List Nat} {err : TaskError}
    {data' : Json} {left' : List Nat} :
    machine.fault s t data left err ≠ .running .requestApproval data' left' := by
  intro h
  rcases machine.fault_cases s t data left err with
    ⟨i, hidx, hleft, heq⟩ | ⟨c, hc, _, d, _, heq⟩ | ⟨err', heq⟩
  · rw [heq] at h
    injection h with hstate
    subst hstate
    cases hs
    simp [requestApprovalTask] at hidx
  · rw [heq] at h
    cases s <;> cases hs <;>
      simp [prepareRequestTask, requestApprovalTask, recordApprovalTask, handleRejectionTask] at hc
    · subst hc; simp [Machine.enter, machine] at h
    · rcases hc with rfl | rfl | rfl <;> simp [Machine.enter, machine] at h
  · rw [heq] at h
    cases h

/-- The email step is entered from `PrepareRequest` only, with nested data. -/
theorem resume_requestApproval {s : StateName} {t : Task StateName Function}
    (hs : machine.states s = .task t) {context data : Json} {left : List Nat}
    {outcome : Program.Outcome Exc Json} {report : Except TaskError Json}
    (hreport : Reported t outcome report) {data' : Json} {left' : List Nat}
    (h : machine.resume s t context data left report = .running .requestApproval data' left') :
    Nested data' := by
  cases report with
  | error err => exact absurd h (fault_ne_requestApproval hs)
  | ok result =>
      cases s <;> cases hs
      · cases hreport with
        | returned =>
            rcases prepareRequest_complete context data _ with
              heq | ⟨data₁, heq, hnested⟩
            · rw [Machine.resume, heq] at h
              cases h
            · rw [Machine.resume, heq] at h
              injection h with _ hdata
              exact hdata ▸ hnested
        | callback hwait => simp [prepareRequestTask] at hwait
      all_goals
        rcases machine.complete_cases _ _ context data result with
          ⟨_, heq⟩ | ⟨d, _, ⟨_, heq⟩ | ⟨s', hnext, heq⟩⟩
        · rw [Machine.resume, heq] at h
          cases h
        · rw [Machine.resume, heq] at h
          cases h
        · rw [Machine.resume, heq] at h
          simp only [requestApprovalTask, recordApprovalTask, handleRejectionTask,
            Option.some.injEq] at hnext
          subst hnext
          simp [Machine.enter, machine] at h

/-- What holds throughout an execution: the email step gets nested data, and so
    it never gets past its first check. -/
structure Misplaced (c : Config) : Prop where
  nested : ∀ data left, c.execution = .running .requestApproval data left → Nested data
  starved : ∀ inv ∈ c.log, inv.state = .requestApproval →
    readRequestId inv.event = none ∧ inv.calls = [] ∧
      (inv.outcome = .raised missingRequestId ∨ inv.outcome = .lost)

theorem misplaced_step {py : Python} {env : Env} {c c' : Config} (h : Misplaced c)
    (hstep : Step py env c c') : Misplaced c' := by
  cases hstep with
  | @pass s _ _ _ _ _ _ _ _ hstate _ => cases s <;> cases hstate
  | @passError s _ _ _ _ _ _ _ hstate _ => cases s <;> cases hstate
  | @route s _ _ _ _ _ hroute => cases s <;> cases hroute
  | @routeError s _ _ _ _ hroute => cases s <;> cases hroute
  | eventError hstate hevent => exact ⟨nofun, h.starved⟩
  | @attempt s t context data left world log event calls outcome world' report
      hstate hevent hattempt _ hreport =>
      refine ⟨fun data' left' heq => resume_requestApproval hstate hreport heq, ?_⟩
      intro inv hmem hinv
      rcases List.mem_append.mp hmem with hold | hnew
      · exact h.starved inv hold hinv
      · obtain rfl := List.mem_singleton.mp hnew
        simp only at hinv
        subst hinv
        cases hstate
        obtain ⟨token, payload, execution, rfl⟩ := requestApproval_event (h.nested data left rfl) hevent
        have hcalls := hattempt.calls
        simp only [workflow, function, requestApprovalTask, sendApprovalEmail_nested,
          Program.calls_raise] at hcalls
        exact ⟨by simp [readRequestId, List.lookup_cons], hcalls⟩

theorem misplaced_reachable {py : Python} {env : Env} {input : Json} {w : World} {c : Config}
    (hreach : ReflTransGen (Step py env) ((workflow py env).init input w) c) : Misplaced c := by
  refine Transition.invariant hreach ⟨?_, ?_⟩ fun _ _ => misplaced_step
  · intro data left h
    cases h
  · intro inv hmem
    cases hmem

/-! ## The request is never bound -/

/-- `prepare_request` returns on JSON objects only. -/
theorem object_of_accepts {py : Python} {input : Json} {w : World} (h : Accepts py input w) :
    ∃ fields, input = .obj fields := by
  obtain ⟨calls, payload, w', hattempt⟩ := h
  have hcalls := hattempt.calls
  cases input with
  | obj fields => exact ⟨fields, rfl⟩
  | _ =>
      exfalso
      revert hcalls
      simp only [prepareRequest, Json.orElse]
      split <;> simp [Python.get, Program.calls_raise]

/-- The context object of a task with a task token. -/
def taskContext (token execution : Json) : Json :=
  .obj [("Task", .obj [("Token", token)]), ("Execution", .obj [("Id", execution)])]

/-- The state data after `PrepareRequest`. -/
def preparedData (fields : List (String × Json)) (payload : Json) : Json :=
  .obj (Fields.put "request" (.obj [("request", payload)]) fields)

/-- The event of the email step after `PrepareRequest`. -/
def emailEvent (payload token execution : Json) : Json :=
  .obj [("task_token", token), ("request", .obj [("request", payload)]), ("execution", execution)]

theorem event_preparedData {fields : List (String × Json)} {payload token execution : Json} :
    requestApprovalTask.event (taskContext token execution) (preparedData fields payload) =
      some (emailEvent payload token execution) := by
  simp [Task.event, requestApprovalTask, Template.eval, Template.evalFields, taskContext,
    preparedData, emailEvent, List.lookup_cons]

/-- Every accepted input has a run that reaches the email step, and it reads no
    request id there. -/
theorem not_dataFlowHolds {py : Python} {env : Env} {input : Json} {w : World}
    (h : Accepts py input w) : ¬ DataFlowHolds py env input w := by
  intro hholds
  obtain ⟨fields, rfl⟩ := object_of_accepts h
  obtain ⟨calls, payload, w', hattempt⟩ := h
  let context := taskContext (.str "token") (.str "execution")
  let prepared : Config := ⟨.running .requestApproval (preparedData fields payload) [], w',
    [⟨.prepareRequest, .obj fields, calls, .returned payload⟩]⟩
  let emailed : Config :=
    ⟨machine.resume .requestApproval requestApprovalTask context (preparedData fields payload) []
        (.error ⟨missingRequestId.errorType, missingRequestId.message⟩), w',
      prepared.log ++ [⟨.requestApproval, emailEvent payload (.str "token") (.str "execution"), [],
        .raised missingRequestId⟩]⟩
  have hevent : prepareRequestTask.event context (.obj fields) = some (.obj fields) := rfl
  have hprepare : Step py env ((workflow py env).init (.obj fields) w) prepared :=
    .attempt (t := prepareRequestTask) rfl hevent hattempt trivial (.returned nofun)
  have hemail : Step py env prepared emailed := by
    have hgate : requestApprovalTask.event context (preparedData fields payload) =
        some (emailEvent payload (.str "token") (.str "execution")) := event_preparedData
    refine .attempt (t := requestApprovalTask) rfl hgate ⟨⟨_, .nil, ?_⟩, .nil⟩ trivial .raised
    exact sendApprovalEmail_nested
  have hreach := (ReflTransGen.refl.tail hprepare).tail hemail
  have hmem := List.mem_append_right prepared.log
    (List.mem_singleton_self (⟨.requestApproval, emailEvent payload (.str "token") (.str "execution"),
      [], .raised missingRequestId⟩ : Invocation StateName Op Ans))
  obtain ⟨key, _, hread, _⟩ := hholds emailed hreach _ hmem nofun
  rw [((misplaced_reachable hreach).starved _ hmem rfl).1] at hread
  cases hread

/-- No accepted input gets its request to the email step: wherever that step is
    tried, it reads no request id, touches no record, and fails unless it is
    given up before. -/
theorem request_never_bound {py : Python} {env : Env} {input : Json} {w : World}
    (h : Accepts py input w) :
    ¬ DataFlowHolds py env input w ∧
      ∀ c, ReflTransGen (Step py env) ((workflow py env).init input w) c →
        ∀ inv ∈ c.log, inv.state = .requestApproval →
          readRequestId inv.event = none ∧ inv.calls = [] ∧
            (inv.outcome = .raised missingRequestId ∨ inv.outcome = .lost) :=
  ⟨not_dataFlowHolds h, fun _ hreach => (misplaced_reachable hreach).starved⟩

/-- A request as the README starts one. -/
def refundRequest : Json := .obj [("title", .str "Refund #4821"), ("amount", .num (.int 250)),
  ("requester", .str "support-bot"), ("request_id", .str "req-1")]

theorem accepts_refundRequest : Accepts .sample refundRequest .empty :=
  ⟨_, _, _, (Program.run_attempt answer_exec (prepareRequest .sample refundRequest) none .empty :)⟩

theorem request_never_bound_refundRequest :
    ¬ DataFlowHolds .sample sampleEnv refundRequest .empty :=
  (request_never_bound accepts_refundRequest).1

theorem dataFlow_counterexample :
    ¬ ∀ py env input w, Accepts py input w → DataFlowHolds py env input w :=
  fun h => not_dataFlowHolds accepts_refundRequest (h .sample sampleEnv refundRequest .empty
    accepts_refundRequest)

end ApprovalWorkflow
