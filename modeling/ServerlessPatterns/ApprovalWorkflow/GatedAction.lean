-- SUMMARY: One approval execution past its gate: which record `on_approved` and `on_rejected` find when they are invoked.
import ServerlessPatterns.ApprovalWorkflow.Race
import ServerlessPatterns.ApprovalWorkflow.StateMachine

/-!
# The gated action

The execution waits at the gate while clicks race for its token. As soon as one
callback is accepted the state machine goes on, and it does not wait for the
click to write its decision. So the handlers behind the gate find the decision
in the record exactly when that click has got to its last operation by then.
-/

namespace ApprovalWorkflow

open Asl Program Relation

variable {ι : Type}

/-- The execution and the clicks on its links. Every invocation is kept with the
    clicks as they stood when it was made. -/
structure Gated (ι : Type) where
  execution : Execution StateName
  clicks : Clicks ι
  invoked : List (Invocation StateName Op Ans × Clicks ι)

/-- What the gate is told when its token settles. The output of a success is
    read as JSON. -/
inductive TokenReport : Option TaskState → Except TaskError Json → Prop where
  | success {output result} : TokenReport (some (.resumed (.success output))) (.ok result)
  | failure {error cause} :
      TokenReport (some (.resumed (.failure error cause))) (.error ⟨error, cause⟩)
  | timedOut {cause} : TokenReport (some .timedOut) (.error ⟨"States.Timeout", cause⟩)

/-- The execution at its gate, before anyone clicked. -/
def Gated.start (py : Python) (link : ι → HttpEvent) (w : World) (data : Json) : Gated ι where
  execution := .running .requestApproval data []
  clicks := Pool.init w fun i => decisionHandler py (link i)
  invoked := []

/-- `on_approved` finds the request approved, and `on_rejected` finds it
    rejected. -/
def SeesDecision (requestId : String) (made : Invocation StateName Op Ans × Clicks ι) : Prop :=
  (made.1.state = .recordApproval →
    made.2.world.table.attr requestId ["status"] = some statusApproved) ∧
  (made.1.state = .handleRejection →
    made.2.world.table.attr requestId ["status"] = some statusRejected)

/-- The click whose callback was accepted has written its decision. -/
def Settled (py : Python) (link : ι → HttpEvent) (token : String) (clicks : Clicks ι) : Prop :=
  ∀ i result, Accepted clicks token i result → Recorded py link clicks i (.ok ())

/-! ## The decision behind the gate -/

/-- The execution is behind its gate only if it was resumed that way. -/
def Passed (token : String) (s : StateName) (w : World) : Prop :=
  (s = .recordApproval ∧ ∃ output, w.tasks token = some (.resumed (.success output))) ∨
  (s = .handleRejection ∧
    ∃ error cause, w.tasks token = some (.resumed (.failure error cause)))

structure Following (py : Python) (link : ι → HttpEvent) (requestId token : String)
    (g : Gated ι) : Prop where
  agreed : Agreed py link requestId token g.clicks
  passed : ∀ s data left, g.execution = .running s data left →
    s = .requestApproval ∨ Passed token s g.clicks.world
  invoked : ∀ made ∈ g.invoked, Agreed py link requestId token made.2 ∧
    Passed token made.1.state made.2.world

variable {py : Python} {env : Env} {link : ι → HttpEvent} {requestId token : String}

theorem following_start {w : World} (h : Emailed requestId token w) (data : Json) :
    Following py link requestId token (Gated.start py link w data) := by
  refine ⟨agreed_init h, ?_, ?_⟩
  · intro s data' left heq
    injection heq with hs
    exact .inl hs.symm
  · intro made hmem
    cases hmem

/-- The record has the verdict of the click that resumed the execution exactly
    when that click has written it. -/
theorem Agreed.status_iff_settled (hlink : ∀ i, EmailedLink requestId token (link i))
    {clicks : Clicks ι} (h : Agreed py link requestId token clicks) {i : ι} {result : TaskResult}
    (hi : Accepted clicks token i result) :
    clicks.world.table.attr requestId ["status"] = some ((link i).verdict py) ↔
      Settled py link token clicks := by
  constructor
  · intro hstatus j result' hj
    have hne : (link i).verdict py ≠ statusNotified := by
      unfold HttpEvent.verdict
      split <;> decide
    obtain ⟨i', _, hi', _, _⟩ := h.decided hlink hstatus hne
    obtain ⟨_, haccepted⟩ := h.accepted_of_recorded hlink hi'
    rwa [h.single j i' _ _ hj haccepted]
  · intro hsettled
    have hrecorded := hsettled i result hi
    obtain ⟨record, hread, _, ⟨_, hnone⟩ | ⟨j, hj, hverdict⟩⟩ := h.record
    · exact absurd hrecorded (hnone i)
    · rw [Table.attr, hread, Option.bind_some, hverdict, h.eq_of_recorded hlink hj hrecorded]

theorem sees_iff_settled (hlink : ∀ i, EmailedLink requestId token (link i))
    {made : Invocation StateName Op Ans × Clicks ι} (h : Agreed py link requestId token made.2)
    (hpassed : Passed token made.1.state made.2.world) :
    SeesDecision requestId made ↔ Settled py link token made.2 := by
  rcases hpassed with ⟨hs, output, hresumed⟩ | ⟨hs, error, cause, hresumed⟩
  · obtain ⟨i, hi⟩ := (h.resumed _).mp hresumed
    obtain ⟨_, decidedAt, hreport⟩ := (h.clickEvents i).report_eq hi
    have hstatus := h.status_iff_settled hlink hi
    rw [HttpEvent.verdict_of_success hreport.symm] at hstatus
    simp only [SeesDecision, hs, forall_const, reduceCtorEq, false_implies, and_true]
    exact hstatus
  · obtain ⟨i, hi⟩ := (h.resumed _).mp hresumed
    obtain ⟨_, decidedAt, hreport⟩ := (h.clickEvents i).report_eq hi
    have hstatus := h.status_iff_settled hlink hi
    rw [HttpEvent.verdict_of_failure hreport.symm] at hstatus
    simp only [SeesDecision, hs, forall_const, reduceCtorEq, false_implies, true_and]
    exact hstatus

/-! ## Past the gate -/

/-- The gate leads to `RecordApproval` on a success, and to `HandleRejection` on
    the failure that a rejection reports. -/
theorem resume_gate {context data : Json} {left : List Nat} {report : Except TaskError Json}
    {s : StateName} {data' : Json} {left' : List Nat}
    (h : machine.resume .requestApproval requestApprovalTask context data left report =
      .running s data' left') :
    (s = .recordApproval ∧ ∃ result, report = .ok result) ∨
      (s = .handleRejection ∧ ∃ cause, report = .error ⟨"ApprovalRejected", cause⟩) := by
  cases report with
  | ok result =>
      rcases machine.complete_cases .requestApproval requestApprovalTask context data result with
        ⟨_, heq⟩ | ⟨d, _, ⟨_, heq⟩ | ⟨s', hnext, heq⟩⟩
      · rw [Machine.resume, heq] at h
        cases h
      · rw [Machine.resume, heq] at h
        cases h
      · obtain rfl : s' = .recordApproval := (Option.some.inj hnext).symm
        rw [Machine.resume, heq] at h
        injection h with hs
        exact .inl ⟨hs.symm, result, rfl⟩
  | error err =>
      rcases machine.fault_cases .requestApproval requestApprovalTask data left err with
        ⟨i, hidx, _, _⟩ | ⟨c, hc, hcatches, d, _, heq⟩ | ⟨err', heq⟩
      · simp [requestApprovalTask] at hidx
      · rw [Machine.resume, heq] at h
        simp only [requestApprovalTask, List.mem_cons, List.not_mem_nil, or_false] at hc
        rcases hc with rfl | rfl | rfl
        · injection h with hs
          have herror : err.error = "ApprovalRejected" := by
            simpa [catches] using hcatches
          exact .inr ⟨hs.symm, err.cause, by rw [← herror]⟩
        · cases h
        · cases h
      · rw [Machine.resume, heq] at h
        cases h

/-- Behind the gate an execution stays in its state, to try again, or ends. -/
theorem resume_behind_gate {s : StateName} {t : Task StateName Function}
    (hs : s = .recordApproval ∨ s = .handleRejection) (ht : machine.states s = .task t)
    {context data : Json} {left : List Nat} {report : Except TaskError Json} {s' : StateName}
    {data' : Json} {left' : List Nat}
    (h : machine.resume s t context data left report = .running s' data' left') : s' = s := by
  cases report with
  | ok result =>
      rcases machine.complete_cases s t context data result with
        ⟨_, heq⟩ | ⟨d, _, ⟨_, heq⟩ | ⟨next, hnext, heq⟩⟩
      · rw [Machine.resume, heq] at h
        cases h
      · rw [Machine.resume, heq] at h
        cases h
      · rw [Machine.resume, heq] at h
        rcases hs with rfl | rfl <;> cases ht <;> cases hnext <;> cases h
  | error err =>
      rcases machine.fault_cases s t data left err with
        ⟨i, _, _, heq⟩ | ⟨c, hc, _⟩ | ⟨err', heq⟩
      · rw [Machine.resume, heq] at h
        injection h with hs
        exact hs.symm
      · rcases hs with rfl | rfl <;> cases ht <;> cases hc
      · rw [Machine.resume, heq] at h
        cases h

theorem silent_onApproved {event : Json} : (onApproved event).Silent := by
  refine silent_ofExcept.bind fun request => silent_ofExcept.bind fun requestId => ?_
  refine silent_ofExcept.bind fun decision => silent_ofExcept.bind fun approvedBy => ?_
  exact silent_ofExcept.bind fun decidedAt => trivial

theorem silent_onRejected {py : Python} {event : Json} : (onRejected py event).Silent := by
  refine silent_ofExcept.bind fun request => silent_ofExcept.bind fun requestId => ?_
  refine silent_ofExcept.bind fun decision => silent_ofExcept.bind fun cause => ?_
  refine silent_ofExcept.bind fun detail => silent_ofExcept.bind fun rejectedBy => ?_
  exact silent_ofExcept.bind fun comment => trivial

/-! ## Steps -/

variable [DecidableEq ι]

inductive GatedStep (py : Python) (env : Env) (token : String) : Gated ι → Gated ι → Prop where
  | race {execution clicks clicks' invoked} (h : RaceStep py token clicks clicks') :
      GatedStep py env token ⟨execution, clicks, invoked⟩ ⟨execution, clicks', invoked⟩
  | resume {context data left report clicks invoked}
      (hreport : TokenReport (clicks.world.tasks token) report) :
      GatedStep py env token ⟨.running .requestApproval data left, clicks, invoked⟩
        ⟨machine.resume .requestApproval requestApprovalTask context data left report, clicks,
          invoked⟩
  | invoke {s data left clicks invoked execution' world' log} (hgate : s ≠ .requestApproval)
      (hstep : Workflow.Step (workflow py env) (fun _ => True)
        ⟨.running s data left, clicks.world, []⟩ ⟨execution', world', log⟩) :
      GatedStep py env token ⟨.running s data left, clicks, invoked⟩
        ⟨execution', { clicks with world := world' }, invoked ++ log.map fun inv => (inv, clicks)⟩

/-- A token that was used stays used. -/
theorem resumed_raceStep {clicks clicks' : Clicks ι} {result : TaskResult}
    (h : RaceStep py token clicks clicks')
    (hresumed : clicks.world.tasks token = some (.resumed result)) :
    clicks'.world.tasks token = some (.resumed result) := by
  cases h with
  | timeout hwaiting =>
      rw [hresumed] at hwaiting
      cases hwaiting
  | click hstep =>
      obtain ⟨_, hexec⟩ := hstep
      exact exec_tasks_settled hexec hresumed nofun

theorem passed_raceStep {clicks clicks' : Clicks ι} {s : StateName}
    (h : RaceStep py token clicks clicks') (hpassed : Passed token s clicks.world) :
    Passed token s clicks'.world := by
  rcases hpassed with ⟨rfl, output, hresumed⟩ | ⟨rfl, error, cause, hresumed⟩
  · exact .inl ⟨rfl, output, resumed_raceStep h hresumed⟩
  · exact .inr ⟨rfl, error, cause, resumed_raceStep h hresumed⟩

theorem tokenReport_rejected {task : Option TaskState} {cause : String}
    (h : TokenReport task (.error ⟨"ApprovalRejected", cause⟩)) :
    ∃ error cause, task = some (.resumed (.failure error cause)) := by
  generalize hreport : Except.error (⟨"ApprovalRejected", cause⟩ : TaskError) = report at h
  cases h with
  | success => cases hreport
  | failure => exact ⟨_, _, rfl⟩
  | timedOut => simp at hreport

/-- The gate lets an execution pass the way its token was used. -/
theorem passed_resume {context data : Json} {left : List Nat} {report : Except TaskError Json}
    {w : World} (hreport : TokenReport (w.tasks token) report) {s : StateName} {data' : Json}
    {left' : List Nat}
    (h : machine.resume .requestApproval requestApprovalTask context data left report =
      .running s data' left') : Passed token s w := by
  rcases resume_gate h with ⟨rfl, result, rfl⟩ | ⟨rfl, cause, rfl⟩
  · generalize htask : w.tasks token = task at hreport
    cases hreport with
    | success => exact .inl ⟨rfl, _, htask⟩
  · exact .inr ⟨rfl, tokenReport_rejected hreport⟩

/-- The handlers behind the gate leave the world as it is. -/
theorem invoke_behind_gate {s : StateName} {data : Json} {left : List Nat} {w world' : World}
    {execution' : Execution StateName} {log : List (Invocation StateName Op Ans)}
    (hs : s = .recordApproval ∨ s = .handleRejection)
    (hstep : Workflow.Step (workflow py env) (fun _ => True)
      ⟨.running s data left, w, []⟩ ⟨execution', world', log⟩) :
    world' = w ∧ (∀ inv ∈ log, inv.state = s) ∧
      ∀ s' data' left', execution' = .running s' data' left' → s' = s := by
  cases hstep with
  | pass hstate => rcases hs with rfl | rfl <;> cases hstate
  | passError hstate => rcases hs with rfl | rfl <;> cases hstate
  | route hroute => rcases hs with rfl | rfl <;> cases hroute
  | routeError hroute => rcases hs with rfl | rfl <;> cases hroute
  | eventError => exact ⟨rfl, by simp, nofun⟩
  | @attempt s t context data left world log event calls outcome world' report hstate hevent
      hattempt _ _ =>
      have hsilent : ((workflow py env).handler t.resource event).Silent := by
        rcases hs with rfl | rfl <;> cases hstate
        · exact silent_onApproved
        · exact silent_onRejected
      have hcalls := hsilent.calls hattempt.calls
      have heffects := hattempt.effects
      rw [hcalls, effects_nil] at heffects
      refine ⟨heffects, by simp, ?_⟩
      intro s' data' left' heq
      exact resume_behind_gate hs hstate heq

theorem following_step (hlink : ∀ i, EmailedLink requestId token (link i)) {g g' : Gated ι}
    (h : Following py link requestId token g) (hstep : GatedStep py env token g g') :
    Following py link requestId token g' := by
  cases hstep with
  | race hrace =>
      refine ⟨agreed_step hlink h.agreed hrace, ?_, h.invoked⟩
      intro s data left heq
      exact (h.passed s data left heq).imp_right (passed_raceStep hrace)
  | resume hreport =>
      refine ⟨h.agreed, ?_, h.invoked⟩
      intro s data left heq
      exact .inr (passed_resume hreport heq)
  | @invoke s data left clicks invoked execution' world' log hgate hstep =>
      have hpassed : Passed token s clicks.world :=
        (h.passed s data left rfl).resolve_left hgate
      have hs : s = .recordApproval ∨ s = .handleRejection :=
        hpassed.imp And.left And.left
      obtain ⟨rfl, hlog, hrunning⟩ := invoke_behind_gate hs hstep
      refine ⟨h.agreed, ?_, ?_⟩
      · intro s' data' left' heq
        rw [hrunning s' data' left' heq]
        exact .inr hpassed
      · intro made hmem
        rcases List.mem_append.mp hmem with hold | hnew
        · exact h.invoked made hold
        · obtain ⟨inv, hinv, rfl⟩ := List.mem_map.mp hnew
          rw [← hlog inv hinv] at hpassed
          exact ⟨h.agreed, hpassed⟩

/-- In every run, the handlers behind the gate find the decision in the record
    exactly when the click that resumed the execution has written it by then. -/
theorem sees_decision {w : World} (hemailed : Emailed requestId token w)
    (hlink : ∀ i, EmailedLink requestId token (link i)) {data : Json} {g : Gated ι}
    (hreach : ReflTransGen (GatedStep py env token) (Gated.start py link w data) g) :
    ∀ made ∈ g.invoked, SeesDecision requestId made ↔ Settled py link token made.2 := by
  have h : Following py link requestId token g :=
    Transition.invariant hreach (following_start hemailed data) fun _ _ => following_step hlink
  intro made hmem
  obtain ⟨hagreed, hpassed⟩ := h.invoked made hmem
  exact sees_iff_settled hlink hagreed hpassed

/-! ## One click and the state machine -/

/-- The single click of an approver. -/
def soleLink : Unit → HttpEvent := fun _ => clickOn "approve" "req-1" "token-1" "ada"

/-- That click after `n` operations. -/
def soleClick (n : Nat) : Clicks Unit :=
  (Pool.init emailedWorld fun i => decisionHandler .sample (soleLink i)).schedule
    (answer .sample) (List.replicate n ())

/-- The input of `on_approved` after the gate. -/
def approvedData : Json := .obj [("decision", .obj [])]

/-- What `on_approved` returns on it. -/
def approvedResult : Json := .obj [("request_id", .null), ("outcome", statusApproved),
  ("approved_by", .null), ("decided_at", .null)]

/-- The invocation of `on_approved` while the click stands after `n` operations. -/
def approvedInvocation (n : Nat) : Invocation StateName Op Ans × Clicks Unit :=
  (⟨.recordApproval, approvedData, [], .returned approvedResult⟩, soleClick n)

/-- The execution goes on as soon as the click has called back. -/
theorem approvedInvocation_reachable (env : Env) {n : Nat} {output : String}
    (hresumed : (soleClick n).world.tasks "token-1" = some (.resumed (.success output))) :
    ∃ g, ReflTransGen (GatedStep .sample env "token-1")
      (Gated.start .sample soleLink emailedWorld (.obj [])) g ∧ approvedInvocation n ∈ g.invoked := by
  have hrace : ReflTransGen (GatedStep .sample env "token-1")
      (Gated.start .sample soleLink emailedWorld (.obj []))
      ⟨.running .requestApproval (.obj []) [], soleClick n, []⟩ := by
    have hclicks : ReflTransGen (Pool.Step (exec .sample)) _ (soleClick n) :=
      Pool.schedule_reachable answer_exec (List.replicate n ()) _
    exact hclicks.lift (p := GatedStep .sample env "token-1")
      (fun clicks => ⟨.running .requestApproval (.obj []) [], clicks, []⟩)
      fun _ _ h => .race (.click h)
  have hreport : TokenReport ((soleClick n).world.tasks "token-1") (.ok (.obj [])) := by
    rw [hresumed]
    exact .success
  have hresume : GatedStep .sample env "token-1"
      ⟨.running .requestApproval (.obj []) [], soleClick n, []⟩
      ⟨machine.resume .requestApproval requestApprovalTask .null (.obj []) [] (.ok (.obj [])),
        soleClick n, []⟩ := .resume hreport
  have hevent : recordApprovalTask.event .null approvedData = some approvedData := rfl
  have hattempt : Program.Attempt (exec .sample) (onApproved approvedData) (soleClick n).world []
      (.returned approvedResult) (soleClick n).world := ⟨⟨_, .nil, rfl⟩, .nil⟩
  have hstep : Workflow.Step (workflow .sample env) (fun _ => True)
      ⟨.running .recordApproval approvedData [3], (soleClick n).world, []⟩
      ⟨machine.resume .recordApproval recordApprovalTask .null approvedData [3]
        (.ok (recordApprovalTask.wrap approvedResult)), (soleClick n).world,
        [(approvedInvocation n).1]⟩ :=
    .attempt (t := recordApprovalTask) rfl hevent hattempt trivial (.returned nofun)
  exact ⟨_, (hrace.tail hresume).tail (.invoke nofun hstep), List.mem_singleton_self _⟩

theorem soleClick_resumed : ∃ output,
    (soleClick 3).world.tasks "token-1" = some (.resumed (.success output)) ∧
      (soleClick 4).world.tasks "token-1" = some (.resumed (.success output)) :=
  ⟨_, rfl, rfl⟩

/-- The click has been answered by Step Functions and has not written yet. -/
theorem unseen_soleClick : ¬ SeesDecision "req-1" (approvedInvocation 3) := by
  intro h
  have hstatus : (soleClick 3).world.table.attr "req-1" ["status"] = some statusNotified := rfl
  have happroved := h.1 rfl
  rw [approvedInvocation, hstatus] at happroved
  revert happroved
  decide

theorem settled_soleClick : Settled .sample soleLink "token-1" (soleClick 4) := by
  intro i result _
  have hverdict : (soleLink ()).verdict .sample = statusApproved := by decide
  have hlast : ((soleClick 4).thread ()).events[3]? =
      some (⟨.recordDecision (.str (soleLink ()).requestId) statusApproved (soleLink ()).approver
        (soleLink ()).comment, .ok ()⟩ : Event Op Ans) := rfl
  rw [← hverdict] at hlast
  exact List.mem_of_getElem? hlast

theorem sees_decision_soleClick : SeesDecision "req-1" (approvedInvocation 4) := by
  obtain ⟨output, _, hresumed⟩ := soleClick_resumed
  obtain ⟨g, hreach, hmem⟩ := approvedInvocation_reachable sampleEnv hresumed
  exact (sees_decision emailed_emailedWorld (fun _ => ⟨rfl, rfl⟩) hreach _ hmem).mpr settled_soleClick

theorem sees_decision_counterexample :
    ¬ ∀ g, ReflTransGen (GatedStep .sample sampleEnv "token-1")
        (Gated.start .sample soleLink emailedWorld (.obj [])) g →
      ∀ made ∈ g.invoked, SeesDecision "req-1" made := by
  intro h
  obtain ⟨output, hresumed, _⟩ := soleClick_resumed
  obtain ⟨g, hreach, hmem⟩ := approvedInvocation_reachable sampleEnv hresumed
  exact unseen_soleClick (h g hreach _ hmem)

end ApprovalWorkflow
