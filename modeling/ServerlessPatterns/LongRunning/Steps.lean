-- SUMMARY: What a step of an execution can do in each state of the job machine, and what the handlers around the loop do to the record.
import ServerlessPatterns.LongRunning.Polls

/-!
# Steps of a job's execution

From the submission on, the state data carry the job that the last task reported.
-/

namespace LongRunning

open Asl Program

abbrev Config := Workflow.Config StateName Op Ans World
abbrev Attempted := Invocation StateName Op Ans
abbrev Step (py : Python) (env : Env) (reads : Reads) (allowed : Attempted → Prop) :
    Config → Config → Prop :=
  Workflow.Step (workflow py env reads) allowed

variable {py : Python} {env : Env} {reads : Reads} {allowed : Attempted → Prop} {k : String}
  {r : JobRecord} {event data report : Json} {left : List Nat} {w w' : World} {log : List Attempted}
  {calls : List (Program.Event Op Ans)} {outcome : Outcome Exc Json} {c' : Config}

/-! ## The handlers around the loop -/

/-- What `submit_job` does once it knows the id of the job. -/
def createJob (py : Python) (env : Env) (event jobId : Json) : Handler Json :=
  .ofExcept (simulation py (event.orElse (.obj []))) >>= fun simulated =>
    .ofExcept (Python.get (event.orElse (.obj [])) "payload") >>= fun payload =>
      .call (.create jobId simulated.1 simulated.2 (payload.orElse (.obj []))
        (if 0 < env.ttlDays py then some (env.ttlDays py * 24 * 60 * 60) else none)) fun answer =>
        .ofExcept answer >>= fun _ =>
          .ret (jobReport jobId statusRunning 0 false 0 (backoffSeconds py env 0))

theorem submitJob_eq : submitJob py env event =
    (.ofExcept (Python.get (event.orElse (.obj [])) "job_id") >>= fun given =>
      if given.truthy then createJob py env event given
      else .call (.newId "job") fun id => createJob py env event (.str id)) := by
  unfold submitJob
  congr

/-- What an attempt to submit comes to: nothing was written, or the job was created
    under one of the given ids and, if the attempt returned, reported. -/
inductive Submitted (py : Python) (env : Env) (reads : Reads) (event : Json) (ids : Json → Prop)
    (w : World) : Outcome Exc Json → World → Prop where
  | unwritten {outcome : Outcome Exc Json} (h : ∀ report, outcome ≠ .returned report) :
      Submitted py env reads event ids w outcome w
  | created {outcome : Outcome Exc Json} {w' : World} {jobId payload : Json} {n : Int} {fail : Bool}
      {ttl : Option Int} {answer : Except Exc Unit} (hid : ids jobId)
      (hsimulation : simulation py (event.orElse (.obj [])) = .ok (n, fail))
      (hcreate : exec py reads (.create jobId n fail payload ttl) w answer w')
      (h : ∀ report, outcome = .returned report → answer = .ok () ∧
        report = jobReport jobId statusRunning 0 false 0 (backoffSeconds py env 0)) :
      Submitted py env reads event ids w outcome w'

theorem createJob_attempt {jobId : Json} {ids : Json → Prop} (hid : ids jobId)
    (h : Attempt (exec py reads) (createJob py env event jobId) w calls outcome w') :
    Submitted py env reads event ids w outcome w' := by
  obtain ⟨hcalls, heffects⟩ := h
  have hraised : ∀ e, Calls (.raise e : Handler Json) calls outcome →
      Submitted py env reads event ids w outcome w' := by
    intro e hcalls
    obtain ⟨rfl, rfl | rfl⟩ := calls_raise.mp hcalls
    · rw [effects_nil] at heffects
      subst heffects
      exact .unwritten (by simp)
    · rw [effects_nil] at heffects
      subst heffects
      exact .unwritten (by simp)
  unfold createJob at hcalls
  cases hsimulation : simulation py (event.orElse (.obj [])) with
  | error e =>
      rw [hsimulation] at hcalls
      exact hraised e hcalls
  | ok simulated =>
      cases hpayload : Python.get (event.orElse (.obj [])) "payload" with
      | error e =>
          rw [hsimulation, hpayload] at hcalls
          exact hraised e hcalls
      | ok payload =>
          rw [hsimulation, hpayload] at hcalls
          simp only [ofExcept_ok, ret_bind] at hcalls
          rcases calls_call.mp hcalls with ⟨rfl, rfl⟩ | ⟨answer, rest, rfl, hrest⟩
          · rw [effects_nil] at heffects
            subst heffects
            exact .unwritten (by simp)
          obtain ⟨w₁, hcreate, hafter⟩ := effects_cons.mp heffects
          cases answer with
          | error e =>
              obtain ⟨rfl, houtcome⟩ := calls_raise.mp hrest
              rw [effects_nil] at hafter
              subst hafter
              refine .created hid hsimulation hcreate fun report hreturned => ?_
              rcases houtcome with heq | heq <;> cases heq.symm.trans hreturned
          | ok =>
              obtain ⟨rfl, houtcome⟩ := calls_ret.mp hrest
              rw [effects_nil] at hafter
              subst hafter
              refine .created hid hsimulation hcreate fun report hreturned => ⟨rfl, ?_⟩
              rcases houtcome with heq | heq
              · cases heq.symm.trans hreturned
                rfl
              · cases heq.symm.trans hreturned

theorem submit_attempt (h : Attempt (exec py reads) (submitJob py env event) w calls outcome w') :
    Submitted py env reads event (fun _ => True) w outcome w' := by
  rw [submitJob_eq] at h
  cases hgiven : Python.get (event.orElse (.obj [])) "job_id" with
  | error e =>
      rw [hgiven] at h
      obtain ⟨hcalls, heffects⟩ := h
      obtain ⟨rfl, houtcome⟩ := calls_raise.mp hcalls
      rw [effects_nil] at heffects
      subst heffects
      refine .unwritten fun report hreturned => ?_
      rcases houtcome with heq | heq <;> cases heq.symm.trans hreturned
  | ok given =>
      rw [hgiven, ofExcept_ok, ret_bind] at h
      split_ifs at h
      · exact createJob_attempt trivial h
      · obtain ⟨hcalls, heffects⟩ := h
        rcases calls_call.mp hcalls with ⟨rfl, rfl⟩ | ⟨id, rest, rfl, hrest⟩
        · rw [effects_nil] at heffects
          subst heffects
          exact .unwritten (by simp)
        · obtain ⟨w₁, ⟨rfl, _⟩, hafter⟩ := effects_cons.mp heffects
          exact createJob_attempt trivial ⟨hrest, hafter⟩

/-- A job id and a payload that the client can send. -/
def Sendable : (op : Op) → Ans op → Prop
  | .create jobId _ _ payload _, answer =>
    (∃ k, jobId = .str k ∧ k ≠ "") → payload.hasFloat = false → answer = .ok ()
  | .newId _, id => id ≠ ""
  | _, _ => True

theorem sendable_of_exec {op : Op} {answer : Ans op} (h : exec py reads op w answer w') :
    Sendable op answer := by
  cases op with
  | create jobId n fail payload ttl =>
      rintro ⟨k, rfl, hne⟩ hfloat
      obtain ⟨clock, rfl, _⟩ := h
      exact create_ok hne hfloat clock n fail ttl w.table
  | newId idPrefix =>
      obtain ⟨_, hex, hlength, rfl⟩ := h
      intro hempty
      have htotal := congrArg String.length hempty
      simp only [String.length_append, hlength, String.length_empty] at htotal
      omega
  | _ => trivial

/-- Nothing stops the creation of a job with a proper id and payload. -/
theorem createJob_meets {n : Int} {fail : Bool} {payload : Json} (hne : k ≠ "")
    (hsimulation : simulation py (event.orElse (.obj [])) = .ok (n, fail))
    (hpayload : Python.get (event.orElse (.obj [])) "payload" = .ok payload)
    (hfloat : payload.hasFloat = false) :
    (createJob py env event (.str k)).Meets (fun _ => True) Sendable (fun _ => False)
      fun _ => True := by
  have hsent : (payload.orElse (.obj [])).hasFloat = false := Json.hasFloat_orElse hfloat
  unfold createJob
  rw [hsimulation, hpayload]
  apply meets_call trivial
  intro answer hanswer
  rw [hanswer ⟨k, rfl, hne⟩ hsent]
  exact meets_ret trivial

theorem requestSignoff_meets (hid : jobIdOf event = .ok (.str k)) :
    (requestSignoff event).Meets (fun op => ∃ token, op = .attachToken (.str k) token)
      (fun _ _ => True) (fun _ => True) fun _ => True := by
  unfold requestSignoff
  apply meets_any.bind
  intro token _
  rw [hid]
  simp only [ofExcept_ok, ret_bind]
  split_ifs
  · exact meets_raise trivial
  · exact meets_raise trivial
  · apply meets_call ⟨token, rfl⟩
    intro answer _
    exact meets_any.bind fun _ _ => meets_ret trivial

theorem finalize_meets (hid : jobIdOf event = .ok (.str k)) :
    (finalize event).Meets (fun op => op = .setStatus (.str k) statusCompleted)
      (fun _ _ => True) (fun _ => True) fun _ => True := by
  unfold finalize
  rw [hid]
  simp only [ofExcept_ok, ret_bind]
  split_ifs
  · exact meets_raise trivial
  · apply meets_any.bind
    intro signoff _
    refine ⟨rfl, ?_⟩
    intro answer _
    apply meets_any.bind
    intro _ _
    exact meets_any.bind fun _ _ => meets_ret trivial

/-! ## The states -/

/-- The state data from the submission on. -/
def carrying (report : Json) : Json := .obj [("job", report)]

theorem jobIdOf_carrying {status : Json} {attempt progress next : Int} {exhausted : Bool}
    {jobId : Json} {rest : List (String × Json)} :
    jobIdOf (.obj (("job", jobReport jobId status attempt exhausted progress next) :: rest)) =
      .ok jobId := rfl

/-- An execution that does not go on. -/
def Ended (execution : Execution StateName) : Prop := ∀ s data left, execution ≠ .running s data left

theorem ended_failed {s : StateName} {err : TaskError} : Ended (.failed s err) := nofun

/-- An error of a task is retried, or it ends the execution. -/
theorem fault_ends {s : StateName} {t : Task StateName Function} {err : TaskError}
    (hstate : machine.states s = .task t) :
    (∃ left', machine.fault s t data left err = .running s data left') ∨
      Ended (machine.fault s t data left err) := by
  rcases machine.fault_cases s t data left err with
    ⟨i, _, _, heq⟩ | ⟨c, hc, _, data', _, heq⟩ | ⟨err', heq⟩
  · exact .inl ⟨_, heq⟩
  · right
    rw [heq]
    -- All catchers lead to states of failure.
    have hnext : c.next = .jobFailed ∨ c.next = .signoffTimedOut := by
      cases s <;> cases hstate <;> simp [submitJobTask, pollJobTask, jobTask, requestSignoffTask,
        finalizeTask] at hc <;> grind
    cases hnext with
    | inl h => rw [h]; exact ended_failed
    | inr h => rw [h]; exact ended_failed
  · rw [heq]
    exact .inr ended_failed

/-- An attempt at a task whose result replaces the state data: the next state gets
    what was reported, or the task is retried, or the execution ends. -/
theorem job_step {s next : StateName} {f : Function} (hstate : machine.states s = .task (jobTask f next))
    (h : Step py env reads allowed ⟨.running s data left, w, log⟩ c') :
    ∃ calls outcome w' execution,
      Attempt (exec py reads) (function py env f data) w calls outcome w' ∧
      allowed ⟨s, data, calls, outcome⟩ ∧
      c' = ⟨execution, w', log ++ [⟨s, data, calls, outcome⟩]⟩ ∧
      ((∃ report, outcome = .returned report ∧ execution = machine.enter next (carrying report)) ∨
      ((∀ report, outcome ≠ .returned report) ∧
        ((∃ left', execution = .running s data left') ∨ Ended execution))) := by
  obtain ⟨calls, outcome, w', execution, hattempt, hallowed, hc', hend⟩ :=
    Workflow.Step.invoked hstate (by simp [jobTask])
      (fun context => (rfl : (jobTask f next).event context data = some data)) h
  refine ⟨calls, outcome, w', execution, hattempt, hallowed, hc', ?_⟩
  rcases hend with ⟨context, report, rfl, rfl⟩ | ⟨hnot, err, rfl⟩
  · exact .inl ⟨report, rfl, rfl⟩
  · exact .inr ⟨hnot, fault_ends hstate⟩

/-- The wait leads on to the poll, unless there is nothing to wait for. -/
theorem wait_step (h : Step py env reads allowed ⟨.running .waitForJob data left, w, log⟩ c') :
    (∃ seconds, secondsAt ["job", "next_poll_seconds"] data = some seconds ∧
      c' = ⟨.running .pollJob data pollJobTask.freshRetries, w, log⟩) ∨
    (secondsAt ["job", "next_poll_seconds"] data = none ∧
      ∃ err, c' = ⟨.failed .waitForJob err, w, log⟩) := by
  have hroutes : (machine.states .waitForJob).route data =
      some ((secondsAt ["job", "next_poll_seconds"] data).map fun _ => .pollJob) := rfl
  cases h with
  | pass hstate => cases hstate
  | passError hstate => cases hstate
  | attempt hstate => cases hstate
  | eventError hstate => cases hstate
  | route hroute =>
      have heq := hroutes.symm.trans hroute
      rw [Option.some.injEq, Option.map_eq_some_iff] at heq
      obtain ⟨seconds, hseconds, rfl⟩ := heq
      exact .inl ⟨seconds, hseconds, rfl⟩
  | routeError hroute =>
      have heq := hroutes.symm.trans hroute
      rw [Option.some.injEq, Option.map_eq_none_iff] at heq
      exact .inr ⟨heq, _, rfl⟩

/-- The choice leads to where its rules say. -/
theorem evaluate_step (h : Step py env reads allowed ⟨.running .evaluateJob data left, w, log⟩ c') :
    (∃ next, choose data .waitForJob evaluateJobRules = some next ∧
      c' = ⟨machine.enter next data, w, log⟩) ∨
    (choose data .waitForJob evaluateJobRules = none ∧
      ∃ err, c' = ⟨.failed .evaluateJob err, w, log⟩) := by
  have hroutes : (machine.states .evaluateJob).route data =
      some (choose data .waitForJob evaluateJobRules) := rfl
  cases h with
  | pass hstate => cases hstate
  | passError hstate => cases hstate
  | attempt hstate => cases hstate
  | eventError hstate => cases hstate
  | route hroute =>
      have heq := hroutes.symm.trans hroute
      rw [Option.some.injEq] at heq
      exact .inl ⟨_, heq, rfl⟩
  | routeError hroute =>
      have heq := hroutes.symm.trans hroute
      rw [Option.some.injEq] at heq
      exact .inr ⟨heq, _, rfl⟩

/-- What `EvaluateJob` decides on a report. -/
theorem choose_report {jobId : Json} {status : String} {attempt progress next : Int} {exhausted : Bool} :
    choose (carrying (jobReport jobId (.str status) attempt exhausted progress next)) .waitForJob
      evaluateJobRules =
      some (if status = "SUCCEEDED" then .requestSignoff
        else if status = "FAILED" then .jobFailed
        else if exhausted then .jobTimedOut
        else .waitForJob) := by
  have hstatus : (carrying (jobReport jobId (.str status) attempt exhausted progress next)).get
      ["job", "status"] = some (.str status) := rfl
  have hexhausted : (carrying (jobReport jobId (.str status) attempt exhausted progress next)).get
      ["job", "exhausted"] = some (.bool exhausted) := rfl
  simp only [choose, evaluateJobRules, hstatus, hexhausted, Test.holds, Json.str.injEq,
    decide_eq_true_eq, Json.bool.injEq]
  split_ifs <;> rfl

/-- The gate is never retried: whatever is reported, the execution goes on to the last
    task with it, or it ends. -/
theorem signoff_resume (context report : Json) (left : List Nat) (result : Except TaskError Json) :
    (∃ v left', machine.resume .requestSignoff requestSignoffTask context (carrying report) left result =
      .running .finalize (.obj [("job", report), ("signoff", v)]) left') ∨
    Ended (machine.resume .requestSignoff requestSignoffTask context (carrying report) left result) := by
  cases result with
  | ok v => exact .inl ⟨v, _, rfl⟩
  | error err =>
      right
      simp only [Machine.resume]
      rcases machine.fault_cases .requestSignoff requestSignoffTask (carrying report) left err with
        ⟨i, hretry, _, _⟩ | ⟨c, hc, _, data', _, heq⟩ | ⟨err', heq⟩
      · cases hretry
      · have hnext : c.next = .jobFailed ∨ c.next = .signoffTimedOut := by
          simp [requestSignoffTask] at hc
          grind
        rw [heq]
        cases hnext with
        | inl h => rw [h]; exact ended_failed
        | inr h => rw [h]; exact ended_failed
      · rw [heq]
        exact ended_failed

/-- The event of the gate: the task token and the job. -/
theorem signoff_event {context event : Json}
    (h : requestSignoffTask.event context (carrying report) = some event) :
    ∃ token, event = .obj [("task_token", token), ("job", report)] := by
  have hbuilt : requestSignoffTask.event context (carrying report) =
      (context.get ["Task", "Token"]).map fun token => .obj [("task_token", token), ("job", report)] := by
    cases htoken : context.get ["Task", "Token"] <;>
      simp [Task.event, requestSignoffTask, Template.eval, Template.evalFields, htoken, carrying]
  rw [hbuilt, Option.map_eq_some_iff] at h
  obtain ⟨token, _, heq⟩ := h
  exact ⟨token, heq.symm⟩

theorem signoff_step
    (h : Step py env reads allowed ⟨.running .requestSignoff (carrying report) left, w, log⟩ c') :
    (∃ err, c' = ⟨.failed .requestSignoff err, w, log⟩) ∨
    ∃ token calls outcome w' execution,
      Attempt (exec py reads) (requestSignoff (.obj [("task_token", token), ("job", report)]))
        w calls outcome w' ∧
      c' = ⟨execution, w', log ++ [⟨.requestSignoff, .obj [("task_token", token), ("job", report)],
        calls, outcome⟩]⟩ ∧
      ((∃ result left', execution = .running .finalize (.obj [("job", report), ("signoff", result)]) left') ∨
        Ended execution) := by
  obtain ⟨context, ⟨_, rfl⟩ | ⟨event, calls, outcome, w', result, hevent, hattempt, _, _, rfl⟩⟩ :=
    Workflow.Step.task (rfl : machine.states .requestSignoff = .task requestSignoffTask) h
  · exact .inl ⟨_, rfl⟩
  · right
    obtain ⟨token, rfl⟩ := signoff_event hevent
    exact ⟨token, calls, outcome, w', _, hattempt, rfl, signoff_resume context report left result⟩

theorem finalize_ends {context result : Json} :
    Ended (machine.complete .finalize finalizeTask context data result) := by
  intro s data' left hrunning
  rcases machine.complete_cases .finalize finalizeTask context data result with
    ⟨_, heq⟩ | ⟨_, _, ⟨_, heq⟩ | ⟨_, hnext, _⟩⟩
  · cases heq.symm.trans hrunning
  · cases heq.symm.trans hrunning
  · cases hnext

/-- The last task ends the execution, or it is retried. -/
theorem finalize_step (h : Step py env reads allowed ⟨.running .finalize data left, w, log⟩ c') :
    ∃ calls outcome w' execution,
      Attempt (exec py reads) (finalize data) w calls outcome w' ∧
      c' = ⟨execution, w', log ++ [⟨.finalize, data, calls, outcome⟩]⟩ ∧
      ((∃ left', execution = .running .finalize data left') ∨ Ended execution) := by
  obtain ⟨calls, outcome, w', execution, hattempt, _, hc', hend⟩ :=
    Workflow.Step.invoked (rfl : machine.states .finalize = .task finalizeTask) (by decide)
      (fun context => (rfl : finalizeTask.event context data = some data)) h
  refine ⟨calls, outcome, w', execution, hattempt, hc', ?_⟩
  rcases hend with ⟨context, result, rfl, rfl⟩ | ⟨hnot, err, rfl⟩
  · exact .inr finalize_ends
  · exact fault_ends rfl

end LongRunning
