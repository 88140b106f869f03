-- SUMMARY: State machines whose tasks run programs against a shared world: configurations, steps with attempts that may fail at any point, and an executable scheduler.
import ServerlessPatterns.Library.Program
import ServerlessPatterns.Library.Python
import ServerlessPatterns.Library.StatesLanguage
import ServerlessPatterns.Library.Transition

/-!
# Workflows

One execution of a state machine together with the world its task handlers act
on. Attempts of one execution do not overlap here. An attempt may be reported as
failed at any point of its handler. The `allowed` predicate of a step relation
says which attempts are considered, so that a fault assumption is a predicate on
single attempts.
-/

open Asl

structure Workflow (σ ρ Op : Type) (Ans : Op → Type) (W : Type) where
  machine : Machine σ ρ
  handler : ρ → Json → Program Op Ans Exc Json
  exec : (op : Op) → W → Ans op → W → Prop

/-- One finished attempt: the state, the event its handler got, the operations
    it performed and how it ended. -/
structure Invocation (σ Op : Type) (Ans : Op → Type) where
  state : σ
  event : Json
  calls : List (Program.Event Op Ans)
  outcome : Program.Outcome Exc Json

namespace Workflow

variable {σ ρ Op W : Type} {Ans : Op → Type}

/-- The execution, the world, and the attempts so far, oldest first. -/
structure Config (σ Op : Type) (Ans : Op → Type) (W : Type) where
  execution : Execution σ
  world : W
  log : List (Invocation σ Op Ans)

/-- What Step Functions may be told about an attempt. With a task token it is
    the callback that reports, unless the function fails first; a time-out is
    among the errors a callback can be. -/
inductive Reported (t : Task σ ρ) : Program.Outcome Exc Json → Except TaskError Json → Prop where
  | returned {a} (h : t.integration ≠ .invokeWaitForTaskToken) :
      Reported t (.returned a) (.ok (t.wrap a))
  | raised {e} : Reported t (.raised e) (.error ⟨e.errorType, e.message⟩)
  | lost {err} : Reported t .lost (.error err)
  | callback {outcome report} (h : t.integration = .invokeWaitForTaskToken)
      (hraised : ∀ e, outcome ≠ .raised e) : Reported t outcome report

theorem Reported.ok {t : Task σ ρ} {a : Json} {report : Except TaskError Json}
    (h : Reported t (.returned a) report) (hreturn : t.integration ≠ .invokeWaitForTaskToken) :
    report = .ok (t.wrap a) := by
  cases h with
  | returned => rfl
  | callback htoken => exact absurd htoken hreturn

theorem Reported.error {t : Task σ ρ} {outcome : Program.Outcome Exc Json}
    {report : Except TaskError Json} (h : Reported t outcome report)
    (hreturn : t.integration ≠ .invokeWaitForTaskToken) (hnot : ∀ a, outcome ≠ .returned a) :
    ∃ err, report = .error err := by
  cases h with
  | returned => exact absurd rfl (hnot _)
  | raised => exact ⟨_, rfl⟩
  | lost => exact ⟨_, rfl⟩
  | callback htoken => exact absurd htoken hreturn

theorem Reported.error_eq {t : Task σ ρ} {e : Exc} {report : Except TaskError Json}
    (h : Reported t (.raised e) report) : report = .error ⟨e.errorType, e.message⟩ := by
  cases h with
  | raised => rfl
  | callback _ hraised => exact absurd rfl (hraised e)

inductive Step (wf : Workflow σ ρ Op Ans W) (allowed : Invocation σ Op Ans → Prop) :
    Config σ Op Ans W → Config σ Op Ans W → Prop where
  | pass {s result path next data left world log data'}
      (hstate : wf.machine.states s = .pass result path next)
      (hput : data.put path result = some data') :
      Step wf allowed ⟨.running s data left, world, log⟩ ⟨wf.machine.enter next data', world, log⟩
  | passError {s result path next data left world log}
      (hstate : wf.machine.states s = .pass result path next)
      (hput : data.put path result = none) :
      Step wf allowed ⟨.running s data left, world, log⟩ ⟨.runtimeError s, world, log⟩
  | route {s s' data left world log}
      (hroute : (wf.machine.states s).route data = some (some s')) :
      Step wf allowed ⟨.running s data left, world, log⟩ ⟨wf.machine.enter s' data, world, log⟩
  | routeError {s data left world log}
      (hroute : (wf.machine.states s).route data = some none) :
      Step wf allowed ⟨.running s data left, world, log⟩ ⟨.runtimeError s, world, log⟩
  | attempt {s t context data left world log event calls outcome world' report}
      (hstate : wf.machine.states s = .task t)
      (hevent : t.event context data = some event)
      (hattempt : Program.Attempt wf.exec (wf.handler t.resource event) world calls outcome world')
      (hallowed : allowed ⟨s, event, calls, outcome⟩)
      (hreport : Reported t outcome report) :
      Step wf allowed ⟨.running s data left, world, log⟩
        ⟨wf.machine.resume s t context data left report, world', log ++ [⟨s, event, calls, outcome⟩]⟩
  | eventError {s t context data left world log}
      (hstate : wf.machine.states s = .task t)
      (hevent : t.event context data = none) :
      Step wf allowed ⟨.running s data left, world, log⟩ ⟨.runtimeError s, world, log⟩

def init (wf : Workflow σ ρ Op Ans W) (input : Json) (world : W) : Config σ Op Ans W :=
  ⟨wf.machine.start input, world, []⟩

variable {wf : Workflow σ ρ Op Ans W} {allowed : Invocation σ Op Ans → Prop}

/-- An ended execution stays as it is. -/
theorem stuck_of_ended {c : Config σ Op Ans W}
    (h : ∀ s data left, c.execution ≠ .running s data left) :
    Transition.Stuck (Step wf allowed) c := by
  intro c' hstep
  cases hstep <;> exact h _ _ _ rfl

/-- Every attempt in the log of a reachable configuration was allowed. -/
theorem allowed_of_mem_log {input : Json} {world : W} {c : Config σ Op Ans W}
    (h : Relation.ReflTransGen (Step wf allowed) (wf.init input world) c) :
    ∀ inv ∈ c.log, allowed inv := by
  refine Transition.invariant (P := fun c => ∀ inv ∈ c.log, allowed inv) h ?_ ?_
  · intro inv hmem
    simp [init] at hmem
  · intro c c' hall hstep inv hmem
    cases hstep with
    | attempt _ _ _ hallowed _ =>
        rcases List.mem_append.mp hmem with hold | hnew
        · exact hall inv hold
        · rw [List.mem_singleton.mp hnew]
          exact hallowed
    | _ => exact hall inv hmem

/-! ## Steps at tasks -/

/-- A step at a task finds that a path does not fit, or it is an attempt that is
    reported on. -/
theorem Step.task {s : σ} {t : Task σ ρ} {data : Json} {left : List Nat} {world : W}
    {log : List (Invocation σ Op Ans)} {c' : Config σ Op Ans W}
    (hstate : wf.machine.states s = .task t)
    (h : Step wf allowed ⟨.running s data left, world, log⟩ c') :
    ∃ context, (t.event context data = none ∧ c' = ⟨.runtimeError s, world, log⟩) ∨
      ∃ event calls outcome world' report, t.event context data = some event ∧
        Program.Attempt wf.exec (wf.handler t.resource event) world calls outcome world' ∧
        allowed ⟨s, event, calls, outcome⟩ ∧ Reported t outcome report ∧
        c' = ⟨wf.machine.resume s t context data left report, world',
          log ++ [⟨s, event, calls, outcome⟩]⟩ := by
  cases h with
  | pass hpass _ => cases hstate.symm.trans hpass
  | passError hpass _ => cases hstate.symm.trans hpass
  | route hroute => rw [hstate] at hroute; cases hroute
  | routeError hroute => rw [hstate] at hroute; cases hroute
  | eventError htask hevent =>
      cases hstate.symm.trans htask
      exact ⟨_, .inl ⟨hevent, rfl⟩⟩
  | attempt htask hevent hattempt hallowed hreport =>
      cases hstate.symm.trans htask
      exact ⟨_, .inr ⟨_, _, _, _, _, hevent, hattempt, hallowed, hreport, rfl⟩⟩

/-- A step at a task that is not resumed by a callback and whose event is known:
    its result is delivered, or some error is. -/
theorem Step.invoked {s : σ} {t : Task σ ρ} {data event : Json} {left : List Nat} {world : W}
    {log : List (Invocation σ Op Ans)} {c' : Config σ Op Ans W}
    (hstate : wf.machine.states s = .task t) (hreturn : t.integration ≠ .invokeWaitForTaskToken)
    (hevent : ∀ context, t.event context data = some event)
    (h : Step wf allowed ⟨.running s data left, world, log⟩ c') :
    ∃ calls outcome world' execution,
      Program.Attempt wf.exec (wf.handler t.resource event) world calls outcome world' ∧
      allowed ⟨s, event, calls, outcome⟩ ∧
      c' = ⟨execution, world', log ++ [⟨s, event, calls, outcome⟩]⟩ ∧
      ((∃ context result, outcome = .returned result ∧
        execution = wf.machine.complete s t context data (t.wrap result)) ∨
      ((∀ result, outcome ≠ .returned result) ∧
        ∃ err, execution = wf.machine.fault s t data left err)) := by
  obtain ⟨context, ⟨hnone, _⟩ | ⟨event', calls, outcome, world', report, hsome, hattempt, hallowed,
    hreport, rfl⟩⟩ := h.task hstate
  · rw [hevent] at hnone
    cases hnone
  · rw [hevent, Option.some.injEq] at hsome
    subst hsome
    refine ⟨calls, outcome, world', _, hattempt, hallowed, rfl, ?_⟩
    cases hreport with
    | returned => exact .inl ⟨context, _, rfl, rfl⟩
    | raised => exact .inr ⟨nofun, _, rfl⟩
    | lost => exact .inr ⟨nofun, _, rfl⟩
    | callback htoken _ => exact absurd htoken hreturn

/-! ## Steps at direct tasks -/

/-- How an attempt at a direct task leads on: with its result when it returned,
    and else with some error. -/
inductive Concludes (m : Machine σ ρ) (s : σ) (t : Task σ ρ) (data : Json) (left : List Nat) :
    Program.Outcome Exc Json → Execution σ → Prop where
  | returned {result context} :
      Concludes m s t data left (.returned result) (m.complete s t context data result)
  | failed {outcome err} (hnot : ∀ result, outcome ≠ .returned result) :
      Concludes m s t data left outcome (m.fault s t data left err)

section

variable {m : Machine σ ρ} {s : σ} {t : Task σ ρ} {data : Json} {left : List Nat}
  {outcome : Program.Outcome Exc Json} {execution : Execution σ}

theorem Concludes.complete {result : Json}
    (h : Concludes m s t data left (.returned result) execution) :
    ∃ context, execution = m.complete s t context data result := by
  cases h with
  | returned => exact ⟨_, rfl⟩
  | failed hnot => exact absurd rfl (hnot result)

theorem Concludes.fault (h : Concludes m s t data left outcome execution)
    (hnot : ∀ result, outcome ≠ .returned result) :
    ∃ err, execution = m.fault s t data left err := by
  cases h with
  | returned => exact absurd rfl (hnot _)
  | failed => exact ⟨_, rfl⟩

end

/-- A step at a direct task is an attempt on the state data. Its result is
    delivered, or some error is. -/
theorem Step.direct {s : σ} {t : Task σ ρ} {data : Json} {left : List Nat} {world : W}
    {log : List (Invocation σ Op Ans)} {c' : Config σ Op Ans W}
    (hstate : wf.machine.states s = .task t) (hdirect : t.Direct)
    (h : Step wf allowed ⟨.running s data left, world, log⟩ c') :
    ∃ calls outcome world' execution,
      Program.Attempt wf.exec (wf.handler t.resource data) world calls outcome world' ∧
      allowed ⟨s, data, calls, outcome⟩ ∧
      c' = ⟨execution, world', log ++ [⟨s, data, calls, outcome⟩]⟩ ∧
      Concludes wf.machine s t data left outcome execution := by
  have hreturn : t.integration ≠ .invokeWaitForTaskToken := by
    rw [hdirect.integration]
    decide
  obtain ⟨calls, outcome, world', execution, hattempt, hallowed, hc', hend⟩ :=
    h.invoked hstate hreturn fun context => hdirect.event
  refine ⟨calls, outcome, world', execution, hattempt, hallowed, hc', ?_⟩
  rcases hend with ⟨context, result, rfl, rfl⟩ | ⟨hnot, err, rfl⟩
  · rw [hdirect.wrap]
    exact .returned
  · exact .failed hnot

/-- A step at a direct task is an attempt on the state data, and the machine goes on with
    the report of it. -/
theorem Step.reported {s : σ} {t : Task σ ρ} {data : Json} {left : List Nat} {world : W}
    {log : List (Invocation σ Op Ans)} {c' : Config σ Op Ans W}
    (hstate : wf.machine.states s = .task t) (hdirect : t.Direct)
    (h : Step wf allowed ⟨.running s data left, world, log⟩ c') :
    ∃ context calls outcome world' report,
      Program.Attempt wf.exec (wf.handler t.resource data) world calls outcome world' ∧
      allowed ⟨s, data, calls, outcome⟩ ∧ Reported t outcome report ∧
      c' = ⟨wf.machine.resume s t context data left report, world',
        log ++ [⟨s, data, calls, outcome⟩]⟩ := by
  obtain ⟨context, ⟨hnone, _⟩ | ⟨event, calls, outcome, world', report, hsome, hattempt, hallowed,
    hreport, hc'⟩⟩ := h.task hstate
  · rw [hdirect.event] at hnone
    cases hnone
  · rw [hdirect.event, Option.some.injEq] at hsome
    subst hsome
    exact ⟨context, calls, outcome, world', report, hattempt, hallowed, hreport, hc'⟩

/-! ## Data that are left alone -/

/-- No state writes to where a path reads. -/
structure LeavesAlone (m : Machine σ ρ) (path : Json.Path) : Prop where
  pass : ∀ s result resultPath next, m.states s = .pass result resultPath next → resultPath.Apart path
  task : ∀ s t, m.states s = .task t → t.resultPath.Apart path
  catcher : ∀ s t, m.states s = .task t → ∀ c ∈ t.catchers, c.resultPath.Apart path

theorem enter_running {m : Machine σ ρ} {s s' : σ} {data data' : Json} {left : List Nat}
    (h : m.enter s data = .running s' data' left) : data' = data := by
  unfold Machine.enter at h
  split at h <;> cases h <;> rfl

theorem output_get {t : Task σ ρ} {context data data' result : Json} {path : Json.Path}
    (h : t.output context data result = some data') (hapart : t.resultPath.Apart path) :
    data'.get path = data.get path := by
  unfold Task.output at h
  split at h
  · exact Json.get_put_apart h hapart
  · obtain ⟨selected, _, hput⟩ := Option.bind_eq_some_iff.mp h
    exact Json.get_put_apart hput hapart

/-- What is left alone reads as before the step. -/
theorem Step.get_kept {path : Json.Path} (hm : LeavesAlone wf.machine path) {c c' : Config σ Op Ans W}
    (h : Step wf allowed c c') {s' : σ} {data' : Json} {left' : List Nat}
    (hat : c'.execution = .running s' data' left') :
    ∃ s data left, c.execution = .running s data left ∧ data'.get path = data.get path := by
  cases h with
  | pass hstate hput =>
      obtain rfl := enter_running hat
      exact ⟨_, _, _, rfl, Json.get_put_apart hput (hm.pass _ _ _ _ hstate)⟩
  | passError => cases hat
  | route =>
      obtain rfl := enter_running hat
      exact ⟨_, _, _, rfl, rfl⟩
  | routeError => cases hat
  | eventError => cases hat
  | @attempt s t context data left _ _ _ _ _ _ report hstate _ _ _ _ =>
      refine ⟨s, data, left, rfl, ?_⟩
      dsimp only at hat
      cases report with
      | ok result =>
          rw [Machine.resume] at hat
          rcases wf.machine.complete_cases s t context data result with
            ⟨_, heq⟩ | ⟨data'', hout, ⟨_, heq⟩ | ⟨next, _, heq⟩⟩
          · cases heq.symm.trans hat
          · cases heq.symm.trans hat
          · obtain rfl := enter_running (heq.symm.trans hat)
            exact output_get hout (hm.task s t hstate)
      | error err =>
          rw [Machine.resume] at hat
          rcases wf.machine.fault_cases s t data left err with
            ⟨_, _, _, heq⟩ | ⟨c, hc, _, data'', hput, heq⟩ | ⟨_, heq⟩
          · cases heq.symm.trans hat
            rfl
          · obtain rfl := enter_running (heq.symm.trans hat)
            exact Json.get_put_apart hput (hm.catcher s t hstate c hc)
          · cases heq.symm.trans hat

/-! ## Logs -/

/-- The states whose attempts returned, in the order they did. -/
def returns (log : List (Invocation σ Op Ans)) : List σ :=
  (log.filter fun inv => inv.outcome.isReturned).map (·.state)

theorem returns_append {log : List (Invocation σ Op Ans)} {inv : Invocation σ Op Ans} {result : Json}
    (h : inv.outcome = .returned result) : returns (log ++ [inv]) = returns log ++ [inv.state] := by
  simp [returns, List.filter_append, h, Program.Outcome.isReturned]

theorem returns_append_failed {log : List (Invocation σ Op Ans)} {inv : Invocation σ Op Ans}
    (h : ∀ result, inv.outcome ≠ .returned result) : returns (log ++ [inv]) = returns log := by
  have hfailed : inv.outcome.isReturned = false := by
    cases houtcome : inv.outcome with
    | returned result => exact absurd houtcome (h result)
    | _ => rfl
  simp [returns, List.filter_append, hfailed]

theorem mem_returns {log : List (Invocation σ Op Ans)} {s : σ} :
    s ∈ returns log ↔ ∃ inv ∈ log, inv.state = s ∧ ∃ result, inv.outcome = .returned result := by
  simp only [returns, List.mem_map, List.mem_filter, Program.Outcome.isReturned_iff]
  constructor
  · rintro ⟨inv, ⟨hmem, hreturned⟩, hstate⟩
    exact ⟨inv, hmem, hstate, hreturned⟩
  · rintro ⟨inv, hmem, hstate, hreturned⟩
    exact ⟨inv, ⟨hmem, hreturned⟩, hstate⟩

/-- How many attempts of a state have failed. -/
def failures [DecidableEq σ] (log : List (Invocation σ Op Ans)) (s : σ) : Nat :=
  log.countP fun inv => decide (inv.state = s) && !inv.outcome.isReturned

section

variable [DecidableEq σ] {log : List (Invocation σ Op Ans)} {inv : Invocation σ Op Ans} {s : σ}

theorem failures_append_failed (hstate : inv.state = s)
    (h : ∀ result, inv.outcome ≠ .returned result) :
    failures (log ++ [inv]) s = failures log s + 1 := by
  have hfailed : inv.outcome.isReturned = false := by
    cases houtcome : inv.outcome with
    | returned result => exact absurd houtcome (h result)
    | _ => rfl
  simp [failures, List.countP_append, hstate, hfailed]

theorem failures_append_returned {result : Json} (h : inv.outcome = .returned result) :
    failures (log ++ [inv]) s = failures log s := by
  simp [failures, List.countP_append, h, Program.Outcome.isReturned]

theorem failures_eq_zero (h : ∀ inv ∈ log, inv.state ≠ s) : failures log s = 0 := by
  unfold failures
  rw [List.countP_eq_zero]
  intro inv hmem
  simp [h inv hmem]

end

/-! ## Scheduling -/

/-- What the environment does with the next attempt: the context object of the
    task, where the attempt is given up, the error that is then reported, and
    the callback that arrives for a task token. -/
structure Fate where
  context : Json
  cut : Option Nat
  err : TaskError
  callback : Except TaskError Json

/-- An attempt that runs to its end, with a context of no use. -/
def Fate.smooth : Fate := ⟨.null, none, ⟨"", ""⟩, .ok .null⟩

/-- An attempt given up after `n` operations and reported with the given error. -/
def Fate.lostAfter (n : Nat) (error : String) : Fate := ⟨.null, some n, ⟨error, ""⟩, .ok .null⟩

def Fate.report (fate : Fate) (t : Task σ ρ) : Program.Outcome Exc Json → Except TaskError Json
  | .returned a => if t.integration = .invokeWaitForTaskToken then fate.callback else .ok (t.wrap a)
  | .raised e => .error ⟨e.errorType, e.message⟩
  | .lost => .error fate.err

theorem Fate.report_reported {fate : Fate} {t : Task σ ρ} {outcome : Program.Outcome Exc Json} :
    Reported t outcome (fate.report t outcome) := by
  cases outcome with
  | returned a =>
      by_cases h : t.integration = .invokeWaitForTaskToken
      · exact .callback h (by simp)
      · simpa [Fate.report, h] using Reported.returned (t := t) (a := a) h
  | raised e => exact .raised
  | lost => exact .lost

/-- Take the step that a fate describes, in a world of functions. -/
def advance (wf : Workflow σ ρ Op Ans W) (answer : (op : Op) → W → Ans op × W) (fate : Fate)
    (c : Config σ Op Ans W) : Option (Config σ Op Ans W) :=
  match c.execution with
  | .running s data left =>
    match wf.machine.states s with
    | .pass result path next =>
      match data.put path result with
      | none => some { c with execution := .runtimeError s }
      | some data' => some { c with execution := wf.machine.enter next data' }
    | .task t =>
      match t.event fate.context data with
      | none => some { c with execution := .runtimeError s }
      | some event =>
        let (calls, outcome, world') := (wf.handler t.resource event).run answer fate.cut c.world
        some ⟨wf.machine.resume s t fate.context data left (fate.report t outcome), world',
          c.log ++ [⟨s, event, calls, outcome⟩]⟩
    | .wait path next =>
      match secondsAt path data with
      | none => some { c with execution := .runtimeError s }
      | some _ => some { c with execution := wf.machine.enter next data }
    | .choice rules fallback =>
      match choose data fallback rules with
      | none => some { c with execution := .runtimeError s }
      | some next => some { c with execution := wf.machine.enter next data }
    | .succeed | .fail .. => none
  | _ => none

theorem advance_step {answer : (op : Op) → W → Ans op × W}
    (hanswer : ∀ op w, wf.exec op w (answer op w).1 (answer op w).2) {fate : Fate}
    {c c' : Config σ Op Ans W} (h : wf.advance answer fate c = some c')
    (hallowed : ∀ inv, c'.log = c.log ++ [inv] → allowed inv) : Step wf allowed c c' := by
  obtain ⟨execution, world, log⟩ := c
  cases execution with
  | running s data left =>
      cases hs : wf.machine.states s with
      | pass result path next =>
          cases hput : data.put path result with
          | none =>
              simp only [advance, hs, hput, Option.some.injEq] at h
              exact h ▸ .passError hs hput
          | some data' =>
              simp only [advance, hs, hput, Option.some.injEq] at h
              exact h ▸ .pass hs hput
      | wait path next =>
          have hroute : (wf.machine.states s).route data = some ((secondsAt path data).map fun _ => next) := by
            rw [hs]
            rfl
          cases hseconds : secondsAt path data with
          | none =>
              simp only [advance, hs, hseconds, Option.some.injEq] at h
              rw [hseconds] at hroute
              exact h ▸ .routeError hroute
          | some seconds =>
              simp only [advance, hs, hseconds, Option.some.injEq] at h
              rw [hseconds] at hroute
              exact h ▸ .route hroute
      | choice rules fallback =>
          have hroute : (wf.machine.states s).route data = some (choose data fallback rules) := by
            rw [hs]
            rfl
          cases hchoose : choose data fallback rules with
          | none =>
              simp only [advance, hs, hchoose, Option.some.injEq] at h
              rw [hchoose] at hroute
              exact h ▸ .routeError hroute
          | some next =>
              simp only [advance, hs, hchoose, Option.some.injEq] at h
              rw [hchoose] at hroute
              exact h ▸ .route hroute
      | task t =>
          cases hevent : t.event fate.context data with
          | none =>
              simp only [advance, hs, hevent, Option.some.injEq] at h
              exact h ▸ .eventError hs hevent
          | some event =>
              simp only [advance, hs, hevent, Option.some.injEq] at h
              subst h
              exact .attempt hs hevent (Program.run_attempt hanswer _ _ _) (hallowed _ rfl)
                Fate.report_reported
      | succeed => simp [advance, hs] at h
      | fail error cause => simp [advance, hs] at h
  | succeeded s data => simp [advance] at h
  | failed s err => simp [advance] at h

theorem stuck_of_advance_none {answer : (op : Op) → W → Ans op × W} {fate : Fate}
    {c : Config σ Op Ans W} (h : wf.advance answer fate c = none) :
    Transition.Stuck (Step wf allowed) c := by
  intro c' hstep
  cases hstep with
  | pass hstate hput => simp [advance, hstate, hput] at h
  | passError hstate hput => simp [advance, hstate, hput] at h
  | @route s _ data _ _ _ hroute =>
      cases hs : wf.machine.states s with
      | wait path next => cases hseconds : secondsAt path data <;> simp [advance, hs, hseconds] at h
      | choice rules fallback =>
          cases hchoose : choose data fallback rules <;> simp [advance, hs, hchoose] at h
      | _ => rw [hs] at hroute; cases hroute
  | @routeError s data _ _ _ hroute =>
      cases hs : wf.machine.states s with
      | wait path next => cases hseconds : secondsAt path data <;> simp [advance, hs, hseconds] at h
      | choice rules fallback =>
          cases hchoose : choose data fallback rules <;> simp [advance, hs, hchoose] at h
      | _ => rw [hs] at hroute; cases hroute
  | @attempt s t context data left world log event calls outcome world' report hstate hevent _ _ _ =>
      cases hfate : t.event fate.context data <;> simp [advance, hstate, hfate] at h
  | @eventError s t context data left world log hstate hevent =>
      cases hfate : t.event fate.context data <;> simp [advance, hstate, hfate] at h

/-- An execution in a task can go on when attempts cut at some point are allowed. -/
theorem exists_step {answer : (op : Op) → W → Ans op × W}
    (hanswer : ∀ op w, wf.exec op w (answer op w).1 (answer op w).2) (fate : Fate)
    (hallowed : ∀ s event (p : Program Op Ans Exc Json) w,
      allowed ⟨s, event, (p.run answer fate.cut w).1, (p.run answer fate.cut w).2.1⟩)
    {s : σ} {t : Task σ ρ} (hstate : wf.machine.states s = .task t) (data : Json) (left : List Nat)
    (world : W) (log : List (Invocation σ Op Ans)) :
    ∃ c', Step wf allowed ⟨.running s data left, world, log⟩ c' := by
  cases hevent : t.event fate.context data with
  | none => exact ⟨_, .eventError hstate hevent⟩
  | some event =>
      have hrun := Program.run_attempt hanswer (wf.handler t.resource event) fate.cut world
      exact ⟨_, .attempt hstate hevent hrun (hallowed _ _ _ _) fate.report_reported⟩

/-- Where an execution stands after `n` steps, with the environment doing what
    `fate` says. -/
def trajectory (wf : Workflow σ ρ Op Ans W) (answer : (op : Op) → W → Ans op × W)
    (fate : Config σ Op Ans W → Fate) (c : Config σ Op Ans W) (n : Nat) : Config σ Op Ans W :=
  (fun c => (wf.advance answer (fate c) c).getD c)^[n] c

theorem trajectory_succ {answer : (op : Op) → W → Ans op × W} {fate : Config σ Op Ans W → Fate}
    {c : Config σ Op Ans W} {n : Nat} :
    wf.trajectory answer fate c (n + 1) =
      (wf.advance answer (fate (wf.trajectory answer fate c n))
        (wf.trajectory answer fate c n)).getD (wf.trajectory answer fate c n) :=
  Function.iterate_succ_apply' ..

/-- A trajectory that has come to its end stays there. -/
theorem trajectory_ended {answer : (op : Op) → W → Ans op × W} {fate : Config σ Op Ans W → Fate}
    {c : Config σ Op Ans W} {k : Nat}
    (hend : wf.advance answer (fate (wf.trajectory answer fate c k))
      (wf.trajectory answer fate c k) = none) {m : Nat} (hm : k ≤ m) :
    wf.trajectory answer fate c m = wf.trajectory answer fate c k := by
  induction m, hm using Nat.le_induction with
  | base => rfl
  | succ m _ ih => rw [trajectory_succ, ih, hend, Option.getD_none]

/-- A trajectory that has come to its end after `k` steps is a maximal run, when
    the attempts on it are allowed. -/
def scheduled (answer : (op : Op) → W → Ans op × W)
    (hanswer : ∀ op w, wf.exec op w (answer op w).1 (answer op w).2)
    (fate : Config σ Op Ans W → Fate) (c : Config σ Op Ans W) (k : Nat)
    (hallowed : ∀ n < k, ∀ inv ∈ (wf.trajectory answer fate c (n + 1)).log, allowed inv)
    (hend : wf.advance answer (fate (wf.trajectory answer fate c k))
      (wf.trajectory answer fate c k) = none) :
    Transition.MaximalRun (Step wf allowed) c where
  state := wf.trajectory answer fate c
  start := rfl
  next n := by
    cases hadvance : wf.advance answer (fate (wf.trajectory answer fate c n))
        (wf.trajectory answer fate c n) with
    | none =>
        refine .inr ⟨stuck_of_advance_none hadvance, ?_⟩
        rw [trajectory_succ, hadvance, Option.getD_none]
    | some c' =>
        have hnext : wf.trajectory answer fate c (n + 1) = c' := by
          rw [trajectory_succ, hadvance, Option.getD_some]
        by_cases hn : n < k
        · refine .inl (hnext ▸ advance_step hanswer hadvance fun inv hlog => ?_)
          apply hallowed n hn inv
          rw [hnext, hlog]
          exact List.mem_append_right _ List.mem_cons_self
        · rw [trajectory_ended hend (Nat.le_of_not_lt hn), hend] at hadvance
          cases hadvance

/-! ## Termination -/

/-- All transitions of the machine lead to states of a lower rank. -/
structure Descends (m : Machine σ ρ) (rank : σ → Nat) : Prop where
  pass : ∀ s result path next, m.states s = .pass result path next → rank next < rank s
  route : ∀ s s' data, (m.states s).route data = some (some s') → rank s' < rank s
  next : ∀ s t, m.states s = .task t → ∀ s' ∈ t.next, rank s' < rank s
  catcher : ∀ s t, m.states s = .task t → ∀ c ∈ t.catchers, rank c.next < rank s

/-- The states that may still come, and the retries left in this one. -/
def remaining (rank : σ → Nat) (budget : Nat) : Execution σ → Nat
  | .running s _ left => rank s * (budget + 1) + left.sum + 1
  | _ => 0

theorem sum_modify_lt {left : List Nat} {i : Nat} (h : 0 < left.getD i 0) :
    (left.modify i (· - 1)).sum < left.sum := by
  induction left generalizing i with
  | nil => simp at h
  | cons n left ih =>
      cases i with
      | zero =>
          simp only [List.getD_cons_zero] at h
          simp only [List.modify_zero_cons, List.sum_cons]
          omega
      | succ i =>
          simp only [List.getD_cons_succ] at h
          simp only [List.modify_succ_cons, List.sum_cons]
          have := ih h
          omega

theorem remaining_enter_lt {m : Machine σ ρ} {rank : σ → Nat} {budget : Nat} {s s' : σ} {data data' : Json}
    {left : List Nat} (hbudget : ∀ s t, m.states s = .task t → t.freshRetries.sum ≤ budget)
    (h : rank s' < rank s) :
    remaining rank budget (m.enter s' data') < remaining rank budget (.running s data left) := by
  have hrank : (rank s' + 1) * (budget + 1) ≤ rank s * (budget + 1) := Nat.mul_le_mul_right _ h
  rw [Nat.add_mul] at hrank
  cases hs' : m.states s' with
  | pass result path next =>
      simp only [Machine.enter, hs', remaining, List.sum_nil]
      omega
  | wait path next =>
      simp only [Machine.enter, hs', remaining, List.sum_nil]
      omega
  | choice rules fallback =>
      simp only [Machine.enter, hs', remaining, List.sum_nil]
      omega
  | task t =>
      have := hbudget s' t hs'
      simp only [Machine.enter, hs', remaining]
      omega
  | succeed =>
      simp only [Machine.enter, hs', remaining]
      omega
  | fail error cause =>
      simp only [Machine.enter, hs', remaining]
      omega

/-- The report of an attempt uses up a retry or a state, when the machine has no cycles. -/
theorem remaining_resume {m : Machine σ ρ} {rank : σ → Nat} {budget : Nat} (hdescends : Descends m rank)
    (hbudget : ∀ s t, m.states s = .task t → t.freshRetries.sum ≤ budget) {s : σ} {t : Task σ ρ}
    (hstate : m.states s = .task t) (context data : Json) (left : List Nat)
    (report : Except TaskError Json) :
    remaining rank budget (m.resume s t context data left report) <
      remaining rank budget (.running s data left) := by
  cases report with
  | ok result =>
      rcases m.complete_cases s t context data result with
        ⟨_, heq⟩ | ⟨data', _, ⟨_, heq⟩ | ⟨s', hnext, heq⟩⟩
      · simp [Machine.resume, heq, remaining, Execution.runtimeError]
      · simp [Machine.resume, heq, remaining]
      · simp only [Machine.resume, heq]
        exact remaining_enter_lt hbudget (hdescends.next s t hstate s' hnext)
  | error err =>
      rcases m.fault_cases s t data left err with
        ⟨i, _, hleft, heq⟩ | ⟨c, hc, _, data', _, heq⟩ | ⟨err', heq⟩
      · have := sum_modify_lt hleft
        simp only [Machine.resume, heq, remaining]
        omega
      · simp only [Machine.resume, heq]
        exact remaining_enter_lt hbudget (hdescends.catcher s t hstate c hc)
      · simp [Machine.resume, heq, remaining]

/-- Every step of a machine without cycles uses up a retry or a state. -/
theorem remaining_step {rank : σ → Nat} {budget : Nat} (hdescends : Descends wf.machine rank)
    (hbudget : ∀ s t, wf.machine.states s = .task t → t.freshRetries.sum ≤ budget)
    {c c' : Config σ Op Ans W} (h : Step wf allowed c c') :
    remaining rank budget c'.execution < remaining rank budget c.execution := by
  cases h with
  | pass hstate hput => exact remaining_enter_lt hbudget (hdescends.pass _ _ _ _ hstate)
  | passError hstate hput => simp [remaining, Execution.runtimeError]
  | route hroute => exact remaining_enter_lt hbudget (hdescends.route _ _ _ hroute)
  | routeError hroute => simp [remaining, Execution.runtimeError]
  | eventError hstate hevent => simp [remaining, Execution.runtimeError]
  | attempt hstate => exact remaining_resume hdescends hbudget hstate _ _ _ _

/-- Every run of a machine without cycles ends. -/
theorem halts {rank : σ → Nat} {budget : Nat} (hdescends : Descends wf.machine rank)
    (hbudget : ∀ s t, wf.machine.states s = .task t → t.freshRetries.sum ≤ budget)
    {c : Config σ Op Ans W} (run : Transition.MaximalRun (Step wf allowed) c) :
    ∃ n, Transition.Stuck (Step wf allowed) (run.state n) :=
  run.halts (fun c => remaining rank budget c.execution) fun _ _ _ hstep =>
    remaining_step hdescends hbudget hstep

end Workflow
