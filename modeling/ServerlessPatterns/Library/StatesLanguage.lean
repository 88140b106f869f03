-- SUMMARY: The Amazon States Language: states, payload templates, Retry and Catch, and what a state machine does with the result of a task.
import ServerlessPatterns.Library.Json

/-!
# The Amazon States Language

The syntax of a state machine, and the part of its meaning that is independent
of what the tasks do: how a task's input is built from the state data, where its
result goes, and which state comes next after a result or an error.

State names and task resources are types of the machine's own choosing. A path
error at run time is no task error: nothing retries or catches it, and it ends
the execution.
-/

namespace Asl

/-- A payload template, as in `Parameters` and `ResultSelector`. -/
inductive Template where
  /-- A literal. -/
  | json (v : Json)
  /-- `"name.$": "$.…"` -/
  | path (p : Json.Path)
  /-- `"name.$": "$$.…"` -/
  | context (p : Json.Path)
  | object (fields : List (String × Template))

mutual
def Template.eval (context data : Json) : Template → Option Json
  | .json v => some v
  | .path p => data.get p
  | .context p => context.get p
  | .object fields => (Template.evalFields context data fields).map .obj

def Template.evalFields (context data : Json) :
    List (String × Template) → Option (List (String × Json))
  | [] => some []
  | (key, template) :: rest =>
    (template.eval context data).bind fun value =>
      (Template.evalFields context data rest).map fun values => (key, value) :: values
end

/-- The error a task attempt reported. -/
structure TaskError where
  error : String
  cause : String

/-- The document a `Catch` puts at its `ResultPath`. -/
def TaskError.output (err : TaskError) : Json :=
  .obj [("Error", .str err.error), ("Cause", .str err.cause)]

/-- Whether an `ErrorEquals` list names an error. -/
def catches (errorEquals : List String) (err : TaskError) : Bool :=
  decide (err.error ∈ errorEquals) || decide ("States.ALL" ∈ errorEquals)

@[simp] theorem catches_all {err : TaskError} : catches ["States.ALL"] err = true := by
  simp [catches]

structure Retrier where
  errorEquals : List String
  intervalSeconds : Nat
  maxAttempts : Nat
  backoffRate : ℚ

structure Catcher (σ : Type) where
  errorEquals : List String
  resultPath : Json.Path
  next : σ

/-- How a task calls its function. -/
inductive Integration where
  /-- The function's ARN itself: input and result are passed as they are. -/
  | lambda
  /-- `states:::lambda:invoke`: the input is `Parameters.Payload`, and the result
      comes wrapped in a description of the invocation. -/
  | invoke
  /-- `states:::lambda:invoke.waitForTaskToken`: as `invoke`, but the result is
      the one reported for the task token. -/
  | invokeWaitForTaskToken
  deriving DecidableEq

structure Task (σ ρ : Type) where
  resource : ρ
  integration : Integration
  parameters : Option Template
  resultSelector : Option Template
  resultPath : Json.Path
  timeoutSeconds : Option Nat
  retry : List Retrier
  catchers : List (Catcher σ)
  /-- `none` for `"End": true`. -/
  next : Option σ

/-- What a `Choice` rule asks of the value its variable has. -/
inductive Test where
  | stringEquals (s : String)
  | booleanEquals (b : Bool)

def Test.holds : Test → Json → Bool
  | stringEquals s, value => decide (value = .str s)
  | booleanEquals b, value => decide (value = .bool b)

structure ChoiceRule (σ : Type) where
  variablePath : Json.Path
  test : Test
  next : σ

inductive State (σ ρ : Type) where
  | pass (result : Json) (resultPath : Json.Path) (next : σ)
  | wait (secondsPath : Json.Path) (next : σ)
  | choice (rules : List (ChoiceRule σ)) (fallback : σ)
  | task (t : Task σ ρ)
  | succeed
  | fail (error cause : String)

structure Machine (σ ρ : Type) where
  startAt : σ
  timeoutSeconds : Nat
  states : σ → State σ ρ

/-- Where one execution stands. A running task knows how often each of its
    retriers may still be used. -/
inductive Execution (σ : Type) where
  | running (state : σ) (data : Json) (retriesLeft : List Nat)
  | succeeded (state : σ) (data : Json)
  | failed (state : σ) (err : TaskError)

variable {σ ρ : Type}

/-- A path did not fit the state data. -/
def Execution.runtimeError (s : σ) : Execution σ :=
  .failed s ⟨"States.Runtime", "a path does not fit the state data"⟩

/-- The seconds to wait for, which are a non-negative integer. -/
def secondsAt (path : Json.Path) (data : Json) : Option Nat :=
  match data.get path with
  | some (.num (.int n)) => if 0 ≤ n then some n.toNat else none
  | _ => none

/-- The first rule that holds decides. A variable that is not there is an error. -/
def choose (data : Json) (fallback : σ) : List (ChoiceRule σ) → Option σ
  | [] => some fallback
  | rule :: rules =>
    match data.get rule.variablePath with
    | none => none
    | some value => if rule.test.holds value then some rule.next else choose data fallback rules

/-- A choice leads to a state that it names. -/
theorem choose_mem {data : Json} {fallback next : σ} {rules : List (ChoiceRule σ)}
    (h : choose data fallback rules = some next) : next ∈ fallback :: rules.map ChoiceRule.next := by
  induction rules with
  | nil =>
      obtain rfl := Option.some.inj h
      exact List.mem_cons_self
  | cons rule rules ih =>
      have hrest : next ∈ fallback :: rules.map ChoiceRule.next →
          next ∈ fallback :: (rule :: rules).map ChoiceRule.next := by
        intro hmem
        rcases List.mem_cons.mp hmem with rfl | hmem
        · exact List.mem_cons_self
        · exact List.mem_cons_of_mem _ (List.mem_cons_of_mem _ hmem)
      rw [choose] at h
      split at h
      · cases h
      · split_ifs at h
        · obtain rfl := Option.some.inj h
          exact List.mem_cons_of_mem _ List.mem_cons_self
        · exact hrest (ih h)

/-- Where a `Wait` or `Choice` state leads to, if the data fit its paths. Other
    states route nothing. -/
def State.route : State σ ρ → Json → Option (Option σ)
  | .wait path next, data => some ((secondsAt path data).map fun _ => next)
  | .choice rules fallback, data => some (choose data fallback rules)
  | _, _ => none

namespace Task

/-- The function is called with the state data and its result taken as it is. -/
structure Direct (t : Task σ ρ) : Prop where
  integration : t.integration = .lambda
  parameters : t.parameters = none
  resultSelector : t.resultSelector = none

/-- The event the task's function is called with. -/
def event (t : Task σ ρ) (context data : Json) : Option Json :=
  match t.integration, t.parameters with
  | .lambda, none => some data
  | .lambda, some template => template.eval context data
  | _, none => data.field "Payload"
  | _, some template => (template.eval context data).bind (Json.field "Payload")

/-- The raw result of an invocation that returned `payload`. -/
def wrap (t : Task σ ρ) (payload : Json) : Json :=
  match t.integration with
  | .lambda => payload
  | _ => .obj [("ExecutedVersion", .str "$LATEST"), ("Payload", payload),
      ("StatusCode", .num (.int 200))]

/-- The state data after a result. -/
def output (t : Task σ ρ) (context data result : Json) : Option Json :=
  match t.resultSelector with
  | none => data.put t.resultPath result
  | some template => (template.eval context result).bind fun selected => data.put t.resultPath selected

def freshRetries (t : Task σ ρ) : List Nat := t.retry.map (·.maxAttempts)

theorem Direct.event {t : Task σ ρ} (h : t.Direct) {context data : Json} :
    t.event context data = some data := by
  simp [Task.event, h.integration, h.parameters]

theorem Direct.wrap {t : Task σ ρ} (h : t.Direct) {payload : Json} : t.wrap payload = payload := by
  simp [Task.wrap, h.integration]

theorem Direct.output {t : Task σ ρ} (h : t.Direct) {context data result : Json} :
    t.output context data result = data.put t.resultPath result := by
  simp [Task.output, h.resultSelector]

end Task

namespace Machine

variable (m : Machine σ ρ)

/-- Arrive at a state. -/
def enter (s : σ) (data : Json) : Execution σ :=
  match m.states s with
  | .pass .. => .running s data []
  | .wait .. => .running s data []
  | .choice .. => .running s data []
  | .task t => .running s data t.freshRetries
  | .succeed => .succeeded s data
  | .fail error cause => .failed s ⟨error, cause⟩

def start (input : Json) : Execution σ := m.enter m.startAt input

/-- Hand an error to the first catcher that names it. -/
def caught (s : σ) (t : Task σ ρ) (data : Json) (err : TaskError) : Execution σ :=
  match t.catchers.find? fun c => catches c.errorEquals err with
  | none => .failed s err
  | some c =>
    match data.put c.resultPath err.output with
    | none => .runtimeError s
    | some data' => m.enter c.next data'

/-- An attempt failed: the first retrier that names the error decides whether
    there is another one. -/
def fault (s : σ) (t : Task σ ρ) (data : Json) (retriesLeft : List Nat) (err : TaskError) :
    Execution σ :=
  match t.retry.findIdx? fun r => catches r.errorEquals err with
  | none => m.caught s t data err
  | some i =>
    if 0 < retriesLeft.getD i 0 then .running s data (retriesLeft.modify i (· - 1))
    else m.caught s t data err

def complete (s : σ) (t : Task σ ρ) (context data result : Json) : Execution σ :=
  match t.output context data result with
  | none => .runtimeError s
  | some data' =>
    match t.next with
    | none => .succeeded s data'
    | some s' => m.enter s' data'

/-- What an execution at a task does with the report of an attempt. -/
def resume (s : σ) (t : Task σ ρ) (context data : Json) (retriesLeft : List Nat) :
    Except TaskError Json → Execution σ
  | .ok result => m.complete s t context data result
  | .error err => m.fault s t data retriesLeft err

/-- A catcher takes over, or the execution fails in this state. -/
theorem caught_cases (m : Machine σ ρ) (s : σ) (t : Task σ ρ) (data : Json) (err : TaskError) :
    (∃ c ∈ t.catchers, catches c.errorEquals err = true ∧
      ∃ data', data.put c.resultPath err.output = some data' ∧
      m.caught s t data err = m.enter c.next data') ∨
    ∃ err', m.caught s t data err = .failed s err' := by
  cases hfind : t.catchers.find? fun c => catches c.errorEquals err with
  | none => exact .inr ⟨err, by simp [caught, hfind]⟩
  | some c =>
      cases hput : data.put c.resultPath err.output with
      | none => exact .inr ⟨_, by simp only [caught, hfind, hput]; rfl⟩
      | some data' =>
          exact .inl ⟨c, List.mem_of_find?_eq_some hfind,
            by simpa using List.find?_some hfind, data', hput, by simp [caught, hfind, hput]⟩

/-- After an error there is another attempt out of some retrier's budget, or a
    catcher takes over, or the execution fails in this state. -/
theorem fault_cases (m : Machine σ ρ) (s : σ) (t : Task σ ρ) (data : Json) (left : List Nat)
    (err : TaskError) :
    (∃ i, (t.retry.findIdx? fun r => catches r.errorEquals err) = some i ∧ 0 < left.getD i 0 ∧
      m.fault s t data left err = .running s data (left.modify i (· - 1))) ∨
    (∃ c ∈ t.catchers, catches c.errorEquals err = true ∧
      ∃ data', data.put c.resultPath err.output = some data' ∧
      m.fault s t data left err = m.enter c.next data') ∨
    ∃ err', m.fault s t data left err = .failed s err' := by
  have hcaught := m.caught_cases s t data err
  cases hidx : t.retry.findIdx? fun r => catches r.errorEquals err with
  | none =>
      right
      simpa only [fault, hidx] using hcaught
  | some i =>
      by_cases hleft : 0 < left.getD i 0
      · exact .inl ⟨i, rfl, hleft, by simp only [fault, hidx, if_pos hleft]⟩
      · right
        simpa only [fault, hidx, if_neg hleft] using hcaught

/-- An error uses up a retry, or no retrier stands in the way of the catchers. -/
theorem fault_retry_or_caught (m : Machine σ ρ) (s : σ) (t : Task σ ρ) (data : Json)
    (left : List Nat) (err : TaskError) :
    (∃ i, 0 < left.getD i 0 ∧
      m.fault s t data left err = .running s data (left.modify i (· - 1))) ∨
    m.fault s t data left err = m.caught s t data err := by
  unfold fault
  split
  · exact .inr rfl
  · rename_i i _
    by_cases hleft : 0 < left.getD i 0
    · exact .inl ⟨i, hleft, if_pos hleft⟩
    · exact .inr (if_neg hleft)

/-- A single retrier for all errors counts its retries down. -/
theorem fault_retryAll {m : Machine σ ρ} {s : σ} {t : Task σ ρ} {data : Json} {left : Nat}
    {err : TaskError} {interval attempts : Nat} {rate : ℚ}
    (h : t.retry = [⟨["States.ALL"], interval, attempts, rate⟩]) :
    m.fault s t data [left] err =
      if 0 < left then .running s data [left - 1] else m.caught s t data err := by
  simp [fault, h, List.findIdx?_cons]

theorem caught_all {m : Machine σ ρ} {s next : σ} {t : Task σ ρ} {data : Json} {err : TaskError}
    {path : Json.Path} (h : t.catchers = [⟨["States.ALL"], path, next⟩]) :
    m.caught s t data err =
      match data.put path err.output with
      | none => .runtimeError s
      | some data' => m.enter next data' := by
  simp [caught, h]

theorem caught_none {m : Machine σ ρ} {s : σ} {t : Task σ ρ} {data : Json} {err : TaskError}
    (h : t.catchers = []) : m.caught s t data err = .failed s err := by
  simp [caught, h]

theorem complete_next {m : Machine σ ρ} {s s' : σ} {t : Task σ ρ} {context data data' result : Json}
    (hdirect : t.Direct) (hput : data.put t.resultPath result = some data')
    (hnext : t.next = some s') : m.complete s t context data result = m.enter s' data' := by
  simp [complete, hdirect.output, hput, hnext]

theorem complete_end {m : Machine σ ρ} {s : σ} {t : Task σ ρ} {context data data' result : Json}
    (hdirect : t.Direct) (hput : data.put t.resultPath result = some data')
    (hnext : t.next = none) : m.complete s t context data result = .succeeded s data' := by
  simp [complete, hdirect.output, hput, hnext]

theorem complete_misfit {m : Machine σ ρ} {s : σ} {t : Task σ ρ} {context data result : Json}
    (hdirect : t.Direct) (hput : data.put t.resultPath result = none) :
    m.complete s t context data result = .runtimeError s := by
  simp [complete, hdirect.output, hput]

/-- A result ends the execution or leads on to the next state. -/
theorem complete_cases (m : Machine σ ρ) (s : σ) (t : Task σ ρ) (context data result : Json) :
    (t.output context data result = none ∧
      m.complete s t context data result = .runtimeError s) ∨
    ∃ data', t.output context data result = some data' ∧
      ((t.next = none ∧ m.complete s t context data result = .succeeded s data') ∨
        ∃ s', t.next = some s' ∧ m.complete s t context data result = m.enter s' data') := by
  cases hout : t.output context data result with
  | none => exact .inl ⟨rfl, by simp [complete, hout]⟩
  | some data' =>
      refine .inr ⟨data', rfl, ?_⟩
      cases hnext : t.next with
      | none => exact .inl ⟨rfl, by simp [complete, hout, hnext]⟩
      | some s' => exact .inr ⟨s', rfl, by simp [complete, hout, hnext]⟩

end Machine

end Asl
