-- SUMMARY: The long-running job state machine, as statemachine.asl.json wires it, with its handlers on the job table.
import ServerlessPatterns.Library.Workflow
import ServerlessPatterns.LongRunning.Handlers

/-!
# The job state machine
-/

namespace LongRunning

open Asl

/-! ## Operations on the table -/

/-- A write to the table: what the store's method answers and leaves behind. -/
def Writes {α : Type} (method : Clock → Table → Except Exc α × Table) (w : World)
    (answer : Except Exc α) (w' : World) : Prop :=
  ∃ clock, answer = (method clock w.table).1 ∧ w' = w.store (method clock w.table).2

/-- What an operation may answer, and the world it leaves behind. -/
def exec (py : Python) (reads : Reads) : (op : Op) → World → Ans op → World → Prop
  | .create jobId succeedAfterAttempts failJob payload ttlSeconds =>
    Writes fun clock => JobStore.create clock jobId succeedAfterAttempts failJob payload ttlSeconds
  | .get jobId => fun w answer w' =>
    w' = w ∧ ∃ table ∈ reads.visible w, answer = JobStore.get jobId table
  | .incrementAttempt jobId => Writes fun clock => JobStore.incrementAttempt py clock jobId
  | .updateProgress jobId status progress =>
    Writes fun clock => JobStore.updateProgress clock jobId status progress
  | .setStatus jobId status => Writes fun clock => JobStore.setStatus clock jobId status
  | .attachToken jobId taskToken => Writes fun clock => JobStore.attachToken clock jobId taskToken
  | .newId idPrefix => fun w answer w' =>
    w' = w ∧ ∃ hex : String, hex.length = 12 ∧ answer = idPrefix ++ "-" ++ hex

/-- What a method returns, in the world it leaves behind. -/
def written {α : Type} (w : World) (result : α × Table) : α × World := (result.1, w.store result.2)

/-- Operations as functions: the clock stands still, reads are fresh, and all
    generated ids are the same. -/
def answer (py : Python) : (op : Op) → World → Ans op × World
  | .create jobId succeedAfterAttempts failJob payload ttlSeconds, w =>
    written w (JobStore.create (fun _ => 0) jobId succeedAfterAttempts failJob payload ttlSeconds w.table)
  | .get jobId, w => (JobStore.get jobId w.table, w)
  | .incrementAttempt jobId, w =>
    written w (JobStore.incrementAttempt py (fun _ => 0) jobId w.table)
  | .updateProgress jobId status progress, w =>
    written w (JobStore.updateProgress (fun _ => 0) jobId status progress w.table)
  | .setStatus jobId status, w => written w (JobStore.setStatus (fun _ => 0) jobId status w.table)
  | .attachToken jobId taskToken, w =>
    written w (JobStore.attachToken (fun _ => 0) jobId taskToken w.table)
  | .newId idPrefix, w => (idPrefix ++ "-" ++ "000000000000", w)

theorem answer_exec {py : Python} {reads : Reads} (op : Op) (w : World) :
    exec py reads op w (answer py op w).1 (answer py op w).2 := by
  cases op with
  | get jobId => exact ⟨rfl, _, Reads.table_visible, rfl⟩
  | newId idPrefix => exact ⟨rfl, "000000000000", by decide, rfl⟩
  | _ => exact ⟨fun _ => 0, rfl, rfl⟩

/-! ## States -/

inductive StateName where
  | submitJob
  | waitForJob
  | pollJob
  | evaluateJob
  | requestSignoff
  | finalize
  | jobFailed
  | jobTimedOut
  | signoffTimedOut
  deriving DecidableEq

/-- The Lambda functions behind the tasks. -/
inductive Function where
  | submitJob
  | pollJob
  | requestSignoff
  | finalize
  deriving DecidableEq

/-- What the two tasks have in common whose result replaces the state data. -/
def jobTask (resource : Function) (next : StateName) : Task StateName Function where
  resource := resource
  integration := .invoke
  parameters := some (.object [("Payload", .path [])])
  resultSelector := some (.object [("job", .path ["Payload"])])
  resultPath := []
  timeoutSeconds := none
  retry := [⟨["Lambda.ServiceException", "Lambda.AWSLambdaException", "Lambda.SdkClientException",
    "Lambda.TooManyRequestsException"], 2, 4, 2⟩]
  catchers := [⟨["States.ALL"], ["error"], .jobFailed⟩]
  next := some next

def submitJobTask := jobTask .submitJob .waitForJob
def pollJobTask := jobTask .pollJob .evaluateJob

def requestSignoffTask : Task StateName Function where
  resource := .requestSignoff
  integration := .invokeWaitForTaskToken
  parameters := some (.object [("Payload", .object [("task_token", .context ["Task", "Token"]),
    ("job", .path ["job"])])])
  resultSelector := none
  resultPath := ["signoff"]
  timeoutSeconds := some 86400
  retry := []
  catchers := [⟨["States.Timeout"], ["error"], .signoffTimedOut⟩,
    ⟨["States.ALL"], ["error"], .jobFailed⟩]
  next := some .finalize

def finalizeTask : Task StateName Function where
  resource := .finalize
  integration := .invoke
  parameters := some (.object [("Payload", .path [])])
  resultSelector := some (.object [("result", .path ["Payload"])])
  resultPath := ["result"]
  timeoutSeconds := none
  retry := [⟨["States.ALL"], 2, 3, 2⟩]
  catchers := []
  next := none

def evaluateJobRules : List (ChoiceRule StateName) :=
  [⟨["job", "status"], .stringEquals "SUCCEEDED", .requestSignoff⟩,
    ⟨["job", "status"], .stringEquals "FAILED", .jobFailed⟩,
    ⟨["job", "exhausted"], .booleanEquals true, .jobTimedOut⟩]

def machine : Machine StateName Function where
  startAt := .submitJob
  timeoutSeconds := 604800
  states
    | .submitJob => .task submitJobTask
    | .waitForJob => .wait ["job", "next_poll_seconds"] .pollJob
    | .pollJob => .task pollJobTask
    | .evaluateJob => .choice evaluateJobRules .waitForJob
    | .requestSignoff => .task requestSignoffTask
    | .finalize => .task finalizeTask
    | .jobFailed =>
      .fail "JobFailed" "The long-running job failed during submission, polling, or processing."
    | .jobTimedOut =>
      .fail "JobPollBudgetExhausted"
        "The job did not reach a terminal status within the configured poll budget."
    | .signoffTimedOut =>
      .fail "SignoffTimedOut" "No sign-off callback (task token) was received before the timeout."

def function (py : Python) (env : Env) : Function → Json → Handler Json
  | .submitJob => submitJob py env
  | .pollJob => pollJob py env
  | .requestSignoff => requestSignoff
  | .finalize => finalize

def workflow (py : Python) (env : Env) (reads : Reads) :
    Workflow StateName Function Op Ans World where
  machine := machine
  handler := function py env
  exec := exec py reads

/-- The defaults of all variables. -/
def sampleEnv : Env where
  pollIntervalBaseSeconds := none
  pollIntervalMaxSeconds := none
  maxPollAttempts := none
  jobStateTtlDays := none

def sampleInput (succeedAfterAttempts : Int) : Json :=
  .obj [("job_id", .str "report-987"), ("succeed_after_attempts", .num (.int succeedAfterAttempts)),
    ("fail_job", .bool false)]

def emptyWorld : World := ⟨fun _ => none, []⟩

end LongRunning
