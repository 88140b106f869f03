-- SUMMARY: The Lambda handlers of the long-running job pattern, as programs over the job store.
import ServerlessPatterns.Library.Program
import ServerlessPatterns.LongRunning.Store

/-!
# Job handlers

An operation is one call of the store, or the choice of a random id.
-/

namespace LongRunning

inductive Op where
  | create (jobId : Json) (succeedAfterAttempts : Int) (failJob : Bool) (payload : Json)
      (ttlSeconds : Option Int)
  | get (jobId : Json)
  | incrementAttempt (jobId : Json)
  | updateProgress (jobId status : Json) (progress : Int)
  | setStatus (jobId status : Json)
  | attachToken (jobId taskToken : Json)
  | newId (idPrefix : String)

abbrev Ans : Op → Type
  | .get _ => Except Exc (Option Json)
  | .incrementAttempt _ => Except Exc Int
  | .newId _ => String
  | _ => Except Exc Unit

abbrev Handler (α : Type) := Program Op Ans Exc α

/-- The environment of the functions. -/
structure Env where
  pollIntervalBaseSeconds : Option String
  pollIntervalMaxSeconds : Option String
  maxPollAttempts : Option String
  jobStateTtlDays : Option String

/-- Raised when a job record cannot be found. -/
def jobNotFoundError (message : String) : Exc :=
  ⟨"JobNotFoundError", ["errors.JobNotFoundError", "errors.JobError", "Exception"], message⟩

/-! ## Configuration -/

/-- Read an integer environment variable, falling back to `default`. -/
def intEnv (py : Python) (value : Option String) (default : Int) : Int :=
  match value with
  | none => default
  | some text => (py.parseInt text).getD default

namespace Env

def base (py : Python) (env : Env) : Int := intEnv py env.pollIntervalBaseSeconds 30
def cap (py : Python) (env : Env) : Int := intEnv py env.pollIntervalMaxSeconds 900
def maxAttempts (py : Python) (env : Env) : Int := intEnv py env.maxPollAttempts 20
def ttlDays (py : Python) (env : Env) : Int := intEnv py env.jobStateTtlDays 30

end Env

/-- Exponential backoff, capped at the configured maximum. -/
def backoffSeconds (py : Python) (env : Env) (attempt : Int) : Int :=
  min (env.cap py) (env.base py * 2 ^ (max 0 attempt).toNat)

/-! ## The wait and poll loop -/

/-- The `job` object that the state machine carries through the loop. -/
def jobReport (jobId status : Json) (attempt : Int) (exhausted : Bool) (progress nextPoll : Int) : Json :=
  .obj [("job_id", jobId), ("status", status), ("attempt", .num (.int attempt)),
    ("exhausted", .bool exhausted), ("progress", .num (.int progress)),
    ("next_poll_seconds", .num (.int nextPoll))]

/-- How the job is simulated: the poll on which it succeeds, and whether it fails. -/
def simulation (py : Python) (spec : Json) : Except Exc (Int × Bool) := do
  let succeedAfter ← py.int (← Python.getD spec "succeed_after_attempts" (.num (.int 3)))
  let failJob := (← Python.getD spec "fail_job" (.bool false)).truthy
  return (if succeedAfter < 1 then 1 else succeedAfter, failJob)

/-- Start the asynchronous job and persist its initial state. -/
def submitJob (py : Python) (env : Env) (event : Json) : Handler Json := do
  let spec := event.orElse (.obj [])
  let given ← .ofExcept (Python.get spec "job_id")
  let jobId ← if given.truthy then .ret given else .call (.newId "job") fun id => .ret (.str id)
  let (succeedAfter, failJob) ← .ofExcept (simulation py spec)
  let ttlDays := env.ttlDays py
  let payload := (← .ofExcept (Python.get spec "payload")).orElse (.obj [])
  .call (.create jobId succeedAfter failJob payload
    (if 0 < ttlDays then some (ttlDays * 24 * 60 * 60) else none)) .ofExcept
  return jobReport jobId statusRunning 0 false 0 (backoffSeconds py env 0)

/-- The status that a poll computes. -/
def pollStatus (succeedAfter : Int) (failJob : Bool) (attempt : Int) : Json :=
  if failJob then statusFailed
  else if succeedAfter ≤ attempt then statusSucceeded
  else statusRunning

/-- The progress that a poll computes. -/
def pollProgress (py : Python) (succeedAfter : Int) (status : Json) (attempt : Int) :
    Except Exc Int := do
  let quotient ← py.divide (100 * attempt) (max succeedAfter 1)
  let progress := min 100 (Python.roundHalfEven quotient)
  return if status = statusSucceeded ∨ status = statusCompleted then 100 else progress

/-- `job.job_id` of an event, which each handler but the first begins with. -/
def jobIdOf (event : Json) : Except Exc Json := do
  let job := (← Python.get event "job").orElse (.obj [])
  Python.get job "job_id"

/-- Poll the job's status and compute the next backed-off wait interval. -/
def pollJob (py : Python) (env : Env) (event : Json) : Handler Json := do
  let jobId ← .ofExcept (jobIdOf event)
  if !jobId.truthy then .raise (jobNotFoundError "poll_job: event is missing job.job_id")
  else do
    let found ← .call (.get jobId) .ofExcept
    match found with
    | none => .raise (jobNotFoundError s!"poll_job: no job record for {py.str jobId}")
    | some record => do
      let attempt ← .call (.incrementAttempt jobId) .ofExcept
      let succeedAfter ← .ofExcept (py.int
        (← .ofExcept (Python.getD record "succeed_after_attempts" (.num (.int 3)))))
      let failJob := (← .ofExcept (Python.getD record "fail_job" (.bool false))).truthy
      let status := pollStatus succeedAfter failJob attempt
      let progress ← .ofExcept (pollProgress py succeedAfter status attempt)
      let exhausted := decide (status = statusRunning) && decide (env.maxAttempts py ≤ attempt)
      .call (.updateProgress jobId status progress) .ofExcept
      return jobReport jobId status attempt exhausted progress (backoffSeconds py env attempt)

/-! ## The sign-off -/

/-- Record the task token and request human sign-off. -/
def requestSignoff (event : Json) : Handler Json := do
  let token ← .ofExcept (Python.get event "task_token")
  let jobId ← .ofExcept (jobIdOf event)
  if !jobId.truthy then .raise (jobNotFoundError "request_signoff: event is missing job.job_id")
  else if !token.truthy then
    .raise (jobNotFoundError "request_signoff: event is missing task_token")
  else do
    .call (.attachToken jobId token) .ofExcept
    return .obj [("job_id", jobId), ("signoff_status", .str "PENDING")]

/-- Mark the job COMPLETED after sign-off. -/
def finalize (event : Json) : Handler Json := do
  let jobId ← .ofExcept (jobIdOf event)
  if !jobId.truthy then .raise (jobNotFoundError "finalize: event is missing job.job_id")
  else do
    let signoff := (← .ofExcept (Python.get event "signoff")).orElse (.obj [])
    .call (.setStatus jobId statusCompleted) .ofExcept
    let signedOffBy ← .ofExcept (Python.get signoff "approved_by")
    return .obj [("job_id", jobId), ("status", statusCompleted), ("signed_off_by", signedOffBy)]

end LongRunning
