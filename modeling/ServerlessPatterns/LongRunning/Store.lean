-- SUMMARY: The job table: the store's methods, and the table together with its history.
import ServerlessPatterns.Library.DocumentStore

/-!
# The job store

One item per job, keyed by `job_id`, with a status, a counter of poll attempts and a
progress in percent. `create` puts a whole item, whatever was there. The other
methods set attributes of the item one by one.
-/

namespace LongRunning

def statusSubmitted : Json := .str "SUBMITTED"
def statusRunning : Json := .str "RUNNING"
def statusSucceeded : Json := .str "SUCCEEDED"
def statusFailed : Json := .str "FAILED"
def statusCompleted : Json := .str "COMPLETED"

/-- The successive readings of the clock within one call, in whole seconds. -/
abbrev Clock := Nat → Int

namespace JobStore

def seconds (n : Int) : Json := .num (.int n)

/-- When the item that is created expires, if it does. -/
def expiry (clock : Clock) : Option Int → List (String × Json)
  | none => []
  | some ttl => if 0 < ttl then [("expires_at", seconds (clock 2 + ttl))] else []

/-- The item that `create` puts. -/
def newItem (clock : Clock) (jobId : Json) (succeedAfterAttempts : Int) (failJob : Bool)
    (payload : Json) (ttlSeconds : Option Int) : Json :=
  .obj ([("job_id", jobId), ("status", statusSubmitted), ("attempts", .num (.decimal 0)),
      ("progress", .num (.decimal 0)),
      ("succeed_after_attempts", .num (.decimal succeedAfterAttempts)), ("fail_job", .bool failJob),
      ("payload", payload.orElse (.obj [])), ("created_at", seconds (clock 0)),
      ("updated_at", seconds (clock 1))] ++ expiry clock ttlSeconds)

/-- Create, or reset, the job record in SUBMITTED state. -/
def create (clock : Clock) (jobId : Json) (succeedAfterAttempts : Int) (failJob : Bool)
    (payload : Json) (ttlSeconds : Option Int) (table : Table) : Except Exc Unit × Table :=
  let (answer, table) := table.putItem "job_id"
    (newItem clock jobId succeedAfterAttempts failJob payload ttlSeconds)
  (answer.mapError DbError.exc, table)

/-- Return the job record, or `none` if there is none. -/
def get (jobId : Json) (table : Table) : Except Exc (Option Json) :=
  (table.getItem jobId).mapError DbError.exc

/-- The update expression of `increment_attempt`. -/
def attemptClauses (clock : Clock) : List (Json.Path × Operand) :=
  [(["attempts"], .plus (.ifNotExists ["attempts"] (.value (.num (.decimal 0))))
      (.value (.num (.decimal 1)))),
    (["updated_at"], .value (seconds (clock 0)))]

/-- Atomically increment and return the poll-attempt counter. -/
def incrementAttempt (py : Python) (clock : Clock) (jobId : Json) (table : Table) :
    Except Exc Int × Table :=
  let (answer, table) := table.updateItem "job_id" jobId (attemptClauses clock) none
  ((answer.mapError DbError.exc).bind fun item => py.int ((item.get ["attempts"]).getD .null), table)

/-- An update that sets attributes to constants. -/
def setAttributes (jobId : Json) (clauses : List (Json.Path × Operand)) (table : Table) :
    Except Exc Unit × Table :=
  let (answer, table) := table.updateItem "job_id" jobId clauses none
  ((answer.mapError DbError.exc).map fun _ => (), table)

/-- The update expression of `update_progress`. -/
def progressClauses (clock : Clock) (status : Json) (progress : Int) : List (Json.Path × Operand) :=
  [(["status"], .value status), (["progress"], .value (.num (.decimal progress))),
    (["updated_at"], .value (seconds (clock 0)))]

/-- Persist the latest status and progress percentage. -/
def updateProgress (clock : Clock) (jobId status : Json) (progress : Int) (table : Table) :
    Except Exc Unit × Table :=
  setAttributes jobId (progressClauses clock status progress) table

/-- The update expression of `set_status`. -/
def statusClauses (clock : Clock) (status : Json) : List (Json.Path × Operand) :=
  [(["status"], .value status), (["updated_at"], .value (seconds (clock 0)))]

/-- Update the overall job status. -/
def setStatus (clock : Clock) (jobId status : Json) (table : Table) : Except Exc Unit × Table :=
  setAttributes jobId (statusClauses clock status) table

/-- The update expression of `attach_token`. -/
def tokenClauses (clock : Clock) (taskToken : Json) : List (Json.Path × Operand) :=
  [(["task_token"], .value taskToken), (["signoff_status"], .value (.str "PENDING")),
    (["updated_at"], .value (seconds (clock 0)))]

/-- Store the task token captured at the sign-off gate. -/
def attachToken (clock : Clock) (jobId taskToken : Json) (table : Table) : Except Exc Unit × Table :=
  setAttributes jobId (tokenClauses clock taskToken) table

end JobStore

/-! ## The table and its history -/

structure World where
  table : Table
  /-- The table as it was before each write, latest first. -/
  past : List Table

namespace World

def store (w : World) (table : Table) : World := ⟨table, w.table :: w.past⟩

/-- All states the table has had. -/
def history (w : World) : List Table := w.table :: w.past

@[simp] theorem store_table {w : World} {table : Table} : (w.store table).table = table := rfl

@[simp] theorem store_history {w : World} {table : Table} :
    (w.store table).history = table :: w.history := rfl

end World

/-- What a read may answer from: the table as it is, or any state it has had. -/
inductive Reads where
  | current
  | eventual

def Reads.visible : Reads → World → List Table
  | current, w => [w.table]
  | eventual, w => w.history

theorem Reads.visible_history {reads : Reads} {w : World} : ∀ t ∈ reads.visible w, t ∈ w.history := by
  cases reads with
  | current =>
      intro t hmem
      rw [List.mem_singleton.mp hmem]
      exact List.mem_cons_self
  | eventual => exact fun t hmem => hmem

theorem Reads.table_visible {reads : Reads} {w : World} : w.table ∈ reads.visible w := by
  cases reads with
  | current => exact List.mem_singleton.mpr rfl
  | eventual => exact List.mem_cons_self

end LongRunning
