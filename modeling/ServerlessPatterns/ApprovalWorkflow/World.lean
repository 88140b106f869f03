-- SUMMARY: The world the approval handlers act on: the request table with its history, and the task tokens of Step Functions.
import ServerlessPatterns.ApprovalWorkflow.Handlers

/-!
# The approval world

DynamoDB reads are eventually consistent: a read may answer from any earlier
state of the table. Step Functions accepts at most one callback for a task
token, and only while the task waits. A callback may also fail without any
effect, whatever the state of its token.
-/

namespace ApprovalWorkflow

/-- What Step Functions knows about a task token. -/
inductive TaskState where
  | waiting
  | resumed (result : TaskResult)
  | timedOut
  deriving DecidableEq

structure World where
  table : Table
  /-- The table as it was before each write, latest first. -/
  past : List Table
  tasks : String → Option TaskState

namespace World

/-- No request and no task token yet. -/
def empty : World := ⟨fun _ => none, [], fun _ => none⟩

/-- The world after a write to the table. -/
def store (w : World) (table : Table) : World :=
  { w with table := table, past := w.table :: w.past }

/-- The world after a task token changed its state. -/
def settle (w : World) (token : String) (state : TaskState) : World :=
  { w with tasks := Function.update w.tasks token (some state) }

@[simp] theorem store_table {w : World} {table : Table} : (w.store table).table = table := rfl
@[simp] theorem store_tasks {w : World} {table : Table} : (w.store table).tasks = w.tasks := rfl
@[simp] theorem settle_table {w : World} {token : String} {state : TaskState} :
    (w.settle token state).table = w.table := rfl
@[simp] theorem settle_tasks_self {w : World} {token : String} {state : TaskState} :
    (w.settle token state).tasks token = some state := by
  simp [settle]
theorem settle_tasks_ne {w : World} {token token' : String} {state : TaskState}
    (h : token' ≠ token) : (w.settle token state).tasks token' = w.tasks token' := by
  simp [settle, h]

end World

/-- A write to the table: what the store's method answers and leaves behind. -/
def Writes (method : Clock → Table → Except Exc Unit × Table) (w : World) (answer : Except Exc Unit)
    (w' : World) : Prop :=
  ∃ clock, answer = (method clock w.table).1 ∧ w' = w.store (method clock w.table).2

/-- A callback to Step Functions: accepted by a waiting task, or refused. -/
def Callback (token : String) (state : TaskState) (w : World) (answer : Except Exc Unit)
    (w' : World) : Prop :=
  (w.tasks token = some .waiting ∧ answer = .ok () ∧ w' = w.settle token state) ∨
  ((∃ e : Exc, answer = .error e ∧ e.isInstance "store.AlreadyDecidedError" = false) ∧ w' = w)

/-- What an operation may answer, and the world it leaves behind. -/
def exec (py : Python) : (op : Op) → World → Ans op → World → Prop
  | .create requestId title amount requester context ttlSeconds =>
    Writes fun clock => ApprovalStore.create py clock requestId title amount requester context ttlSeconds
  | .attachToken requestId taskToken =>
    Writes fun clock => ApprovalStore.attachToken clock requestId taskToken
  | .recordDecision requestId decision approver comment =>
    Writes fun clock => ApprovalStore.recordDecision clock requestId decision approver comment
  | .get requestId => fun w answer w' =>
    w' = w ∧ ∃ table ∈ w.table :: w.past, answer = ApprovalStore.get requestId table
  | .sendTask token result => Callback token (.resumed result)
  | .sendEmail _ => fun w _ w' => w' = w
  | .newId idPrefix => fun w answer w' =>
    w' = w ∧ ∃ hex : String, hex.length = 12 ∧ answer = idPrefix ++ "-" ++ hex
  | .nowIso => fun w _ w' => w' = w

/-! ## What the writes do -/

theorem exec_create {py : Python} {requestId : Json} {title : String} {amount : Option PyFloat}
    {requester : String} {context : Json} {ttlSeconds : Int} {w w' : World} {answer : Except Exc Unit}
    (h : exec py (.create requestId title amount requester context ttlSeconds) w answer w') :
    (∃ e, answer = .error e ∧ w' = w.store w.table) ∨
    ∃ k item, requestId = .str k ∧ item.get ["request_id"] = some (.str k) ∧
      item.get ["status"] = some statusPending ∧ item.get ["task_token"] = none ∧
      answer = .ok () ∧ w' = w.store (w.table.write k item) := by
  obtain ⟨clock, rfl, rfl⟩ := h
  rcases ApprovalStore.create_cases py clock requestId title amount requester context ttlSeconds
    w.table with ⟨e, heq⟩ | ⟨k, item, hkey, hid, hstatus, htoken, heq⟩
  · exact .inl ⟨e, by simp only [heq], by simp only [heq]⟩
  · exact .inr ⟨k, item, hkey, hid, hstatus, htoken, by simp only [heq], by simp only [heq]⟩

theorem exec_attachToken {py : Python} {requestId taskToken : Json} {w w' : World}
    {answer : Except Exc Unit} (h : exec py (.attachToken requestId taskToken) w answer w') :
    (∃ e, answer = .error e ∧ w' = w.store w.table) ∨
    ∃ k item, requestId = .str k ∧
      item.get ["request_id"] =
        ((w.table k).getD (.obj [("request_id", .str k)])).get ["request_id"] ∧
      item.get ["status"] = some statusNotified ∧ item.get ["task_token"] = some taskToken ∧
      answer = .ok () ∧ w' = w.store (w.table.write k item) := by
  obtain ⟨clock, rfl, rfl⟩ := h
  rcases ApprovalStore.attachToken_cases clock requestId taskToken w.table with
    ⟨e, heq⟩ | ⟨k, item, hkey, hid, hstatus, htoken, heq⟩
  · exact .inl ⟨e, by simp only [heq], by simp only [heq]⟩
  · exact .inr ⟨k, item, hkey, hid, hstatus, htoken, by simp only [heq], by simp only [heq]⟩

theorem exec_recordDecision {py : Python} {requestId decision : Json} {approver comment : String}
    {w w' : World} {answer : Except Exc Unit}
    (h : exec py (.recordDecision requestId decision approver comment) w answer w') :
    (∃ e, answer = .error e ∧ w' = w.store w.table) ∨
    ∃ k record item, requestId = .str k ∧ w.table k = some record ∧
      ApprovalStore.Undecided record ∧ item.get ["request_id"] = record.get ["request_id"] ∧
      item.get ["task_token"] = record.get ["task_token"] ∧ item.get ["status"] = some decision ∧
      answer = .ok () ∧ w' = w.store (w.table.write k item) := by
  obtain ⟨clock, rfl, rfl⟩ := h
  rcases ApprovalStore.recordDecision_cases clock requestId decision approver comment w.table with
    ⟨e, heq⟩ | ⟨k, record, item, hkey, hread, hundecided, hitem, heq⟩
  · exact .inl ⟨e, by simp only [heq], by simp only [heq]⟩
  · obtain ⟨hid, htoken, hstatus⟩ := ApprovalStore.decisionClauses_get hitem
    exact .inr ⟨k, record, item, hkey, hread, hundecided, hid, htoken, hstatus,
      by simp only [heq], by simp only [heq]⟩

/-- An undecided record takes a decision. -/
theorem exec_recordDecision_ok {py : Python} {k : String} {decision record : Json}
    {approver comment : String} {w w' : World} {answer : Except Exc Unit} (hne : k ≠ "")
    (hread : w.table k = some record) (hundecided : ApprovalStore.Undecided record)
    (hdecision : decision.hasFloat = false)
    (h : exec py (.recordDecision (.str k) decision approver comment) w answer w') :
    answer = .ok () ∧ ∃ item, w' = w.store (w.table.write k item) ∧
      item.get ["request_id"] = record.get ["request_id"] ∧
      item.get ["task_token"] = record.get ["task_token"] ∧
      item.get ["status"] = some decision := by
  obtain ⟨clock, rfl, rfl⟩ := h
  obtain ⟨item, hitem, heq⟩ :=
    ApprovalStore.recordDecision_ok clock approver comment hne hread hundecided hdecision
  exact ⟨by simp only [heq], item, by simp only [heq], ApprovalStore.decisionClauses_get hitem⟩

/-- A token that is not waiting any more keeps its state. -/
theorem exec_tasks_settled {py : Python} {op : Op} {w w' : World} {answer : Ans op} {token : String}
    {state : TaskState} (h : exec py op w answer w') (hstate : w.tasks token = some state)
    (hsettled : state ≠ .waiting) : w'.tasks token = some state := by
  cases op with
  | create | attachToken | recordDecision =>
      obtain ⟨clock, _, rfl⟩ := h
      exact hstate
  | get | newId =>
      obtain ⟨rfl, _⟩ := h
      exact hstate
  | sendEmail | nowIso =>
      obtain rfl := h
      exact hstate
  | sendTask token' result =>
      rcases h with ⟨hwaiting, _, rfl⟩ | ⟨_, rfl⟩
      · have hne : token ≠ token' := by
          rintro rfl
          rw [hstate, Option.some.injEq] at hwaiting
          exact hsettled hwaiting
        rwa [World.settle_tasks_ne hne]
      · exact hstate

/-- Step Functions forgets no token. -/
theorem exec_tasks_isSome {py : Python} {op : Op} {w w' : World} {answer : Ans op} {token : String}
    (h : exec py op w answer w') (hknown : (w.tasks token).isSome = true) :
    (w'.tasks token).isSome = true := by
  cases op with
  | create | attachToken | recordDecision =>
      obtain ⟨clock, _, rfl⟩ := h
      exact hknown
  | get | newId =>
      obtain ⟨rfl, _⟩ := h
      exact hknown
  | sendEmail | nowIso =>
      obtain rfl := h
      exact hknown
  | sendTask token' result =>
      rcases h with ⟨_, _, rfl⟩ | ⟨_, rfl⟩
      · by_cases heq : token = token'
        · subst heq
          rw [World.settle_tasks_self]
          rfl
        · rwa [World.settle_tasks_ne heq]
      · exact hknown

/-! ## A world of functions -/

/-- A callback that is accepted whenever it can be. -/
def callback (token : String) (state : TaskState) (w : World) : Except Exc Unit × World :=
  if w.tasks token = some .waiting then (.ok (), w.settle token state)
  else (.error ⟨"TaskTimedOut", ["sfn.TaskTimedOut", "Exception"], ""⟩, w)

/-- A world of functions: the clock stands still, reads are fresh, emails are
    delivered, and all generated ids are the same. -/
def answer (py : Python) : (op : Op) → World → Ans op × World
  | .create requestId title amount requester context ttlSeconds, w =>
    let (reply, table) := ApprovalStore.create py (fun _ => 0) requestId title amount requester
      context ttlSeconds w.table
    (reply, w.store table)
  | .attachToken requestId taskToken, w =>
    let (reply, table) := ApprovalStore.attachToken (fun _ => 0) requestId taskToken w.table
    (reply, w.store table)
  | .recordDecision requestId decision approver comment, w =>
    let (reply, table) :=
      ApprovalStore.recordDecision (fun _ => 0) requestId decision approver comment w.table
    (reply, w.store table)
  | .get requestId, w => (ApprovalStore.get requestId w.table, w)
  | .sendTask token result, w => callback token (.resumed result) w
  | .sendEmail _, w => (.ok (), w)
  | .newId idPrefix, w => (idPrefix ++ "-" ++ "000000000000", w)
  | .nowIso, w => ("1970-01-01T00:00:00Z", w)

theorem callback_exec {token : String} {state : TaskState} {w : World} :
    Callback token state w (callback token state w).1 (callback token state w).2 := by
  by_cases h : w.tasks token = some .waiting
  · exact .inl (by simp [callback, h])
  · refine .inr ⟨⟨⟨"TaskTimedOut", ["sfn.TaskTimedOut", "Exception"], ""⟩, ?_, by decide⟩, ?_⟩ <;>
      simp [callback, h]

theorem answer_exec {py : Python} (op : Op) (w : World) :
    exec py op w (answer py op w).1 (answer py op w).2 := by
  cases op with
  | create | attachToken | recordDecision => exact ⟨fun _ => 0, rfl, rfl⟩
  | get => exact ⟨rfl, _, List.mem_cons_self, rfl⟩
  | sendTask => exact callback_exec
  | sendEmail | nowIso => rfl
  | newId idPrefix => exact ⟨rfl, "000000000000", by decide, rfl⟩

end ApprovalWorkflow
