-- SUMMARY: The approval-request table: the store's methods and what each of them leaves in a record.
import ServerlessPatterns.Library.DocumentStore

/-!
# The approval store

One item per request, keyed by `request_id`. Each method is one call to
DynamoDB. Only `recordDecision` is conditional: `create` and `attachToken` write
whatever the record says already.
-/

namespace ApprovalWorkflow

def statusPending : Json := .str "PENDING"
def statusNotified : Json := .str "NOTIFIED"
def statusApproved : Json := .str "APPROVED"
def statusRejected : Json := .str "REJECTED"

/-- Raised when a decision is attempted on a request that is already decided. -/
def alreadyDecidedError (requestId : Json) : Exc :=
  ⟨"AlreadyDecidedError", ["store.AlreadyDecidedError", "Exception"],
    match requestId with | .str s => s | _ => ""⟩

/-- The successive readings of the clock within one call, in whole seconds. -/
abbrev Clock := Nat → Int

namespace ApprovalStore

def seconds (n : Int) : Json := .num (.int n)

/-- The item that `create` puts: a fresh record without token or decision. -/
def newItem (clock : Clock) (requestId : Json) (title : String) (amount : Option ℚ)
    (requester : String) (context : Json) (ttlSeconds : Int) : Json :=
  .obj ([("request_id", requestId), ("title", .str title), ("requester", .str requester),
      ("status", statusPending), ("context", context.orElse (.obj [])),
      ("created_at", seconds (clock 0)), ("updated_at", seconds (clock 1))]
    ++ (match amount with | some x => [("amount", .num (.decimal x))] | none => [])
    ++ if 0 < ttlSeconds then [("expires_at", seconds (clock 2 + ttlSeconds))] else [])

/-- Persist a new approval request in PENDING state. -/
def create (py : Python) (clock : Clock) (requestId : Json) (title : String)
    (amount : Option PyFloat) (requester : String) (context : Json) (ttlSeconds : Int)
    (table : Table) : Except Exc Unit × Table :=
  match amount.mapM py.toDecimal with
  | .error e => (.error e, table)
  | .ok amount =>
    let (answer, table) := table.putItem "request_id"
      (newItem clock requestId title amount requester context ttlSeconds)
    (answer.mapError DbError.exc, table)

/-- Store the task token and mark the request as NOTIFIED. -/
def attachToken (clock : Clock) (requestId taskToken : Json) (table : Table) :
    Except Exc Unit × Table :=
  let (answer, table) := table.updateItem "request_id" requestId
    [(["task_token"], .value taskToken), (["status"], .value statusNotified),
      (["updated_at"], .value (seconds (clock 0)))]
    none
  ((answer.mapError DbError.exc).map fun _ => (), table)

/-- The update expression of `record_decision`. -/
def decisionClauses (clock : Clock) (decision : Json) (approver comment : String) :
    List (Json.Path × Operand) :=
  [(["status"], .value decision), (["approver"], .value (.str approver)),
    (["decision_comment"], .value (.str comment)),
    (["decided_at"], .value (seconds (clock 0))), (["updated_at"], .value (seconds (clock 1)))]

/-- The condition expression of `record_decision`. -/
def undecidedCondition : Condition :=
  .and (.attributeExists ["request_id"]) (.isIn ["status"] [statusPending, statusNotified])

/-- Atomically record the final decision, guarded so that only the first one is
    written. -/
def recordDecision (clock : Clock) (requestId : Json) (decision : Json) (approver comment : String)
    (table : Table) : Except Exc Unit × Table :=
  let (answer, table) := table.updateItem "request_id" requestId
    (decisionClauses clock decision approver comment) (some undecidedCondition)
  match answer with
  | .ok _ => (.ok (), table)
  | .error .conditionalCheckFailed => (.error (alreadyDecidedError requestId), table)
  | .error e => (.error e.exc, table)

/-- Return the request record, or `none` if there is none. -/
def get (requestId : Json) (table : Table) : Except Exc (Option Json) :=
  (table.getItem requestId).mapError DbError.exc

/-! ## What the methods write -/

/-- The guard of `recordDecision`. -/
def Undecided (record : Json) : Prop :=
  (record.get ["request_id"]).isSome = true ∧
    (record.get ["status"] = some statusPending ∨ record.get ["status"] = some statusNotified)

theorem newItem_get {clock : Clock} {requestId : Json} {title : String} {amount : Option ℚ}
    {requester : String} {context : Json} {ttlSeconds : Int} {item : Json}
    (h : item = newItem clock requestId title amount requester context ttlSeconds) :
    item.get ["request_id"] = some requestId ∧ item.get ["status"] = some statusPending ∧
      item.get ["task_token"] = none := by
  have hexpires : (if 0 < ttlSeconds then [("expires_at", seconds (clock 2 + ttlSeconds))]
      else []).lookup "task_token" = none := by
    split <;> simp [List.lookup_cons]
  subst h
  unfold newItem
  refine ⟨by simp, by simp [List.lookup_cons], ?_⟩
  cases amount <;> simp [List.lookup_cons, hexpires]

/-- `create` fails, or it replaces the record by a new one. -/
theorem create_cases (py : Python) (clock : Clock) (requestId : Json) (title : String)
    (amount : Option PyFloat) (requester : String) (context : Json) (ttlSeconds : Int)
    (table : Table) :
    (∃ e, create py clock requestId title amount requester context ttlSeconds table =
      (.error e, table)) ∨
    ∃ k item, requestId = .str k ∧ item.get ["request_id"] = some (.str k) ∧
      item.get ["status"] = some statusPending ∧ item.get ["task_token"] = none ∧
      create py clock requestId title amount requester context ttlSeconds table =
        (.ok (), table.write k item) := by
  unfold create
  cases hamount : amount.mapM py.toDecimal with
  | error e => exact .inl ⟨e, rfl⟩
  | ok amount =>
      have hitem := newItem_get (Eq.refl (newItem clock requestId title amount requester context
        ttlSeconds))
      rcases Table.putItem_cases "request_id"
          (newItem clock requestId title amount requester context ttlSeconds) table with
        ⟨e, heq⟩ | ⟨k, hfield, _, heq⟩
      · exact .inl ⟨e.exc, by simp only [heq]; rfl⟩
      · obtain ⟨hid, hstatus, htoken⟩ := hitem
        have hkey : requestId = .str k := by
          rw [Json.get_cons, hfield, Option.bind_some, Json.get_nil, Option.some.injEq] at hid
          exact hid.symm
        exact .inr ⟨k, _, hkey, hkey ▸ hid, hstatus, htoken, by simp only [heq]; rfl⟩

/-- `attachToken` fails, or it writes the token and the status and leaves the
    key attribute alone. -/
theorem attachToken_cases (clock : Clock) (requestId taskToken : Json) (table : Table) :
    (∃ e, attachToken clock requestId taskToken table = (.error e, table)) ∨
    ∃ k item, requestId = .str k ∧
      item.get ["request_id"] = ((table k).getD (.obj [("request_id", .str k)])).get ["request_id"] ∧
      item.get ["status"] = some statusNotified ∧ item.get ["task_token"] = some taskToken ∧
      attachToken clock requestId taskToken table = (.ok (), table.write k item) := by
  unfold attachToken
  rcases Table.updateItem_cases "request_id" requestId
      [(["task_token"], .value taskToken), (["status"], .value statusNotified),
        (["updated_at"], .value (seconds (clock 0)))] none table with
    ⟨e, heq⟩ | ⟨k, item, rfl, _, _, hitem, heq⟩
  · exact .inl ⟨e.exc, by simp only [heq]; rfl⟩
  · have hid : item.get ["request_id"] = _ := Table.updated_apart hitem (by simp [Json.Path.Apart])
    have hstatus := Table.updated_get hitem 1 rfl (by simp [Json.Path.Apart])
    have htoken := Table.updated_get hitem 0 rfl (by simp [Json.Path.Apart])
    exact .inr ⟨k, item, rfl, hid, hstatus, htoken, by simp only [heq]; rfl⟩

theorem undecidedCondition_holds {record : Json} :
    undecidedCondition.holds record = true ↔ Undecided record := by
  simp only [undecidedCondition, Condition.holds, Bool.and_eq_true, Undecided]
  apply and_congr_right
  intro _
  cases record.get ["status"] <;> simp

theorem Undecided.obj {record : Json} (h : Undecided record) : ∃ fields, record = .obj fields := by
  cases record with
  | obj fields => exact ⟨fields, rfl⟩
  | _ => simp [Undecided, Json.field] at h

/-- What a decision leaves in the record. -/
theorem decisionClauses_get {clock : Clock} {decision : Json} {approver comment : String}
    {record item : Json}
    (h : Table.updated (decisionClauses clock decision approver comment) record = some item) :
    item.get ["request_id"] = record.get ["request_id"] ∧
      item.get ["task_token"] = record.get ["task_token"] ∧
      item.get ["status"] = some decision := by
  refine ⟨Table.updated_apart h ?_, Table.updated_apart h ?_, Table.updated_get h 0 rfl ?_⟩
  all_goals simp [decisionClauses, Json.Path.Apart]

/-- A record that is not decided yet takes the decision. -/
theorem recordDecision_ok (clock : Clock) {k : String} {decision record : Json}
    (approver comment : String) {table : Table} (hne : k ≠ "") (hread : table k = some record)
    (hundecided : Undecided record) (hdecision : decision.hasFloat = false) :
    ∃ item, Table.updated (decisionClauses clock decision approver comment) record = some item ∧
      recordDecision clock (.str k) decision approver comment table =
        (.ok (), table.write k item) := by
  obtain ⟨fields, rfl⟩ := hundecided.obj
  obtain ⟨fields', hitem⟩ : ∃ fields',
      Table.updated (decisionClauses clock decision approver comment) (.obj fields) =
        some (.obj fields') :=
    Table.updated_constants (by simp [decisionClauses])
  have hupdate : table.updateItem "request_id" (.str k)
      (decisionClauses clock decision approver comment) (some undecidedCondition) =
        (.ok (.obj fields'), table.write k (.obj fields')) := by
    refine Table.updateItem_ok hne ?_ ?_ ?_
    · simp [decisionClauses, Operand.hasFloat, Json.hasFloat, hdecision, seconds]
    · simpa [hread] using undecidedCondition_holds.mpr hundecided
    · simpa [hread] using hitem
  exact ⟨_, hitem, by simp only [recordDecision, hupdate]⟩

/-- `recordDecision` fails, or it found the record undecided and decided it. -/
theorem recordDecision_cases (clock : Clock) (requestId decision : Json) (approver comment : String)
    (table : Table) :
    (∃ e, recordDecision clock requestId decision approver comment table = (.error e, table)) ∨
    ∃ k record item, requestId = .str k ∧ table k = some record ∧ Undecided record ∧
      Table.updated (decisionClauses clock decision approver comment) record = some item ∧
      recordDecision clock requestId decision approver comment table =
        (.ok (), table.write k item) := by
  unfold recordDecision
  rcases Table.updateItem_cases "request_id" requestId
      (decisionClauses clock decision approver comment) (some undecidedCondition) table with
    ⟨e, heq⟩ | ⟨k, item, rfl, _, hcondition, hitem, heq⟩
  · cases e with
    | conditionalCheckFailed => exact .inl ⟨alreadyDecidedError requestId, by simp only [heq]⟩
    | _ => exact .inl ⟨_, by simp only [heq]; rfl⟩
  · have hundecided := undecidedCondition_holds.mp (hcondition _ rfl)
    cases hread : table k with
    | none => simp [Undecided, hread, Json.field] at hundecided
    | some record =>
        rw [hread, Option.getD_some] at hundecided hitem
        exact .inr ⟨k, record, item, rfl, hread, hundecided, hitem, by simp only [heq]⟩

end ApprovalStore

end ApprovalWorkflow
