-- SUMMARY: Metadata that callers pass through: which of it the approval and the job store take.
import ServerlessPatterns.ApprovalWorkflow.Context
import ServerlessPatterns.LongRunning.Payload

/-!
# Metadata of callers

The context of a request and the payload of a job are no concern of the handlers. JSON
numbers with a fraction or an exponent arrive as `float`s, which the table does not take.
-/

namespace Metadata

open ApprovalWorkflow LongRunning

/-- An input that is otherwise accepted is stored with its metadata exactly when no number
    in them has a fraction or an exponent. -/
theorem metadata_stored_iff {py : Python} {metadata : List (String × Json)} :
    (∀ fields, RequestInput py fields → fields.lookup "context" = some (.obj metadata) →
      (ContextStored py fields metadata ↔ (Json.obj metadata).hasFloat = false)) ∧
    ∀ env reads fields, SubmittedJob py fields → fields.lookup "payload" = some (.obj metadata) →
      (PayloadStored py env reads fields metadata ↔ (Json.obj metadata).hasFloat = false) :=
  ⟨fun _ => contextStored_iff, fun _ _ _ => payloadStored_iff⟩

def sampleRequest (metadata : List (String × Json)) : List (String × Json) :=
  [("title", .str "Laptop"), ("amount", .num (.int 1200)), ("context", .obj metadata)]

def sampleJob (metadata : List (String × Json)) : List (String × Json) :=
  [("job_id", .str "job-1"), ("payload", .obj metadata)]

theorem requestInput_sampleRequest {metadata : List (String × Json)} :
    RequestInput .sample (sampleRequest metadata) where
  title := ⟨"Laptop", rfl, by decide⟩
  requestId := nofun
  amount := ⟨_, _, rfl, rfl⟩

theorem submittedJob_sampleJob {metadata : List (String × Json)} :
    SubmittedJob .sample (sampleJob metadata) where
  jobId := by
    intro v hlookup _
    exact ⟨"job-1", (Option.some.inj hlookup).symm⟩
  simulation := ⟨_, rfl⟩

def nested : List (String × Json) :=
  [("items", .arr [.num (.int 2), .null, .obj [("note", .str "spare")]]), ("urgent", .bool true)]

theorem metadata_stored_iff_nested : ContextStored .sample (sampleRequest nested) nested ∧
    ∀ env reads, PayloadStored .sample env reads (sampleJob nested) nested := by
  have hrequest : (sampleRequest nested).lookup "context" = some (.obj nested) := rfl
  have hjob : (sampleJob nested).lookup "payload" = some (.obj nested) := rfl
  exact ⟨(metadata_stored_iff.1 _ requestInput_sampleRequest hrequest).mpr rfl, fun env reads =>
    (metadata_stored_iff.2 env reads _ submittedJob_sampleJob hjob).mpr rfl⟩

def ratio : List (String × Json) := [("ratio", .num (.float (.finite (1 / 2))))]

theorem metadata_stored_counterexample : ¬ ContextStored .sample (sampleRequest ratio) ratio ∧
    ∀ env reads, ¬ PayloadStored .sample env reads (sampleJob ratio) ratio := by
  have hfloat : ¬ (Json.obj ratio).hasFloat = false := by decide
  constructor
  · rw [contextStored_iff requestInput_sampleRequest rfl]
    exact hfloat
  · intro env reads
    rw [payloadStored_iff submittedJob_sampleJob rfl]
    exact hfloat

end Metadata
