-- SUMMARY: The payload of a job is stored and read back exactly when no `float` occurs in it.
import ServerlessPatterns.LongRunning.Steps
import ServerlessPatterns.Library.Serialization
import ServerlessPatterns.Library.WeakestPre

/-!
# The payload of a job

`submit_job` makes numbers of its own fields `Decimal`s and passes the payload on as it
came.
-/

namespace LongRunning

open Program

variable {py : Python} {env : Env} {reads : Reads} {fields payload : List (String × Json)}
  {w w' : World}

/-- A job that is accepted and can be stored, whatever its payload is. -/
structure SubmittedJob (py : Python) (fields : List (String × Json)) : Prop where
  jobId : ∀ v, fields.lookup "job_id" = some v → v.truthy = true → ∃ k, v = .str k
  simulation : ∃ simulated, simulation py (.obj fields) = .ok simulated

/-- The store has the payload under the reported job id. -/
def HasPayload (payload : List (String × Json)) (report : Json) (w : World) : Prop :=
  ∃ jobId, report.field "job_id" = some jobId ∧
    w.table.ReadsBack JobStore.get "payload" (.obj payload) jobId

/-- `submit_job` returns, and the payload is stored. -/
def PayloadStored (py : Python) (env : Env) (reads : Reads) (fields payload : List (String × Json)) :
    Prop :=
  ∀ w calls outcome w', Attempt (exec py reads) (submitJob py env (.obj fields)) w calls outcome w' →
    outcome ≠ .lost → ∃ report, outcome = .returned report ∧ HasPayload payload report w'

/-! ## The item -/

theorem get_str {k : String} {table : Table} (hne : k ≠ "") :
    JobStore.get (.str k) table = .ok (table k) := by
  rw [JobStore.get, Table.getItem, Table.keyOf_str hne]
  rfl

theorem newItem_payload {clock : Clock} {k : String} {n : Int} {fail : Bool} {ttl : Option Int} :
    (JobStore.newItem clock (.str k) n fail (.obj payload) ttl).field "payload" =
      some (.obj payload) := by
  simp [JobStore.newItem, List.lookup_cons, Json.orElse_obj]

/-! ## The handler -/

theorem createJob_wp {k : String} (h : SubmittedJob py fields)
    (hpayload : fields.lookup "payload" = some (.obj payload)) (hne : k ≠ "") :
    (createJob py env (.obj fields) (.str k)).wp (exec py reads)
      (fun report w' => (Json.obj payload).hasFloat = false ∧ HasPayload payload report w')
      (fun _ _ => ¬ (Json.obj payload).hasFloat = false) w := by
  obtain ⟨⟨n, fail⟩, hsimulation⟩ := h.simulation
  unfold createJob
  rw [Json.orElse_obj, hsimulation, Python.get_obj, hpayload, Option.getD_some]
  simp only [ofExcept_ok, ret_bind]
  rw [Json.orElse_obj]
  rintro answer w' ⟨clock, rfl, rfl⟩
  simp only [create_eq hne, Json.orElse_obj]
  cases (Json.obj payload).hasFloat with
  | true => exact Bool.noConfusion
  | false =>
      exact ⟨rfl, .str k, rfl, Table.readsBack_write (fun _ => get_str hne) newItem_payload⟩

/-- The handler returns with the payload stored, or it raises for a `float` in it. -/
theorem submitJob_wp (h : SubmittedJob py fields)
    (hpayload : fields.lookup "payload" = some (.obj payload)) :
    (submitJob py env (.obj fields)).wp (exec py reads)
      (fun report w' => (Json.obj payload).hasFloat = false ∧ HasPayload payload report w')
      (fun _ _ => ¬ (Json.obj payload).hasFloat = false) w := by
  rw [submitJob_eq, Json.orElse_obj, Python.get_obj, ofExcept_ok, ret_bind]
  split_ifs with htruthy
  · obtain ⟨k, hne, hgiven⟩ := Json.given_str h.jobId htruthy
    rw [hgiven]
    exact createJob_wp h hpayload hne
  · rintro id w' ⟨_, hex, _, rfl⟩
    exact createJob_wp h hpayload (by simp)

theorem payloadStored_iff (h : SubmittedJob py fields)
    (hpayload : fields.lookup "payload" = some (.obj payload)) :
    PayloadStored py env reads fields payload ↔ (Json.obj payload).hasFloat = false :=
  returns_iff answer_exec emptyWorld fun _ => submitJob_wp h hpayload

end LongRunning
