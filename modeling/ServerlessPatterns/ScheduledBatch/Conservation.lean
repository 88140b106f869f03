-- SUMMARY: What a run of the batch conserves: every record of the partition is in the summary or in the range of a failed shard.
import ServerlessPatterns.ScheduledBatch.Shards

/-!
# Conservation of work
-/

namespace ScheduledBatch

open Asl Python IndexRange Relation Transition

/-! ## The law -/

/-- The state data hold shards with these ranges. -/
def ShardsAt (data : Json) (ranges : List IndexRange) : Prop :=
  ∃ shards, data.get ["split", "shards"] = some (.arr shards) ∧
    shards.map rangeOf = ranges.map fun r => some (r.start, r.stop)

/-- The ranges of the shards, the iterations at their ends and the summary of the run fit
    together. -/
structure Conserved (rt : Runtime) (shards : Nat) (ranges : List IndexRange)
    (iterations : List (Iteration ShardState)) (summary : Json) : Prop where
  partition : Partition ranges (1000 * shards)
  paired : ranges.length = shards ∧ iterations.length = shards
  total : summary.field "shards_total" = some (.num (.int shards))
  counts : ∃ succeeded failed : Nat,
    summary.field "shards_succeeded" = some (.num (.int succeeded)) ∧
    summary.field "shards_failed" = some (.num (.int failed)) ∧
    succeeded + failed = shards ∧ failed = iterations.countP isCaptured
  records : ∃ processed : Int, summary.field "records_processed" = some (.num (.int processed)) ∧
    processed + failedRecords ranges iterations = 1000 * shards
  status : summary.field "status" = some (.str "SUCCEEDED") ↔ ∀ i ∈ iterations, isCaptured i = false
  order : ∀ outputs results : List Json, iterations.map Iteration.output = outputs.map some →
    outputs.Perm results → ∀ now event, event.field "results" = some (.arr results) →
    ∃ summary', reduce rt now event = .ok summary' ∧
      ∀ key ≠ "finished_at", summary'.field key = summary.field key

variable {rt : Runtime} {losses : Losses} {maxConcurrency shards : Nat} {runSource : Json}
  {iterations : List (Iteration ShardState)} {outputs : List Json}

theorem ranges_of_shards {ids : List Nat} :
    (ids.map (shard runSource)).map rangeOf =
      (ids.map (bucket 1000)).map fun r => some (r.start, r.stop) := by
  rw [List.map_map, List.map_map]
  exact List.map_congr_left fun i _ => rangeOf_shard

theorem partition_shards : Partition ((List.range shards).map (bucket 1000)) (1000 * shards) := by
  rw [mul_comm]
  exact partition_buckets 1000 shards

/-- The summary of a run in which so many of the shards failed. -/
def summaryOf (shards failed : Nat) (now : String) : Json :=
  .obj [("shards_total", .num (.int shards)), ("shards_succeeded", .num (.int (shards - failed : Nat))),
    ("shards_failed", .num (.int failed)), ("records_processed", .num (.int (1000 * (shards - failed : Nat)))),
    ("status", .str (if failed = 0 then "SUCCEEDED" else "PARTIAL")), ("finished_at", .str now)]

/-- The outputs of all shards are summed up by how many of them are captured errors. -/
theorem reduce_ends (now : String) {event : Json} {ids : List Nat}
    (hends : Ends losses ids iterations outputs)
    (hevent : event.field "results" = some (.arr outputs)) :
    reduce rt now event = .ok (summaryOf ids.length (iterations.countP isCaptured) now) := by
  obtain ⟨succeeded, hsucceeded, hcount, hsum⟩ := hends.succeeded rt
  obtain ⟨failed, hfailed, hcaptured⟩ := hends.failed
  refine (reduce_iff hevent).mpr ⟨succeeded, failed, _, hsucceeded, hfailed, hsum, ?_⟩
  have hlength : succeeded.length = ids.length - iterations.countP isCaptured := by omega
  have hempty : (failed = []) = (iterations.countP isCaptured = 0) := by
    rw [← hcaptured, List.length_eq_zero_iff]
  simp only [summaryOf, hends.length_eq.2, hlength, hcaptured, hempty]

/-- Whatever `reduce` returns for the outputs of all shards, it conserves the work. -/
theorem conserved_of_reduce {now : String} {event summary : Json}
    (hends : Ends losses (List.range shards) iterations outputs)
    (hevent : event.field "results" = some (.arr outputs))
    (h : reduce rt now event = .ok summary) :
    Conserved rt shards ((List.range shards).map (bucket 1000)) iterations summary := by
  have hlength := hends.length_eq.1
  have hle : iterations.countP isCaptured ≤ iterations.length := List.countP_le_length
  have hsummary : reduce rt now event = _ := reduce_ends now hends hevent
  rw [List.length_range] at hlength hsummary
  obtain rfl := Except.ok.inj (h.symm.trans hsummary)
  refine ⟨partition_shards, ⟨by simp, hlength⟩, rfl, ⟨shards - iterations.countP isCaptured,
    iterations.countP isCaptured, rfl, rfl, by omega, rfl⟩, ⟨_, rfl, ?_⟩, ?_, ?_⟩
  · rw [hends.failedRecords_eq]
    omega
  · change some (Json.str (if iterations.countP isCaptured = 0 then "SUCCEEDED" else "PARTIAL")) = _ ↔ _
    have hempty : iterations.countP isCaptured = 0 ↔ ∀ i ∈ iterations, isCaptured i = false := by
      simp only [List.countP_eq_zero, Bool.not_eq_true]
    rw [← hempty]
    by_cases hnone : iterations.countP isCaptured = 0
    · simp only [hnone, if_true]
    · rw [if_neg hnone]
      simp [hnone]
  · intro outputs' results houtputs' hperm now' event' hevent'
    have hsame : outputs' = outputs :=
      List.map_injective_iff.mpr (Option.some_injective _) (houtputs'.symm.trans hends.map_output)
    rw [hsame] at hperm
    exact reduce_perm hperm hevent hevent' h

end ScheduledBatch
