-- SUMMARY: The iteration of one shard: where it may stand, the two ways it ends, and what the summary makes of the outputs.
import ServerlessPatterns.Library.Ranges
import ServerlessPatterns.ScheduledBatch.StateMachine

/-!
# Iterations of the shards
-/

namespace ScheduledBatch

open Asl Python IndexRange Relation

/-- The range of the shard's records. -/
def rangeOf (doc : Json) : Option (Int × Int) :=
  match doc.field "range_start", doc.field "range_end" with
  | some (.num (.int start)), some (.num (.int stop)) => some (start, stop)
  | _, _ => none

theorem rangeOf_shard {runSource : Json} {i : Nat} :
    rangeOf (shard runSource i) = some ((bucket 1000 i).start, (bucket 1000 i).stop) := rfl

/-! ## The two ends -/

/-- The result of a shard that was processed. -/
def processedResult (i : Nat) : Json :=
  .obj [("shard_id", .num (.int i)), ("status", .str "SUCCEEDED"), ("processed", .num (.int 1000))]

/-- What `ShardFailed` makes of a shard that was not. -/
def capturedResult (i : Nat) (err : TaskError) : Json :=
  .obj [("shard_id", .num (.int i)), ("status", .str "FAILED"), ("error", err.output)]

/-- The input of `ShardFailed`. -/
def withError (runSource : Json) (i : Nat) (err : TaskError) : Json :=
  .obj [("shard_id", .num (.int i)), ("run_source", runSource),
    ("range_start", .num (.int (i * 1000))), ("range_end", .num (.int ((i + 1) * 1000))),
    ("error", err.output)]

/-- Where the iteration of a shard may stand. -/
inductive ShardRun (losses : Losses) (runSource : Json) (i : Nat) : Execution ShardState → Prop where
  | processing {left} (hleft : left ≤ 3) :
      ShardRun losses runSource i (.running .processShard (shard runSource i) [left])
  | capturing {err} (hlost : losses.inside .processShard err) :
      ShardRun losses runSource i (.running .shardFailed (withError runSource i err) [])
  | processed : ShardRun losses runSource i (.succeeded .processShard (processedResult i))
  | captured {err} (hlost : losses.inside .processShard err) :
      ShardRun losses runSource i (.succeeded .shardFailed (capturedResult i err))

variable {rt : Runtime} {losses : Losses} {runSource : Json} {i : Nat} {e : Execution ShardState}

theorem shardRun_start : ShardRun losses runSource i (iterator.start (shard runSource i)) :=
  .processing (le_refl 3)

theorem event_wholeInput {σ : Type} {t : Task σ Function} (hintegration : t.integration = .invoke)
    (hparameters : t.parameters = some wholeInput) {context data : Json} :
    t.event context data = some data := by
  unfold Task.event
  rw [hintegration, hparameters]
  rfl

theorem caught_processShard {err : TaskError} :
    processShardTask.caught (shard runSource i) err =
      .goto .shardFailed (withError runSource i err) := by
  simp [OutputTask.caught, processShardTask]
  rfl

/-- An attempt that failed is followed by another one, or the error is captured. -/
theorem fault_processShard (runSource : Json) (i left : Nat) (err : TaskError) :
    (0 < left ∧ processShardTask.fault (shard runSource i) [left] err = .again [left - 1]) ∨
    processShardTask.fault (shard runSource i) [left] err =
      .goto .shardFailed (withError runSource i err) := by
  rw [← caught_processShard]
  exact OutputTask.fault_single rfl

theorem function_process {shards : Nat} (hshards : defaultShards rt = .ok shards)
    {outcome : Except Exc Json} :
    function rt .process (shard runSource i) outcome ↔ outcome = .ok (processedResult i) := by
  change outcome = (do let _ ← defaultShards rt; process rt (shard runSource i)) ↔ _
  rw [hshards]
  simp only [Bind.bind, Except.bind]
  rw [process_shard, processedResult]

/-- An attempt at a shard is reported with the number of its records, or it is lost. -/
theorem reports_process {shards : Nat} (hshards : defaultShards rt = .ok shards)
    {report : Except TaskError Json}
    (h : Reports (function rt) (losses.inside .processShard) processShardTask.toTask
      (shard runSource i) report) :
    report = .ok (processShardTask.wrap (processedResult i)) ∨
      ∃ err, losses.inside .processShard err ∧ report = .error err := by
  rcases h.of_ok fun outcome h => ⟨_, rfl, (function_process hshards).mp h⟩ with ⟨_, rfl, hok⟩ | hlost
  · exact .inl hok
  · exact .inr hlost

theorem complete_processShard {context data : Json} {left : List Nat} :
    processShardTask.resume context data left (.ok (processShardTask.wrap (processedResult i))) =
      .finish (processedResult i) := rfl

theorem eval_shardFailed {context : Json} {err : TaskError} :
    shardFailedParameters.eval context (withError runSource i err) = some (capturedResult i err) := rfl

theorem shardRun_step {shards : Nat} (hshards : defaultShards rt = .ok shards)
    {e' : Execution ShardState} (h : ShardRun losses runSource i e) (hstep : ShardStep rt losses e e') :
    ShardRun losses runSource i e' := by
  cases hstep with
  | move hmoves =>
      cases h with
      | @processing left hleft =>
          obtain ⟨context, report, hreport, rfl⟩ :=
            Leaf.Moves.task (fun context => event_wholeInput rfl rfl) hmoves
          rcases reports_process hshards hreport with rfl | ⟨err, hlost, rfl⟩
          · rw [complete_processShard]
            exact .processed
          · rw [OutputTask.resume]
            rcases fault_processShard runSource i left err with ⟨_, hagain⟩ | hcaught
            · rw [hagain]
              exact .processing (by omega)
            · rw [hcaught]
              exact .capturing hlost
      | @capturing err hlost =>
          cases hmoves with
          | pass =>
              rw [eval_shardFailed]
              exact .captured hlost

/-! ## The outputs of all shards -/

/-- The iteration ended in `ShardFailed`. -/
def isCaptured : Iteration ShardState → Bool
  | .started (.succeeded .shardFailed _) => true
  | _ => false

/-- The iterations of some shards at their ends, and their outputs. -/
inductive Ends (losses : Losses) : List Nat → List (Iteration ShardState) → List Json → Prop where
  | nil : Ends losses [] [] []
  | processed {i ids iterations outputs} (rest : Ends losses ids iterations outputs) :
      Ends losses (i :: ids) (.started (.succeeded .processShard (processedResult i)) :: iterations)
        (processedResult i :: outputs)
  | captured {i err ids iterations outputs} (hlost : losses.inside .processShard err)
      (rest : Ends losses ids iterations outputs) :
      Ends losses (i :: ids) (.started (.succeeded .shardFailed (capturedResult i err)) :: iterations)
        (capturedResult i err :: outputs)

/-- What the iterations keep, whatever item they are for. -/
def Keeps (losses : Losses) (runSource item : Json) (e : Execution ShardState) : Prop :=
  ∀ i, item = shard runSource i → ShardRun losses runSource i e

/-- The records of the ranges whose iterations ended in `ShardFailed`. -/
def failedRecords (ranges : List IndexRange) (iterations : List (Iteration ShardState)) : Int :=
  (((ranges.zip iterations).filter fun x => isCaptured x.2).map fun x => x.1.size).sum

variable {ids : List Nat} {iterations : List (Iteration ShardState)} {outputs : List Json}

theorem ends_of_outputs
    (h : List.Forall₂ (Iteration.Holds (Keeps losses runSource)) (ids.map (shard runSource)) iterations)
    (houtputs : iterations.map Iteration.output = outputs.map some) :
    Ends losses ids iterations outputs := by
  rw [List.forall₂_map_left_iff] at h
  induction h generalizing outputs with
  | nil =>
      cases outputs with
      | nil => exact .nil
      | cons _ _ => cases houtputs
  | @cons i first ids iterations hfirst _ ih =>
      cases outputs with
      | nil => cases houtputs
      | cons output outputs =>
          injection houtputs with houtput hrest
          cases first with
          | waiting item => cases houtput
          | started e =>
              cases hfirst i rfl with
              | processing _ => cases houtput
              | capturing _ => cases houtput
              | processed =>
                  injection houtput with houtput
                  exact houtput ▸ .processed (ih hrest)
              | captured hlost =>
                  injection houtput with houtput
                  exact houtput ▸ .captured hlost (ih hrest)

namespace Ends

theorem length_eq (h : Ends losses ids iterations outputs) :
    iterations.length = ids.length ∧ outputs.length = ids.length := by
  induction h with
  | nil => exact ⟨rfl, rfl⟩
  | processed _ ih | captured _ _ ih => exact ⟨congrArg (· + 1) ih.1, congrArg (· + 1) ih.2⟩

theorem map_output (h : Ends losses ids iterations outputs) :
    iterations.map Iteration.output = outputs.map some := by
  induction h with
  | nil => rfl
  | processed _ ih | captured _ _ ih => exact congrArg (_ :: ·) ih

theorem ended (h : Ends losses ids iterations outputs) : ∀ i ∈ iterations, i.Ended := by
  induction h with
  | nil => exact nofun
  | processed _ ih | captured _ _ ih => exact List.forall_mem_cons.mpr ⟨trivial, ih⟩

variable (rt) in
/-- The iterations that were not captured are those that `reduce` counts as succeeded,
    with all of their records. -/
theorem succeeded (h : Ends losses ids iterations outputs) :
    ∃ succeeded, withStatus "SUCCEEDED" outputs = .ok succeeded ∧
      succeeded.length + iterations.countP isCaptured = ids.length ∧
      sumProcessed rt succeeded = .ok (1000 * succeeded.length) := by
  induction h with
  | nil => exact ⟨[], rfl, rfl, rfl⟩
  | @processed i ids iterations outputs _ ih =>
      obtain ⟨succeeded, hsucceeded, hcount, hsum⟩ := ih
      refine ⟨processedResult i :: succeeded,
        withStatus_cons.mpr ⟨_, succeeded, rfl, hsucceeded, rfl⟩, ?_, ?_⟩
      · rw [List.length_cons, List.length_cons, List.countP_cons_of_neg Bool.false_ne_true]
        omega
      · refine sumProcessed_cons.mpr ⟨_, 1000, _, rfl, rfl, hsum, ?_⟩
        rw [List.length_cons]
        push_cast
        ring
  | captured _ _ ih =>
      obtain ⟨succeeded, hsucceeded, hcount, hsum⟩ := ih
      refine ⟨succeeded, withStatus_cons.mpr ⟨_, succeeded, rfl, hsucceeded, rfl⟩, ?_, hsum⟩
      rw [List.length_cons, List.countP_cons_of_pos rfl]
      omega

/-- Those that were captured are those that it counts as failed. -/
theorem failed (h : Ends losses ids iterations outputs) :
    ∃ failed, withStatus "FAILED" outputs = .ok failed ∧
      failed.length = iterations.countP isCaptured := by
  induction h with
  | nil => exact ⟨[], rfl, rfl⟩
  | processed _ ih =>
      obtain ⟨failed, hfailed, hcount⟩ := ih
      refine ⟨failed, withStatus_cons.mpr ⟨_, failed, rfl, hfailed, rfl⟩, ?_⟩
      rw [List.countP_cons_of_neg Bool.false_ne_true, hcount]
  | @captured i err ids iterations outputs _ _ ih =>
      obtain ⟨failed, hfailed, hcount⟩ := ih
      refine ⟨capturedResult i err :: failed,
        withStatus_cons.mpr ⟨_, failed, rfl, hfailed, rfl⟩, ?_⟩
      rw [List.length_cons, List.countP_cons_of_pos rfl, hcount]

theorem failedRecords_eq (h : Ends losses ids iterations outputs) :
    failedRecords (ids.map (bucket 1000)) iterations = 1000 * iterations.countP isCaptured := by
  induction h with
  | nil => rfl
  | @processed i ids iterations outputs _ ih =>
      rw [List.countP_cons_of_neg Bool.false_ne_true, ← ih]
      rfl
  | @captured i err ids iterations outputs _ _ ih =>
      rw [List.countP_cons_of_pos rfl]
      change (bucket 1000 i).size + failedRecords (ids.map (bucket 1000)) iterations = _
      rw [ih, size_bucket]
      push_cast
      ring

/-- An iteration was captured for an error that its attempts may be lost with. -/
theorem exists_lost (h : Ends losses ids iterations outputs) (hcaptured : 0 < iterations.countP isCaptured) :
    ∃ err, losses.inside .processShard err := by
  induction h with
  | nil => exact absurd hcaptured (lt_irrefl 0)
  | processed _ ih =>
      rw [List.countP_cons_of_neg Bool.false_ne_true] at hcaptured
      exact ih hcaptured
  | captured hlost _ _ => exact ⟨_, hlost⟩

end Ends

end ScheduledBatch
