-- SUMMARY: What a batch comes to in the end: exactly which summaries and failures, under every limit on its concurrency.
import ServerlessPatterns.ScheduledBatch.Runs

/-!
# The ends of a batch

Any of the shards may be those that fail, if attempts at them are lost at all, and in a
summary only their number shows. `MaxConcurrency` has no part in what a batch comes to.
-/

namespace ScheduledBatch

open Asl Python Relation Transition

/-- What the batch may end in. -/
inductive EndsIn (losses : Losses) (shards : Nat) : Batch → Prop where
  | splitFailed {err} (hlost : losses.outside .split err) : EndsIn losses shards (.failed .split err)
  | reduceFailed {err} (hlost : losses.outside .reduce err) : EndsIn losses shards (.failed .reduce err)
  /-- A shard fails only for an error that an attempt at it was lost with. -/
  | summarised {failed : Nat} {now : String} (hle : failed ≤ shards)
      (hlost : 0 < failed → ∃ err, losses.inside .processShard err) :
      EndsIn losses shards (.succeeded .reduce (summaryOf shards failed now))

/-- Every run of the batch ends in one of these ways, and each of them is the end of some
    run. -/
structure EndsExactly (rt : Runtime) (maxConcurrency : Nat) (losses : Losses) (shards : Nat)
    (input : Json) : Prop where
  ends : ∀ run : Run rt maxConcurrency losses input,
    ∃ n, Stuck (Step rt maxConcurrency losses) (run.state n) ∧ EndsIn losses shards (run.state n)
  reached : ∀ c, EndsIn losses shards c →
    ReflTransGen (Step rt maxConcurrency losses) (start maxConcurrency input) c ∧
      Stuck (Step rt maxConcurrency losses) c

variable {rt : Runtime} {losses : Losses} {maxConcurrency shards : Nat}
  {fields : List (String × Json)} {c : Batch} {err : TaskError}

/-! ## Only these ends -/

theorem endsIn_of_stuck (hshards : defaultShards rt = .ok shards)
    (hreach : ReflTransGen (Step rt maxConcurrency losses) (start maxConcurrency (.obj fields)) c)
    (hstuck : Stuck (Step rt maxConcurrency losses) c) : EndsIn losses shards c := by
  rcases before_or_after hshards hreach with hbefore | ⟨iterations, hafter⟩
  · cases hbefore with
    | splitting => exact absurd hstuck (not_stuck_running rfl)
    | splitFailed hlost => exact .splitFailed hlost
    | mapping _ => exact absurd hstuck not_stuck_mapping
  · cases hafter with
    | reducing _ => exact absurd hstuck (not_stuck_running rfl)
    | reduceFailed hlost => exact .reduceFailed hlost
    | summarised hends =>
        refine .summarised ?_ hends.exists_lost
        have hlength := hends.length_eq.1
        rw [List.length_range] at hlength
        exact hlength ▸ List.countP_le_length

theorem stuck_of_endsIn (h : EndsIn losses shards c) : Stuck (Step rt maxConcurrency losses) c := by
  intro c' hstep
  cases h with
  | splitFailed _ => cases hstep
  | reduceFailed _ => cases hstep
  | summarised _ _ => cases hstep

/-! ## The iterations -/

theorem shardStep_report (runSource : Json) (i left : Nat) {report : Except TaskError Json}
    (h : Reports (function rt) (losses.inside .processShard) processShardTask.toTask
      (shard runSource i) report) :
    ShardStep rt losses (.running .processShard (shard runSource i) [left])
      (iterator.follow .processShard (shard runSource i)
        (processShardTask.resume .null (shard runSource i) [left] report)) :=
  .move (.attempt (event_wholeInput rfl rfl) h)

theorem shard_succeeds (hshards : defaultShards rt = .ok shards) {runSource : Json} {i : Nat} :
    ReflTransGen (ShardStep rt losses) (iterator.start (shard runSource i))
      (.succeeded .processShard (processedResult i)) := by
  have hstep : ShardStep rt losses _ _ := shardStep_report runSource i 3
    (.returned ((function_process hshards).mpr rfl))
  rw [complete_processShard] at hstep
  exact .single hstep

/-- With every attempt lost, the error is captured sooner or later. -/
theorem shard_captured (hlost : losses.inside .processShard err) {runSource : Json} {i : Nat} (left : Nat) :
    ReflTransGen (ShardStep rt losses) (.running .processShard (shard runSource i) [left])
      (.running .shardFailed (withError runSource i err) []) := by
  let trying (left : Nat) : Execution ShardState := .running .processShard (shard runSource i) [left]
  refine reaches_of_countdown trying (fun left => ?_) left
  have hstep : ShardStep rt losses _ _ := shardStep_report runSource i left (.lost hlost)
  rw [OutputTask.resume] at hstep
  rcases fault_processShard runSource i left err with ⟨hpos, hagain⟩ | hcaught
  · rw [hagain] at hstep
    exact .inl ⟨hpos, hstep⟩
  · rw [hcaught] at hstep
    exact .inr hstep

theorem shard_fails (hlost : losses.inside .processShard err) {runSource : Json} {i : Nat} :
    ReflTransGen (ShardStep rt losses) (iterator.start (shard runSource i))
      (.succeeded .shardFailed (capturedResult i err)) := by
  have hpass : ShardStep rt losses (.running .shardFailed (withError runSource i err) [])
      (iterator.follow .shardFailed (withError runSource i err)
        (.onward none (shardFailedParameters.eval .null (withError runSource i err)))) := .move .pass
  rw [eval_shardFailed] at hpass
  exact (shard_captured hlost 3).tail hpass

/-- Each shard may come to the end that is picked for it. -/
theorem exists_shard_ends (hshards : defaultShards rt = .ok shards) (runSource : Json) (ids : List Nat)
    (failing : List Bool) (hlength : failing.length = ids.length)
    (hlost : true ∈ failing → ∃ err, losses.inside .processShard err) :
    ∃ ends outputs, List.Forall₂ (fun item e => Iteration.Ended (.started e) ∧
        ReflTransGen (ShardStep rt losses) (iterator.start item) e) (ids.map (shard runSource)) ends ∧
      Ends losses ids (ends.map .started) outputs ∧
      (ends.map Iteration.started).map isCaptured = failing := by
  induction ids generalizing failing with
  | nil => exact ⟨[], [], .nil, .nil, (List.length_eq_zero_iff.mp hlength).symm⟩
  | cons i ids ih =>
      cases failing with
      | nil => cases hlength
      | cons fails failing =>
          obtain ⟨ends, outputs, hreaches, hends, hflags⟩ := ih failing (Nat.succ.inj hlength)
            fun hmem => hlost (List.mem_cons_of_mem _ hmem)
          cases fails with
          | true =>
              obtain ⟨err, herr⟩ := hlost List.mem_cons_self
              refine ⟨.succeeded .shardFailed (capturedResult i err) :: ends, _,
                .cons ⟨trivial, shard_fails herr⟩ hreaches, .captured herr hends, ?_⟩
              rw [List.map_cons, List.map_cons, hflags]
              rfl
          | false =>
              refine ⟨.succeeded .processShard (processedResult i) :: ends, _,
                .cons ⟨trivial, shard_succeeds hshards⟩ hreaches, .processed hends, ?_⟩
              rw [List.map_cons, List.map_cons, hflags]
              rfl

/-! ## The states outside the iterations -/

/-- A task whose attempts are all lost fails in the end. -/
theorem task_fails {s : StateName} {t : OutputTask StateName Function} {data : Json} {r : Retrier}
    (hnode : (machine maxConcurrency).nodes s = .leaf (.task t))
    (hevent : t.event .null data = some data) (hretry : t.retry = [r]) (hcatchers : t.catchers = [])
    (hlost : losses.outside s err) (left : Nat) :
    ReflTransGen (Step rt maxConcurrency losses) (.running s data [left]) (.failed s err) := by
  refine reaches_of_countdown (fun left => MapExecution.running s data [left]) (fun left => ?_) left
  have hstep : Step rt maxConcurrency losses (.running s data [left])
      ((machine maxConcurrency).follow s data (t.fault data [left] err)) :=
    .leaf hnode (.attempt hevent (.lost hlost))
  rcases t.fault_uncaught hretry hcatchers with ⟨hpos, hagain⟩ | hfail
  · rw [hagain] at hstep
    exact .inl ⟨hpos, hstep⟩
  · rw [hfail] at hstep
    exact .inr hstep

/-- Any of the shards may be those that fail, if any may. -/
theorem exists_ends (maxConcurrency : Nat) (fields : List (String × Json))
    (hshards : defaultShards rt = .ok shards) (failing : List Bool) (hlength : failing.length = shards)
    (hlost : true ∈ failing → ∃ err, losses.inside .processShard err) :
    ∃ iterations outputs, Ends losses (List.range shards) iterations outputs ∧
      iterations.map isCaptured = failing ∧
      ReflTransGen (Step rt maxConcurrency losses) (start maxConcurrency (.obj fields))
        (.running .reduce (resultsData shards fields outputs) [4]) := by
  obtain ⟨ends, outputs, hreaches, hends, hflags⟩ := exists_shard_ends hshards (runSourceOf fields)
    (List.range shards) failing (by simpa using hlength) hlost
  have hstart : Step rt maxConcurrency losses (start maxConcurrency (.obj fields))
      ((machine maxConcurrency).follow .split (.obj fields) (splitTask.resume .null (.obj fields) [4]
        (.ok (splitTask.wrap (splitResult shards fields ""))))) :=
    .leaf rfl (.attempt (event_wholeInput rfl rfl) (.returned ((function_split hshards).mpr ⟨"", rfl⟩)))
  rw [complete_split, follow_split] at hstart
  have hjoin : Step rt maxConcurrency losses
      (.mapping .processShards (.obj (splitFields shards fields)) (ends.map .started))
      ((machine maxConcurrency).follow .processShards (.obj (splitFields shards fields))
        (.onward (processShards maxConcurrency).next ((Json.obj (splitFields shards fields)).put
          (processShards maxConcurrency).resultPath (.arr outputs)))) := .join rfl hends.map_output
  exact ⟨_, outputs, hends, hflags, ((MapMachine.mapping_reaches rfl hreaches).head hstart).tail hjoin⟩

/-! ## All of these ends -/

theorem reaches_summary (hshards : defaultShards rt = .ok shards) {failed : Nat} (now : String)
    (hle : failed ≤ shards) (hlost : 0 < failed → ∃ err, losses.inside .processShard err) :
    ReflTransGen (Step rt maxConcurrency losses) (start maxConcurrency (.obj fields))
      (.succeeded .reduce (summaryOf shards failed now)) := by
  have hany : true ∈ List.replicate failed true ++ List.replicate (shards - failed) false →
      ∃ err, losses.inside .processShard err := by
    intro hmem
    apply hlost
    simpa [Nat.pos_iff_ne_zero] using hmem
  obtain ⟨iterations, outputs, hends, hflags, hreach⟩ := exists_ends maxConcurrency fields hshards
    (List.replicate failed true ++ List.replicate (shards - failed) false) (by simp; omega) hany
  have hcount : iterations.countP isCaptured = failed := by
    have hmap : iterations.countP isCaptured = (iterations.map isCaptured).countP id := by
      rw [List.countP_map, Function.id_comp]
    rw [hmap, hflags, List.countP_append, List.countP_replicate, List.countP_replicate]
    simp
  have hstep : Step rt maxConcurrency losses (.running .reduce (resultsData shards fields outputs) [4])
      ((machine maxConcurrency).follow .reduce (resultsData shards fields outputs)
        (reduceTask.resume .null (resultsData shards fields outputs) [4]
          (.ok (reduceTask.wrap (summaryOf shards (iterations.countP isCaptured) now))))) :=
    .leaf rfl (.attempt (event_wholeInput rfl rfl)
      (.returned ((function_reduce hshards hends).mpr ⟨now, rfl⟩)))
  rw [hcount] at hstep
  exact hreach.tail hstep

theorem reaches_of_endsIn (hshards : defaultShards rt = .ok shards) (h : EndsIn losses shards c) :
    ReflTransGen (Step rt maxConcurrency losses) (start maxConcurrency (.obj fields)) c := by
  cases h with
  | splitFailed hlost => exact task_fails (t := splitTask) rfl (event_wholeInput rfl rfl) rfl rfl hlost 4
  | reduceFailed hlost =>
      have hnone : true ∈ List.replicate shards false → ∃ err, losses.inside .processShard err := by
        simp
      obtain ⟨_, outputs, _, _, hreach⟩ := exists_ends maxConcurrency fields hshards
        (List.replicate shards false) (by simp) hnone
      exact hreach.trans
        (task_fails (t := reduceTask) rfl (event_wholeInput rfl rfl) rfl rfl hlost 4)
  | summarised hle hlost => exact reaches_summary hshards _ hle hlost

/-- For every input, number of shards and limit on the concurrency, and whichever attempts
    may be lost. -/
theorem endsExactly (hshards : defaultShards rt = .ok shards) :
    EndsExactly rt maxConcurrency losses shards (.obj fields) where
  ends run := by
    obtain ⟨n, hstuck⟩ := batch_halts hshards run
    exact ⟨n, hstuck, endsIn_of_stuck hshards (run.reachable n) hstuck⟩
  reached _ h := ⟨reaches_of_endsIn hshards h, stuck_of_endsIn h⟩

/-- One of the two shards fails, and the other is done. -/
theorem endsExactly_partial :
    ReflTransGen (Step twoShards 1 anyLoss)
      (start 1 (.obj [("run_source", .str "eventbridge-scheduler")]))
      (.succeeded .reduce (.obj [("shards_total", .num (.int 2)), ("shards_succeeded", .num (.int 1)),
        ("shards_failed", .num (.int 1)), ("records_processed", .num (.int 1000)),
        ("status", .str "PARTIAL"), ("finished_at", .str "2025-01-01T00:00:00+00:00")])) := by
  have hshards : defaultShards twoShards = .ok 2 := by decide +kernel
  have hends : EndsIn anyLoss 2 (.succeeded .reduce (summaryOf 2 1 "2025-01-01T00:00:00+00:00")) :=
    .summarised (by decide) fun _ => ⟨⟨"Lambda.Unknown", ""⟩, trivial⟩
  exact ((endsExactly hshards).reached _ hends).1

end ScheduledBatch
