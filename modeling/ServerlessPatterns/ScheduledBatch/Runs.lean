-- SUMMARY: Runs of the batch from its input to the summary: every run ends, and what it conserves.
import ServerlessPatterns.Library.Workflow
import ServerlessPatterns.ScheduledBatch.Conservation

/-!
# Runs of the batch
-/

namespace ScheduledBatch

open Asl Python IndexRange Relation Transition

/-! ## The state data -/

/-- `event.get("run_source", "manual")` -/
def runSourceOf (fields : List (String × Json)) : Json :=
  (fields.lookup "run_source").getD (.str "manual")

def shardItems (shards : Nat) (fields : List (String × Json)) : List Json :=
  (List.range shards).map (shard (runSourceOf fields))

def splitFields (shards : Nat) (fields : List (String × Json)) : List (String × Json) :=
  Fields.put "split" (.obj [("shards", .arr (shardItems shards fields))]) fields

/-- The state data when the shards have been processed. -/
def resultsData (shards : Nat) (fields : List (String × Json)) (outputs : List Json) : Json :=
  .obj (Fields.put "results" (.arr outputs) (splitFields shards fields))

variable {rt : Runtime} {losses : Losses} {maxConcurrency shards : Nat}
  {fields : List (String × Json)} {iterations : List (Iteration ShardState)} {c c' : Batch}

theorem get_splitFields : (Json.obj (splitFields shards fields)).get ["split", "shards"] =
    some (.arr (shardItems shards fields)) := by
  rw [Json.get_cons, Json.field_obj, splitFields, Fields.lookup_put_self]
  rfl

theorem shardsAt_splitFields : ShardsAt (.obj (splitFields shards fields))
    ((List.range shards).map (bucket 1000)) :=
  ⟨shardItems shards fields, get_splitFields, ranges_of_shards⟩

/-! ## Before and after the Map state -/

/-- Where a run may stand until the results of the shards are joined. -/
inductive Before (losses : Losses) (shards : Nat) (fields : List (String × Json)) : Batch → Prop where
  | splitting {left} : Before losses shards fields (.running .split (.obj fields) [left])
  | splitFailed {err} (h : losses.outside .split err) : Before losses shards fields (.failed .split err)
  | mapping {iterations : List (Iteration ShardState)}
      (h : List.Forall₂ (Iteration.Holds (Keeps losses (runSourceOf fields))) (shardItems shards fields)
        iterations) :
      Before losses shards fields (.mapping .processShards (.obj (splitFields shards fields)) iterations)

/-- Where it may stand from then on. -/
inductive After (losses : Losses) (shards : Nat) (fields : List (String × Json))
    (iterations : List (Iteration ShardState)) : Batch → Prop where
  | reducing {outputs left} (h : Ends losses (List.range shards) iterations outputs) :
      After losses shards fields iterations (.running .reduce (resultsData shards fields outputs) [left])
  | reduceFailed {err} (h : losses.outside .reduce err) :
      After losses shards fields iterations (.failed .reduce err)
  | summarised {outputs now} (h : Ends losses (List.range shards) iterations outputs) :
      After losses shards fields iterations
        (.succeeded .reduce (summaryOf shards (iterations.countP isCaptured) now))

theorem before_start : Before losses shards fields (start maxConcurrency (.obj fields)) := .splitting

/-- The result of Split, at some time of day. -/
def splitResult (shards : Nat) (fields : List (String × Json)) (now : String) : Json :=
  .obj [("shards", .arr (shardItems shards fields)), ("started_at", .str now)]

theorem function_split (hshards : defaultShards rt = .ok shards) {outcome : Except Exc Json} :
    function rt .split (.obj fields) outcome ↔ ∃ now, outcome = .ok (splitResult shards fields now) := by
  change (∃ now, outcome = (do let n ← defaultShards rt; split n now (.obj fields))) ↔ _
  rw [hshards]
  change (∃ now, outcome = split shards now (.obj fields)) ↔ _
  simp only [split_obj]
  rfl

theorem reports_split (hshards : defaultShards rt = .ok shards) {report : Except TaskError Json}
    (h : Reports (function rt) (losses.outside .split) splitTask.toTask (.obj fields) report) :
    (∃ now, report = .ok (splitTask.wrap (splitResult shards fields now))) ∨
      ∃ err, losses.outside .split err ∧ report = .error err := by
  have hfunction : ∀ outcome, function rt .split (.obj fields) outcome →
      ∃ a, (∃ now, a = splitResult shards fields now) ∧ outcome = .ok a := by
    intro outcome h
    obtain ⟨now, hnow⟩ := (function_split hshards).mp h
    exact ⟨_, ⟨now, rfl⟩, hnow⟩
  rcases h.of_ok hfunction with ⟨_, ⟨now, rfl⟩, hok⟩ | hlost
  · exact .inl ⟨now, hok⟩
  · exact .inr hlost

theorem complete_split {context : Json} {left : List Nat} {now : String} :
    splitTask.resume context (.obj fields) left
      (.ok (splitTask.wrap (splitResult shards fields now))) =
      .goto .processShards (.obj (splitFields shards fields)) := rfl

theorem follow_split {data : Json} :
    (machine maxConcurrency).follow .split data
      (.goto .processShards (.obj (splitFields shards fields))) =
      .mapping .processShards (.obj (splitFields shards fields))
        ((shardItems shards fields).map .waiting) := by
  simp only [MapMachine.follow, machine, processShards, get_splitFields]

theorem shardRun_of_mem {runSource : Json} {ids : List Nat} {e : Execution ShardState}
    (h : List.Forall₂ (Iteration.Holds (Keeps losses runSource)) (ids.map (shard runSource)) iterations)
    (hmem : .started e ∈ iterations) : ∃ i, ShardRun losses runSource i e := by
  rw [List.forall₂_map_left_iff] at h
  induction h with
  | nil => cases hmem
  | @cons i first ids rest hfirst _ ih =>
      rcases List.mem_cons.mp hmem with rfl | hrest
      · exact ⟨i, hfirst i rfl⟩
      · exact ih hrest

/-- A step before the Map state's end stays before it, or joins the outputs of shards that
    have all come to an end. -/
theorem before_step (hshards : defaultShards rt = .ok shards) (h : Before losses shards fields c)
    (hstep : Step rt maxConcurrency losses c c') :
    Before losses shards fields c' ∨ ∃ iterations,
      c = .mapping .processShards (.obj (splitFields shards fields)) iterations ∧
      (∃ outputs, Ends losses (List.range shards) iterations outputs) ∧
      After losses shards fields iterations c' := by
  cases h with
  | @splitting left =>
      obtain ⟨move, hmoves, rfl⟩ := hstep.leaf_cases rfl
      obtain ⟨context, report, hreport, rfl⟩ :=
        hmoves.task fun context => event_wholeInput rfl rfl
      left
      rcases reports_split hshards hreport with ⟨now, rfl⟩ | ⟨err, hlost, rfl⟩
      · rw [complete_split, follow_split]
        exact .mapping (Iteration.forall₂_waiting _)
      · rw [OutputTask.resume]
        rcases OutputTask.fault_uncaught (t := splitTask) rfl rfl with ⟨_, hagain⟩ | hfail
        · rw [hagain]
          exact .splitting
        · rw [hfail]
          exact .splitFailed hlost
  | splitFailed h => cases hstep
  | @mapping iterations hkeeps =>
      rcases hstep.map_cases rfl with ⟨front, a, b, back, rfl, rfl, hadvance⟩ |
        ⟨s', err, hmem, rfl⟩ | ⟨outputs, houtputs, rfl⟩
      · left
        refine .mapping (Iteration.forall₂_advance ?_ ?_ hadvance hkeeps)
        · rintro _ _ i rfl
          exact shardRun_start
        · rintro _ _ e e' hkeep hshard i rfl
          exact shardRun_step hshards (hkeep i rfl) hshard
      · -- An iteration does not fail: it ends in `ShardFailed` at the worst.
        obtain ⟨i, hrun⟩ := shardRun_of_mem hkeeps hmem
        cases hrun
      · have hends := ends_of_outputs hkeeps houtputs
        exact .inr ⟨iterations, rfl, ⟨outputs, hends⟩, .reducing hends⟩

theorem field_resultsData {outputs : List Json} :
    (resultsData shards fields outputs).field "results" = some (.arr outputs) := by
  rw [resultsData, Json.field_obj, Fields.lookup_put_self]

/-- Reduce sums up the outputs of all shards. -/
theorem function_reduce (hshards : defaultShards rt = .ok shards) {outputs : List Json}
    (hends : Ends losses (List.range shards) iterations outputs) {outcome : Except Exc Json} :
    function rt .reduce (resultsData shards fields outputs) outcome ↔
      ∃ now, outcome = .ok (summaryOf shards (iterations.countP isCaptured) now) := by
  have hreduce : ∀ now, (do let _ ← defaultShards rt; reduce rt now (resultsData shards fields outputs)) =
      .ok (summaryOf shards (iterations.countP isCaptured) now) := by
    intro now
    have hsummary : reduce rt now (resultsData shards fields outputs) = _ :=
      reduce_ends now hends field_resultsData
    rw [List.length_range] at hsummary
    rw [hshards, ← hsummary]
    rfl
  change (∃ now, outcome = (do let _ ← defaultShards rt; reduce rt now _)) ↔ _
  simp only [hreduce]

theorem reports_reduce (hshards : defaultShards rt = .ok shards) {outputs : List Json}
    (hends : Ends losses (List.range shards) iterations outputs) {report : Except TaskError Json}
    (h : Reports (function rt) (losses.outside .reduce) reduceTask.toTask
      (resultsData shards fields outputs) report) :
    (∃ now, report = .ok (reduceTask.wrap (summaryOf shards (iterations.countP isCaptured) now))) ∨
      ∃ err, losses.outside .reduce err ∧ report = .error err := by
  have hfunction : ∀ outcome, function rt .reduce (resultsData shards fields outputs) outcome →
      ∃ a, (∃ now, a = summaryOf shards (iterations.countP isCaptured) now) ∧ outcome = .ok a := by
    intro outcome h
    obtain ⟨now, hnow⟩ := (function_reduce hshards hends).mp h
    exact ⟨_, ⟨now, rfl⟩, hnow⟩
  rcases h.of_ok hfunction with ⟨_, ⟨now, rfl⟩, hok⟩ | hlost
  · exact .inl ⟨now, hok⟩
  · exact .inr hlost

theorem after_step (hshards : defaultShards rt = .ok shards)
    (h : After losses shards fields iterations c) (hstep : Step rt maxConcurrency losses c c') :
    After losses shards fields iterations c' := by
  cases h with
  | @reducing outputs left hends =>
      obtain ⟨move, hmoves, rfl⟩ := hstep.leaf_cases rfl
      obtain ⟨context, report, hreport, rfl⟩ :=
        hmoves.task fun context => event_wholeInput rfl rfl
      rcases reports_reduce hshards hends hreport with ⟨now, rfl⟩ | ⟨err, hlost, rfl⟩
      · exact .summarised hends
      · rw [OutputTask.resume]
        rcases OutputTask.fault_uncaught (t := reduceTask) rfl rfl with ⟨_, hagain⟩ | hfail
        · rw [hagain]
          exact .reducing hends
        · rw [hfail]
          exact .reduceFailed hlost
  | reduceFailed _ => cases hstep
  | summarised _ => cases hstep

/-! ## Every run ends -/

def shardWeight : Iteration ShardState → Nat
  | .waiting _ => 6
  | .started (.running .processShard _ left) => left.sum + 2
  | .started (.running .shardFailed _ _) => 1
  | .started _ => 0

/-- The states and the retries that may still come. -/
def weight (shards : Nat) : Batch → Nat
  | .running .split _ left => 6 * shards + left.sum + 7
  | .mapping _ _ iterations => (iterations.map shardWeight).sum + 6
  | .running _ _ left => left.sum + 1
  | _ => 0

theorem sum_shardWeight_waiting (items : List Json) :
    ((items.map Iteration.waiting).map shardWeight).sum = 6 * items.length := by
  induction items with
  | nil => rfl
  | cons item items ih =>
      rw [List.map_cons, List.map_cons, List.sum_cons, ih, List.length_cons, shardWeight]
      omega

theorem shardWeight_step (hshards : defaultShards rt = .ok shards) {runSource : Json} {i : Nat}
    {e e' : Execution ShardState} (h : ShardRun losses runSource i e) (hstep : ShardStep rt losses e e') :
    shardWeight (.started e') < shardWeight (.started e) := by
  cases hstep with
  | move hmoves =>
      cases h with
      | @processing left hleft =>
          obtain ⟨context, report, hreport, rfl⟩ :=
            hmoves.task fun context => event_wholeInput rfl rfl
          rcases reports_process hshards hreport with rfl | ⟨err, _, rfl⟩
          · rw [complete_processShard]
            exact Nat.succ_pos _
          · rw [OutputTask.resume]
            rcases fault_processShard runSource i left err with ⟨hpos, hagain⟩ | hcaught
            · rw [hagain]
              change (left - 1) + 0 + 2 < left + 0 + 2
              omega
            · rw [hcaught]
              change 1 < left + 0 + 2
              omega
      | capturing =>
          cases hmoves with
          | pass =>
              rw [eval_shardFailed]
              exact Nat.one_pos

theorem weight_before (hshards : defaultShards rt = .ok shards) (h : Before losses shards fields c)
    (hstep : Step rt maxConcurrency losses c c') : weight shards c' < weight shards c := by
  cases h with
  | @splitting left =>
      obtain ⟨move, hmoves, rfl⟩ := hstep.leaf_cases rfl
      obtain ⟨context, report, hreport, rfl⟩ :=
        hmoves.task fun context => event_wholeInput rfl rfl
      rcases reports_split hshards hreport with ⟨now, rfl⟩ | ⟨err, _, rfl⟩
      · rw [complete_split, follow_split]
        have hsum := sum_shardWeight_waiting (shardItems shards fields)
        have hlength : (shardItems shards fields).length = shards := by simp [shardItems]
        rw [hlength] at hsum
        change (((shardItems shards fields).map Iteration.waiting).map shardWeight).sum + 6 <
          6 * shards + (left + 0) + 7
        omega
      · rw [OutputTask.resume]
        rcases OutputTask.fault_uncaught (t := splitTask) rfl rfl with ⟨hpos, hagain⟩ | hfail
        · rw [hagain]
          change 6 * shards + ((left - 1) + 0) + 7 < 6 * shards + (left + 0) + 7
          omega
        · rw [hfail]
          exact Nat.succ_pos _
  | splitFailed _ => cases hstep
  | @mapping iterations hkeeps =>
      rcases hstep.map_cases rfl with ⟨front, a, b, back, rfl, rfl, hadvance⟩ | ⟨s', err, _, rfl⟩ |
        ⟨outputs, _, rfl⟩
      · have hlt : shardWeight b < shardWeight a := by
          cases hadvance with
          | start => exact Nat.lt_succ_self 5
          | @step e e' hshard =>
              obtain ⟨i, hrun⟩ := shardRun_of_mem hkeeps
                (List.mem_append_right front List.mem_cons_self)
              exact shardWeight_step hshards hrun hshard
        have hsum := Iteration.sum_advance_lt front back hlt
        exact Nat.add_lt_add_right hsum 6
      · exact Nat.succ_pos _
      · change 5 < _ + 6
        omega

theorem weight_after (h : After losses shards fields iterations c)
    (hstep : Step rt maxConcurrency losses c c') : weight shards c' < weight shards c := by
  cases h with
  | @reducing outputs left _ =>
      obtain ⟨move, hmoves, rfl⟩ := hstep.leaf_cases rfl
      obtain ⟨context, report, _, rfl⟩ := hmoves.task fun context => event_wholeInput rfl rfl
      cases report with
      | ok result =>
          rw [OutputTask.resume]
          cases (reduceTask.output context (resultsData shards fields outputs) result).bind
            (Json.get reduceTask.outputPath) with
          | none => exact Nat.succ_pos _
          | some summary => exact Nat.succ_pos _
      | error err =>
          rw [OutputTask.resume]
          rcases OutputTask.fault_uncaught (t := reduceTask) rfl rfl with ⟨hpos, hagain⟩ | hfail
          · rw [hagain]
            change (left - 1) + 0 + 1 < left + 0 + 1
            omega
          · rw [hfail]
            exact Nat.succ_pos _
  | reduceFailed _ => cases hstep
  | summarised _ => cases hstep

/-! ## Whole runs -/

abbrev Run (rt : Runtime) (maxConcurrency : Nat) (losses : Losses) (input : Json) :=
  MaximalRun (Step rt maxConcurrency losses) (start maxConcurrency input)

/-- The run has come past the Map state, and these are the ends of its iterations. -/
def Joined (rt : Runtime) (losses : Losses) (shards : Nat) (fields : List (String × Json))
    (run : Run rt maxConcurrency losses (.obj fields)) (n : Nat) : Prop :=
  ∃ m < n, ∃ iterations,
    run.state m = .mapping .processShards (.obj (splitFields shards fields)) iterations ∧
    (∃ outputs, Ends losses (List.range shards) iterations outputs) ∧
    After losses shards fields iterations (run.state n)

theorem before_or_joined (hshards : defaultShards rt = .ok shards)
    (run : Run rt maxConcurrency losses (.obj fields)) (n : Nat) :
    Before losses shards fields (run.state n) ∨ Joined rt losses shards fields run n := by
  induction n with
  | zero =>
      rw [run.start]
      exact .inl before_start
  | succ n ih =>
      rcases run.next n with hstep | ⟨_, hstays⟩
      · rcases ih with hbefore | ⟨m, hm, iterations, hmapping, hends, hafter⟩
        · rcases before_step hshards hbefore hstep with hbefore' | ⟨iterations, hmapping, hjoined⟩
          · exact .inl hbefore'
          · exact .inr ⟨n, Nat.lt_succ_self n, iterations, hmapping, hjoined⟩
        · exact .inr ⟨m, hm.trans (Nat.lt_succ_self n), iterations, hmapping, hends,
            after_step hshards hafter hstep⟩
      · rw [hstays]
        rcases ih with hbefore | ⟨m, hm, hjoined⟩
        · exact .inl hbefore
        · refine .inr ⟨m, hm.trans (Nat.lt_succ_self n), ?_⟩
          rw [hstays]
          exact hjoined

theorem before_or_after (hshards : defaultShards rt = .ok shards)
    (hreach : ReflTransGen (Step rt maxConcurrency losses) (start maxConcurrency (.obj fields)) c) :
    Before losses shards fields c ∨ ∃ iterations, After losses shards fields iterations c := by
  refine Transition.invariant (P := fun c => Before losses shards fields c ∨
    ∃ iterations, After losses shards fields iterations c) hreach (.inl before_start) ?_
  intro a b hab hstep
  rcases hab with hbefore | ⟨iterations, hafter⟩
  · exact (before_step hshards hbefore hstep).imp_right fun ⟨iterations, _, _, hafter⟩ =>
      ⟨iterations, hafter⟩
  · exact .inr ⟨iterations, after_step hshards hafter hstep⟩

theorem batch_halts (hshards : defaultShards rt = .ok shards)
    (run : Run rt maxConcurrency losses (.obj fields)) :
    ∃ n, Stuck (Step rt maxConcurrency losses) (run.state n) := by
  refine run.halts (weight shards) fun a b hreach hstep => ?_
  rcases before_or_after hshards hreach with hbefore | ⟨iterations, hafter⟩
  · exact weight_before hshards hbefore hstep
  · exact weight_after hafter hstep

theorem not_stuck_running {s : StateName} {data : Json} {left : List Nat}
    {t : OutputTask StateName Function} (hnode : (machine maxConcurrency).nodes s = .leaf (.task t)) :
    ¬ Stuck (Step rt maxConcurrency losses) (.running s data left) := by
  intro hstuck
  obtain ⟨move, hmove⟩ : ∃ move, (Leaf.task t).Moves (function rt) (losses.outside s) data left move :=
    Leaf.exists_moves exists_outcome data left
  exact hstuck _ (.leaf hnode hmove)

theorem not_stuck_mapping {data : Json} :
    ¬ Stuck (Step rt maxConcurrency losses) (.mapping .processShards data iterations) := by
  intro hstuck
  obtain ⟨c', hstep⟩ : ∃ c', Step rt maxConcurrency losses (.mapping .processShards data iterations) c' :=
    MapMachine.exists_step_mapping rfl exists_outcome iterations
  exact hstuck c' hstep

/-- Every run of the batch ends. Either an error that Split or Reduce was lost with has used
    up the retries, or the run has a summary, and with the iterations that it has joined this
    conserves the work. -/
def ConservesWork (rt : Runtime) (maxConcurrency : Nat) (losses : Losses) (shards : Nat)
    (input : Json) : Prop :=
  ∀ run : Run rt maxConcurrency losses input,
    ∃ n, Stuck (Step rt maxConcurrency losses) (run.state n) ∧
      ((∃ s err, s ≠ .processShards ∧ losses.outside s err ∧ run.state n = .failed s err) ∨
      ∃ m < n, ∃ data ranges iterations summary,
        run.state m = .mapping .processShards data iterations ∧ ShardsAt data ranges ∧
        (∀ i ∈ iterations, i.Ended) ∧ run.state n = .succeeded .reduce summary ∧
        Conserved rt shards ranges iterations summary)

/-- Work is conserved for every number of shards and every input, whichever attempts are
    lost. -/
theorem conservesWork (rt : Runtime) (maxConcurrency : Nat) (losses : Losses) (shards : Nat)
    (fields : List (String × Json)) (hshards : defaultShards rt = .ok shards) :
    ConservesWork rt maxConcurrency losses shards (.obj fields) := by
  intro run
  obtain ⟨n, hstuck⟩ := batch_halts hshards run
  refine ⟨n, hstuck, ?_⟩
  rcases before_or_joined hshards run n with
    hbefore | ⟨m, hm, iterations, hmapping, ⟨outputs, hends⟩, hafter⟩
  · left
    generalize run.state n = c at hbefore hstuck
    cases hbefore with
    | splitting => exact absurd hstuck (not_stuck_running rfl)
    | @splitFailed err hlost => exact ⟨.split, err, by decide, hlost, rfl⟩
    | mapping _ => exact absurd hstuck not_stuck_mapping
  · generalize hstate : run.state n = c at hafter hstuck
    cases hafter with
    | reducing _ => exact absurd hstuck (not_stuck_running rfl)
    | @reduceFailed err hlost => exact .inl ⟨.reduce, err, by decide, hlost, rfl⟩
    | @summarised outputs now hends =>
        have hsummary : reduce rt now (resultsData shards fields outputs) = _ :=
          reduce_ends now hends field_resultsData
        rw [List.length_range] at hsummary
        exact .inr ⟨m, hm, _, _, iterations, _, hmapping, shardsAt_splitFields, hends.ended, rfl,
          conserved_of_reduce hends field_resultsData hsummary⟩

/-- Two shards. -/
def twoShards : Runtime where
  py := { Python.sample with parseInt := fun text => if text = "2" then some 2 else none }
  minusOther _ _ := .error (.typeError "unsupported operand type(s) for -")
  environ := [("LOG_LEVEL", "INFO"), ("BATCH_SHARDS", "2")]

/-- Any attempt may be lost, with any error. -/
def anyLoss : Losses := ⟨fun _ _ => True, fun _ _ => True⟩

theorem conservesWork_two :
    ConservesWork twoShards 4 anyLoss 2 (.obj [("run_source", .str "eventbridge-scheduler")]) :=
  conservesWork twoShards 4 anyLoss 2 _ (by decide +kernel)

end ScheduledBatch
