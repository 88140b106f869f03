-- SUMMARY: The three functions of the scheduled batch: partitioning a run, processing a shard, and summing up the results.
import ServerlessPatterns.Library.Python

/-!
# Handlers of the scheduled batch

The functions have no effects. They read the number of shards from the environment
when their module is loaded, and the time of day.
-/

namespace ScheduledBatch

open Python

/-- What the functions run with. -/
structure Runtime where
  py : Python
  /-- `a - b` with an operand that is no integer. -/
  minusOther : Json → Json → Except Exc Json
  environ : List (String × String)

variable (rt : Runtime)

/-- `DEFAULT_SHARDS`, which is read when the module is loaded. -/
def defaultShards : Except Exc Int := rt.py.int (.str ((rt.environ.lookup "BATCH_SHARDS").getD "4"))

def intOf : Json → Option Int
  | .num (.int n) => some n
  | .bool b => some (if b then 1 else 0)
  | _ => none

/-- `a - b`. -/
def minus (a b : Json) : Except Exc Json :=
  match intOf a, intOf b with
  | some m, some n => .ok (.num (.int (m - n)))
  | _, _ => rt.minusOther a b

def shard (runSource : Json) (i : Nat) : Json :=
  .obj [("shard_id", .num (.int i)), ("run_source", runSource),
    ("range_start", .num (.int (i * 1000))), ("range_end", .num (.int ((i + 1) * 1000)))]

/-- Partition the run into shards. A `range` of a negative number is empty. -/
def split (shardCount : Int) (now : String) (event : Json) : Except Exc Json := do
  let runSource ← getD event "run_source" (.str "manual")
  return .obj [("shards", .arr ((List.range shardCount.toNat).map (shard runSource))),
    ("started_at", .str now)]

/-- Process one shard. -/
def process (event : Json) : Except Exc Json := do
  let shardId ← item event "shard_id"
  let start ← item event "range_start"
  let stop ← item event "range_end"
  let processed ← minus rt stop start
  return .obj [("shard_id", shardId), ("status", .str "SUCCEEDED"), ("processed", processed)]

/-- `[r for r in results if r.get("status") == status]`. -/
def withStatus (status : String) : List Json → Except Exc (List Json)
  | [] => .ok []
  | r :: rest => do
    let found ← get r "status"
    let kept ← withStatus status rest
    return if found = .str status then r :: kept else kept

/-- `sum(int(r.get("processed", 0)) for r in results)`. -/
def sumProcessed : List Json → Except Exc Int
  | [] => .ok 0
  | r :: rest => do
    let found ← getD r "processed" (.num (.int 0))
    let processed ← rt.py.int found
    let total ← sumProcessed rest
    return processed + total

/-- Aggregate the results of the shards into a summary of the run. -/
def reduce (now : String) (event : Json) : Except Exc Json := do
  let results ← getD event "results" (.arr [])
  let items ← iter results
  let succeeded ← withStatus "SUCCEEDED" items
  let failed ← withStatus "FAILED" items
  let totalProcessed ← sumProcessed rt succeeded
  let shardsTotal ← len results
  return .obj [("shards_total", .num (.int shardsTotal)),
    ("shards_succeeded", .num (.int succeeded.length)),
    ("shards_failed", .num (.int failed.length)),
    ("records_processed", .num (.int totalProcessed)),
    ("status", .str (if failed = [] then "SUCCEEDED" else "PARTIAL")),
    ("finished_at", .str now)]

variable {rt}

theorem split_obj {shardCount : Nat} {now : String} {fields : List (String × Json)} :
    split shardCount now (.obj fields) =
      .ok (.obj [("shards", .arr ((List.range shardCount).map
        (shard ((fields.lookup "run_source").getD (.str "manual"))))), ("started_at", .str now)]) :=
  rfl

theorem process_shard {runSource : Json} {i : Nat} :
    process rt (shard runSource i) = .ok (.obj [("shard_id", .num (.int i)),
      ("status", .str "SUCCEEDED"), ("processed", .num (.int 1000))]) := by
  have hsize : ((i + 1) * 1000 - i * 1000 : Int) = 1000 := by ring
  change Except.ok (Json.obj [("shard_id", .num (.int i)), ("status", .str "SUCCEEDED"),
    ("processed", .num (.int ((i + 1) * 1000 - i * 1000)))]) = _
  rw [hsize]

/-! ## Results in another order -/

theorem withStatus_cons {status : String} {r : Json} {rest kept : List Json} :
    withStatus status (r :: rest) = .ok kept ↔
      ∃ found kept', get r "status" = .ok found ∧ withStatus status rest = .ok kept' ∧
        kept = if found = .str status then r :: kept' else kept' := by
  rw [withStatus]
  cases hfound : get r "status" with
  | error e => simp [Bind.bind, Except.bind]
  | ok found =>
      cases hrest : withStatus status rest with
      | error e => simp [Bind.bind, Except.bind]
      | ok kept' => simp [Bind.bind, Except.bind, Pure.pure, Except.pure, eq_comm]

theorem sumProcessed_cons {r : Json} {rest : List Json} {total : Int} :
    sumProcessed rt (r :: rest) = .ok total ↔
      ∃ found processed total', getD r "processed" (.num (.int 0)) = .ok found ∧
        rt.py.int found = .ok processed ∧ sumProcessed rt rest = .ok total' ∧
        total = processed + total' := by
  rw [sumProcessed]
  cases hfound : getD r "processed" (.num (.int 0)) with
  | error e => simp [Bind.bind, Except.bind]
  | ok found =>
      cases hprocessed : rt.py.int found with
      | error e => simp [Bind.bind, Except.bind, hprocessed]
      | ok processed =>
          cases hrest : sumProcessed rt rest with
          | error e => simp [Bind.bind, Except.bind, hprocessed]
          | ok total' => simp [Bind.bind, Except.bind, Pure.pure, Except.pure, hprocessed, eq_comm]

theorem withStatus_perm {status : String} {results results' kept : List Json}
    (hperm : results.Perm results') (h : withStatus status results = .ok kept) :
    ∃ kept', withStatus status results' = .ok kept' ∧ kept.Perm kept' := by
  induction hperm generalizing kept with
  | nil => exact ⟨kept, h, .refl _⟩
  | cons r _ ih =>
      obtain ⟨found, rest, hfound, hrest, rfl⟩ := withStatus_cons.mp h
      obtain ⟨rest', hrest', hperm⟩ := ih hrest
      refine ⟨_, withStatus_cons.mpr ⟨found, rest', hfound, hrest', rfl⟩, ?_⟩
      split
      · exact hperm.cons r
      · exact hperm
  | swap r r' rest =>
      obtain ⟨found', kept', hfound', hkept', rfl⟩ := withStatus_cons.mp h
      obtain ⟨found, last, hfound, hlast, rfl⟩ := withStatus_cons.mp hkept'
      refine ⟨_, withStatus_cons.mpr ⟨found, _, hfound,
        withStatus_cons.mpr ⟨found', last, hfound', hlast, rfl⟩, rfl⟩, ?_⟩
      split <;> split
      · exact .swap r r' last
      all_goals exact .refl _
  | trans _ _ ih ih' =>
      obtain ⟨middle, hmiddle, hperm⟩ := ih h
      obtain ⟨kept', hkept', hperm'⟩ := ih' hmiddle
      exact ⟨kept', hkept', hperm.trans hperm'⟩

theorem sumProcessed_perm {results results' : List Json} {total : Int}
    (hperm : results.Perm results') (h : sumProcessed rt results = .ok total) :
    sumProcessed rt results' = .ok total := by
  induction hperm generalizing total with
  | nil => exact h
  | cons r _ ih =>
      obtain ⟨found, processed, rest, hfound, hprocessed, hrest, rfl⟩ := sumProcessed_cons.mp h
      exact sumProcessed_cons.mpr ⟨found, processed, rest, hfound, hprocessed, ih hrest, rfl⟩
  | swap r r' rest =>
      obtain ⟨found', processed', total', hfound', hprocessed', htotal', rfl⟩ := sumProcessed_cons.mp h
      obtain ⟨found, processed, last, hfound, hprocessed, hlast, rfl⟩ := sumProcessed_cons.mp htotal'
      exact sumProcessed_cons.mpr ⟨found, processed, _, hfound, hprocessed,
        sumProcessed_cons.mpr ⟨found', processed', last, hfound', hprocessed', hlast, rfl⟩,
        add_left_comm _ _ _⟩
  | trans _ _ ih ih' => exact ih' (ih h)

theorem reduce_iff {now : String} {event summary : Json} {results : List Json}
    (hresults : event.field "results" = some (.arr results)) :
    reduce rt now event = .ok summary ↔
      ∃ succeeded failed total, withStatus "SUCCEEDED" results = .ok succeeded ∧
        withStatus "FAILED" results = .ok failed ∧ sumProcessed rt succeeded = .ok total ∧
        summary = .obj [("shards_total", .num (.int results.length)),
          ("shards_succeeded", .num (.int succeeded.length)),
          ("shards_failed", .num (.int failed.length)), ("records_processed", .num (.int total)),
          ("status", .str (if failed = [] then "SUCCEEDED" else "PARTIAL")),
          ("finished_at", .str now)] := by
  have hget : getD event "results" (.arr []) = .ok (.arr results) := by
    cases event with
    | obj fields =>
        rw [Json.field_obj] at hresults
        rw [getD_obj, hresults, Option.getD_some]
    | _ => cases hresults
  rw [reduce, hget]
  simp only [Bind.bind, Except.bind, iter, len, Pure.pure, Except.pure]
  cases withStatus "SUCCEEDED" results with
  | error e => simp
  | ok succeeded =>
      cases withStatus "FAILED" results with
      | error e => simp
      | ok failed => cases hsum : sumProcessed rt succeeded <;> simp [hsum, eq_comm]

/-- Summaries of the same results in another order differ in their times alone. -/
theorem reduce_perm {now now' : String} {event event' summary : Json} {results results' : List Json}
    (hperm : results.Perm results') (hresults : event.field "results" = some (.arr results))
    (hresults' : event'.field "results" = some (.arr results'))
    (h : reduce rt now event = .ok summary) :
    ∃ summary', reduce rt now' event' = .ok summary' ∧
      ∀ key ≠ "finished_at", summary'.field key = summary.field key := by
  obtain ⟨succeeded, failed, total, hsucceeded, hfailed, htotal, rfl⟩ := (reduce_iff hresults).mp h
  obtain ⟨succeeded', hsucceeded', hpermSucceeded⟩ := withStatus_perm hperm hsucceeded
  obtain ⟨failed', hfailed', hpermFailed⟩ := withStatus_perm hperm hfailed
  refine ⟨_, (reduce_iff hresults').mpr ⟨succeeded', failed', total, hsucceeded', hfailed',
    sumProcessed_perm hpermSucceeded htotal, rfl⟩, ?_⟩
  intro key hkey
  have hempty : (failed' = []) = (failed = []) := by
    rw [← List.length_eq_zero_iff, ← List.length_eq_zero_iff, hpermFailed.length_eq]
  have hne : (key == "finished_at") = false := by simpa using hkey
  simp only [Json.field_obj, List.lookup_cons, List.lookup_nil, hperm.length_eq,
    hpermSucceeded.length_eq, hpermFailed.length_eq, hempty, hne]

end ScheduledBatch
