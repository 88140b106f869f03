-- SUMMARY: The state machine of the scheduled batch, as step_functions.tf wires it: Split, a Map state over the shards, Reduce.
import ServerlessPatterns.Library.MapState
import ServerlessPatterns.ScheduledBatch.Handlers

/-!
# The batch state machine
-/

namespace ScheduledBatch

open Asl

inductive StateName where
  | split
  | processShards
  | reduce
  deriving DecidableEq

/-- The states of the iterator. -/
inductive ShardState where
  | processShard
  | shardFailed
  deriving DecidableEq

/-- The Lambda functions behind the tasks. -/
inductive Function where
  | split
  | process
  | reduce
  deriving DecidableEq

/-- `"Payload.$": "$"` -/
def wholeInput : Template := .object [("Payload", .path [])]

def serviceErrors : List String :=
  ["Lambda.ServiceException", "Lambda.TooManyRequestsException", "Lambda.Unknown"]

def splitTask : OutputTask StateName Function where
  resource := .split
  integration := .invoke
  parameters := some wholeInput
  resultSelector := some (.object [("shards", .path ["Payload", "shards"])])
  resultPath := ["split"]
  outputPath := []
  timeoutSeconds := none
  retry := [⟨serviceErrors, 2, 4, 2⟩]
  catchers := []
  next := some .processShards

def processShardTask : OutputTask ShardState Function where
  resource := .process
  integration := .invoke
  parameters := some wholeInput
  resultSelector := none
  resultPath := []
  outputPath := ["Payload"]
  timeoutSeconds := none
  retry := [⟨["States.TaskFailed", "Lambda.ServiceException", "Lambda.TooManyRequestsException"], 3, 3, 2⟩]
  catchers := [⟨["States.ALL"], ["error"], .shardFailed⟩]
  next := none

def shardFailedParameters : Template :=
  .object [("shard_id", .path ["shard_id"]), ("status", .json (.str "FAILED")), ("error", .path ["error"])]

def iterator : Iterator ShardState Function where
  startAt := .processShard
  leaves
    | .processShard => .task processShardTask
    | .shardFailed => .pass shardFailedParameters none

def reduceTask : OutputTask StateName Function where
  resource := .reduce
  integration := .invoke
  parameters := some wholeInput
  resultSelector := none
  resultPath := []
  outputPath := ["Payload"]
  timeoutSeconds := none
  retry := [⟨serviceErrors, 2, 4, 2⟩]
  catchers := []
  next := none

def processShards (maxConcurrency : Nat) : MapState StateName ShardState Function where
  itemsPath := ["split", "shards"]
  maxConcurrency := maxConcurrency
  resultPath := ["results"]
  iterator := iterator
  next := some .reduce

def machine (maxConcurrency : Nat) : MapMachine StateName ShardState Function where
  startAt := .split
  nodes
    | .split => .leaf (.task splitTask)
    | .processShards => .map (processShards maxConcurrency)
    | .reduce => .leaf (.task reduceTask)

/-- What a call of a function may come to, at any time of day. -/
def function (rt : Runtime) : Functions Function
  | .split, event, outcome =>
    ∃ now, outcome = (do let shardCount ← defaultShards rt; split shardCount now event)
  | .process, event, outcome => outcome = (do let _ ← defaultShards rt; process rt event)
  | .reduce, event, outcome => ∃ now, outcome = (do let _ ← defaultShards rt; reduce rt now event)

theorem exists_outcome {rt : Runtime} (f : Function) (event : Json) :
    ∃ outcome, function rt f event outcome := by
  cases f with
  | split => exact ⟨_, "", rfl⟩
  | process => exact ⟨_, rfl⟩
  | reduce => exact ⟨_, "", rfl⟩

/-- The errors that attempts may be lost with, at the tasks of the machine and at those
    of the iterator. -/
structure Losses where
  outside : StateName → TaskError → Prop
  inside : ShardState → TaskError → Prop

abbrev Batch := MapExecution StateName ShardState

abbrev Step (rt : Runtime) (maxConcurrency : Nat) (losses : Losses) : Batch → Batch → Prop :=
  (machine maxConcurrency).Step (function rt) losses.outside losses.inside

abbrev ShardStep (rt : Runtime) (losses : Losses) :
    Execution ShardState → Execution ShardState → Prop :=
  iterator.Step (function rt) losses.inside

def start (maxConcurrency : Nat) (input : Json) : Batch := (machine maxConcurrency).start input

end ScheduledBatch
