-- SUMMARY: A message queue with redrive that feeds a function in batches, in the manner of SQS and its Lambda event source mapping.
import ServerlessPatterns.Library.Contract
import ServerlessPatterns.Library.Python
import ServerlessPatterns.Library.Transition

/-!
# Message queues

A message waits in the queue until an invocation deletes it, or until it has been
received as often as the redrive policy allows. An invocation that returns
deletes the messages of its batch that the response does not list as failed. One
that raises, or is given up, deletes none. What the function does with a record
is its own program; its operations may be answered in any way.
-/

namespace MessageQueue

open Program Relation

variable {Op : Type} {Ans : Op → Type}

/-- Where a message is. -/
inductive Place where
  | outside
  | queued
  | deleted
  | deadLettered
  deriving DecidableEq

/-- A queue that is mapped to a function. -/
structure Mapping (Op : Type) (Ans : Op → Type) where
  handler : Json → Program Op Ans Exc Json
  /-- The record of a message when it is received for the `n`-th time. -/
  record : String → Nat → Json
  maxReceiveCount : Nat

/-- One invocation: its batch, the operations it performed and how it ended. -/
structure Invocation (Op : Type) (Ans : Op → Type) where
  batch : List String
  calls : List (Event Op Ans)
  outcome : Outcome Exc Json

/-- Messages are told apart by their id. -/
structure Queue (Op : Type) (Ans : Op → Type) where
  place : String → Place
  received : String → Nat
  log : List (Invocation Op Ans)

/-- The ids a response lists as failed. -/
def failedIds (response : Json) : List Json :=
  match response.field "batchItemFailures" with
  | some (.arr items) => items.filterMap (Json.field "itemIdentifier")
  | _ => []

/-- The invocation acknowledges a message, which is then deleted. -/
def Acknowledges (inv : Invocation Op Ans) (m : String) : Prop :=
  m ∈ inv.batch ∧ ∃ response, inv.outcome = .returned response ∧ .str m ∉ failedIds response

namespace Mapping

variable (mapping : Mapping Op Ans)

def event (received : String → Nat) (batch : List String) : Json :=
  .obj [("Records", .arr (batch.map fun m => mapping.record m (received m)))]

/-- A message that was not deleted is queued again, or is received no more. -/
def release (received : Nat) : Place :=
  if received < mapping.maxReceiveCount then .queued else .deadLettered

/-- Where an invocation leaves a message of its batch. -/
def settle (outcome : Outcome Exc Json) (received : Nat) (m : String) : Place :=
  match outcome with
  | .returned response =>
    if .str m ∈ failedIds response then mapping.release received else .deleted
  | _ => mapping.release received

def receive (batch : List String) (received : String → Nat) : String → Nat :=
  fun m => if m ∈ batch then received m + 1 else received m

end Mapping

namespace Queue

def empty : Queue Op Ans := ⟨fun _ => .outside, fun _ => 0, []⟩

def send (q : Queue Op Ans) (m : String) : Queue Op Ans :=
  { q with place := Function.update q.place m .queued }

/-- Receive a batch and do with it what the outcome of its invocation asks for. -/
def deliver (q : Queue Op Ans) (mapping : Mapping Op Ans) (batch : List String)
    (calls : List (Event Op Ans)) (outcome : Outcome Exc Json) : Queue Op Ans where
  place m :=
    if m ∈ batch then mapping.settle outcome (Mapping.receive batch q.received m) m else q.place m
  received := Mapping.receive batch q.received
  log := q.log ++ [⟨batch, calls, outcome⟩]

end Queue

inductive Step (mapping : Mapping Op Ans) : Queue Op Ans → Queue Op Ans → Prop where
  | send {q m} (houtside : q.place m = .outside) : Step mapping q (q.send m)
  | deliver {q batch calls outcome} (hnodup : batch.Nodup)
      (hbatch : ∀ m ∈ batch, q.place m = .queued)
      (hcalls : Calls (mapping.handler (mapping.event (Mapping.receive batch q.received) batch)) calls
        outcome) :
      Step mapping q (q.deliver mapping batch calls outcome)

abbrev Reachable (mapping : Mapping Op Ans) (q : Queue Op Ans) : Prop :=
  ReflTransGen (Step mapping) .empty q

variable {mapping : Mapping Op Ans}

theorem release_ne_deleted {received : Nat} : mapping.release received ≠ .deleted := by
  unfold Mapping.release
  split <;> nofun

theorem settle_eq_deleted {outcome : Outcome Exc Json} {received : Nat} {m : String} :
    mapping.settle outcome received m = .deleted ↔
      ∃ response, outcome = .returned response ∧ .str m ∉ failedIds response := by
  unfold Mapping.settle
  cases outcome with
  | returned response =>
      by_cases hfailed : .str m ∈ failedIds response
      · simp [hfailed, release_ne_deleted]
      · simp [hfailed]
  | raised e => simp [release_ne_deleted]
  | lost => simp [release_ne_deleted]

/-- An invocation in the log is one of the handler, on the records of its batch. -/
def Logged (mapping : Mapping Op Ans) (inv : Invocation Op Ans) : Prop :=
  ∃ received, Calls (mapping.handler (mapping.event received inv.batch)) inv.calls inv.outcome

theorem logged_of_mem {q : Queue Op Ans} (h : Reachable mapping q) :
    ∀ inv ∈ q.log, Logged mapping inv := by
  refine Transition.invariant (P := fun q => ∀ inv ∈ q.log, Logged mapping inv) h ?_ ?_
  · intro inv hmem
    cases hmem
  · intro q q' hall hstep inv hmem
    cases hstep with
    | send houtside => exact hall inv hmem
    | deliver hnodup hbatch hcalls =>
        rcases List.mem_append.mp hmem with hold | hnew
        · exact hall inv hold
        · rw [List.mem_singleton.mp hnew]
          exact ⟨_, hcalls⟩

theorem deleted_of_send {q : Queue Op Ans} {m m' : String}
    (hdeleted : (q.send m').place m = .deleted) : q.place m = .deleted := by
  unfold Queue.send at hdeleted
  dsimp only at hdeleted
  by_cases hm : m = m'
  · rw [hm, Function.update_self] at hdeleted
    cases hdeleted
  · rwa [Function.update_of_ne hm] at hdeleted

theorem deleted_of_deliver {q : Queue Op Ans} {batch : List String}
    {calls : List (Event Op Ans)} {outcome : Outcome Exc Json} {m : String}
    (hdeleted : (q.deliver mapping batch calls outcome).place m = .deleted) :
    Acknowledges ⟨batch, calls, outcome⟩ m ∨ q.place m = .deleted := by
  unfold Queue.deliver at hdeleted
  dsimp only at hdeleted
  by_cases hm : m ∈ batch
  · rw [if_pos hm, settle_eq_deleted] at hdeleted
    exact .inl ⟨hm, hdeleted⟩
  · rw [if_neg hm] at hdeleted
    exact .inr hdeleted

/-- A message is deleted by an invocation that acknowledges it, and by nothing
    else. -/
theorem acknowledged_of_deleted {q : Queue Op Ans} (h : Reachable mapping q) {m : String}
    (hdeleted : q.place m = .deleted) :
    ∃ inv ∈ q.log, Logged mapping inv ∧ Acknowledges inv m := by
  have hall : ∃ inv ∈ q.log, Acknowledges inv m := by
    revert hdeleted
    refine Transition.invariant
      (P := fun q => q.place m = .deleted → ∃ inv ∈ q.log, Acknowledges inv m) h nofun ?_
    intro q q' hall hstep hdeleted
    cases hstep with
    | send houtside => exact hall (deleted_of_send hdeleted)
    | @deliver batch calls outcome hnodup hbatch hcalls =>
        rcases deleted_of_deliver hdeleted with hack | hold
        · exact ⟨_, List.mem_append_right _ List.mem_cons_self, hack⟩
        · obtain ⟨inv, hmem, hack⟩ := hall hold
          exact ⟨inv, List.mem_append_left _ hmem, hack⟩
  obtain ⟨inv, hmem, hack⟩ := hall
  exact ⟨inv, hmem, logged_of_mem h inv hmem, hack⟩

/-- A message that is sent, and delivered alone to an invocation that does not
    list it, is deleted. -/
theorem deleted_of_delivered {m : String} {calls : List (Event Op Ans)} {response : Json}
    (hcalls : Calls (mapping.handler (mapping.event (fun _ => 1) [m])) calls (.returned response))
    (hfailed : .str m ∉ failedIds response) :
    ∃ q, Reachable mapping q ∧ q.place m = .deleted ∧ q.log = [⟨[m], calls, .returned response⟩] := by
  have hsend : Step mapping .empty (Queue.empty.send m) := .send rfl
  have hbatch : ∀ m' ∈ [m], ((Queue.empty : Queue Op Ans).send m).place m' = .queued := by
    intro m' hmem
    rw [List.mem_singleton.mp hmem]
    exact Function.update_self ..
  have hevent : mapping.event (Mapping.receive [m] ((Queue.empty : Queue Op Ans).send m).received) [m] =
      mapping.event (fun _ => 1) [m] := by
    simp [Mapping.event, Mapping.receive, Queue.send, Queue.empty]
  have hdeliver : Step mapping (Queue.empty.send m) _ :=
    .deliver (by simp) hbatch (hevent ▸ hcalls)
  refine ⟨_, .tail (.single hsend) hdeliver, ?_, rfl⟩
  simp [Queue.deliver, settle_eq_deleted, hfailed]

end MessageQueue
