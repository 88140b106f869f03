-- SUMMARY: The consumer queue of the fan-out: a message is processed or dead-lettered, unless its body is no JSON.
import ServerlessPatterns.FanOut.Worker
import ServerlessPatterns.Library.MessageQueue

/-!
# Consumer queue

The worker skips a record whose body it cannot parse. A skipped record is not
among the failures, so it counts as done and the queue deletes it.
-/

namespace FanOut

open Program MessageQueue

/-- What the producers publish under each message id, and the system attributes
    that come with its `n`-th receipt. -/
structure Messages where
  body : String → String
  attributes : String → Nat → Json

def Messages.record (messages : Messages) (m : String) (n : Nat) : Json :=
  .obj [("messageId", .str m), ("body", .str (messages.body m)),
    ("attributes", messages.attributes m n)]

/-- A consumer queue, its redrive policy and its worker. -/
def consumer (py : Python) (messages : Messages) (maxReceiveCount : Nat) : Mapping Op Ans where
  handler := handler py
  record := messages.record
  maxReceiveCount := maxReceiveCount

/-- `process_record` returned normally on the message in some delivery. -/
def Processed (q : Queue Op Ans) (m : String) : Prop :=
  ∃ inv ∈ q.log, ∃ body attributes, ⟨.processRecord (.str m) body attributes, .ok ()⟩ ∈ inv.calls

def Left (q : Queue Op Ans) (m : String) : Prop :=
  q.place m = .deleted ∨ q.place m = .deadLettered

/-- The message leaves the queue only processed or for the dead-letter queue. -/
def NeverLost (py : Python) (messages : Messages) (maxReceiveCount : Nat) (m : String) : Prop :=
  ∀ q, Reachable (consumer py messages maxReceiveCount) q → Left q m →
    Processed q m ∨ q.place m = .deadLettered

/-- `json.loads` raises on the body what the worker takes for a record that can
    never be processed. -/
def Skips (py : Python) (body : String) : Prop :=
  ∃ e, py.loads body = .error e ∧ unparseable e = true

variable {py : Python} {messages : Messages} {maxReceiveCount : Nat} {m : String}

/-! ## One record -/

/-- The loop body on a record of the queue. -/
theorem handleRecord_record {n : Nat} :
    handleRecord py (messages.record m n) =
      match py.loads (messages.body m) with
      | .error e => if unparseable e then ret none else .raise e
      | .ok body =>
        .call (.processRecord (.str m) body (messages.attributes m n)) fun answer =>
          (ofExcept answer >>= fun _ => ret none).tryCatch (reportFailure (.str m)) := by
  unfold handleRecord Messages.record
  have hbody : Python.item (.obj [("messageId", .str m), ("body", .str (messages.body m)),
      ("attributes", messages.attributes m n)]) "body" = .ok (.str (messages.body m)) := rfl
  rw [hbody]
  change (match py.loads (messages.body m) with
    | .error e => _
    | .ok body => _) = _
  cases py.loads (messages.body m) <;> rfl

/-- A record that the loop is done with was skipped, or reported as failed, or
    processed. -/
theorem handleRecord_returned {n : Nat} {part : List (Event Op Ans)} {failure : Option Json}
    (h : Calls (handleRecord py (messages.record m n)) part (.returned failure)) :
    Skips py (messages.body m) ∨ failure = some (.obj [("itemIdentifier", .str m)]) ∨
      ∃ body, part = [⟨.processRecord (.str m) body (messages.attributes m n), .ok ()⟩] := by
  rw [handleRecord_record] at h
  cases hloads : py.loads (messages.body m) with
  | error e =>
      rw [hloads] at h
      dsimp only at h
      split at h
      case isTrue hskip => exact .inl ⟨e, hloads, hskip⟩
      case isFalse hraise => exact absurd h not_calls_raise
  | ok body =>
      rw [hloads] at h
      right
      rcases calls_call.mp h with ⟨_, hlost⟩ | ⟨answer, rest, rfl, hrest⟩
      · cases hlost
      · cases answer with
        | ok done =>
            obtain ⟨rfl, _⟩ := calls_ret.mp hrest
            exact .inr ⟨body, rfl⟩
        | error e =>
            left
            by_cases hcaught : e.isInstance "Exception" = true
            · simp only [ofExcept_error, raise_bind, tryCatch_raise, reportFailure, hcaught, if_true,
                Option.getD_some, pure_eq] at hrest
              exact (eq_of_calls_ret hrest).symm
            · simp only [ofExcept_error, raise_bind, tryCatch_raise, reportFailure, hcaught] at hrest
              exact absurd hrest not_calls_raise

/-! ## One invocation -/

/-- An invocation that acknowledges a message skipped or processed it. -/
theorem skips_or_processed {received : String → Nat} {inv : Invocation Op Ans}
    (h : Calls (handler py ((consumer py messages maxReceiveCount).event received inv.batch))
      inv.calls inv.outcome) (hack : Acknowledges inv m) :
    Skips py (messages.body m) ∨
      ∃ body attributes, ⟨.processRecord (.str m) body attributes, .ok ()⟩ ∈ inv.calls := by
  obtain ⟨hmem, response, houtcome, hfailed⟩ := hack
  rw [houtcome] at h
  have hhandler : handler py ((consumer py messages maxReceiveCount).event received inv.batch) =
      (collect (handleRecord py) (inv.batch.map fun m => messages.record m (received m)) [] >>=
        fun failures => ret (.obj [("batchItemFailures", .arr failures)])) := rfl
  rw [hhandler] at h
  obtain ⟨failures, front, back, hcalls, hloop, hret⟩ := calls_bind_returned h
  have hresponse := eq_of_calls_ret hret
  obtain ⟨part, failure, hrecord, hpart, hreported⟩ :=
    (collect_returned hloop).2 (messages.record m (received m)) (List.mem_map.mpr ⟨m, hmem, rfl⟩)
  rcases handleRecord_returned hrecord with hskips | hfailure | ⟨body, hprocessed⟩
  · exact .inl hskips
  · -- Reported: then the message is listed, and not acknowledged.
    refine absurd ?_ hfailed
    rw [← hresponse]
    exact List.mem_filterMap.mpr ⟨_, hreported _ hfailure, rfl⟩
  · refine .inr ⟨body, messages.attributes m (received m), ?_⟩
    rw [hcalls]
    refine List.mem_append_left _ (hpart _ ?_)
    rw [hprocessed]
    exact List.mem_cons_self

/-- Delivered alone, a message with such a body is passed over in silence. -/
theorem handler_skips {received : String → Nat} (h : Skips py (messages.body m)) :
    handler py ((consumer py messages maxReceiveCount).event received [m]) =
      ret (.obj [("batchItemFailures", .arr [])]) := by
  obtain ⟨e, hloads, hskip⟩ := h
  have hrecord : handleRecord py (messages.record m (received m)) = ret none := by
    rw [handleRecord_record, hloads]
    dsimp only
    rw [if_pos hskip]
  change (collect (handleRecord py) [messages.record m (received m)] [] >>= _) = _
  unfold collect
  rw [hrecord]
  rfl

/-! ## Runs -/

/-- One delivery is enough to lose a message with such a body. -/
theorem not_neverLost_of_skips (hskips : Skips py (messages.body m)) :
    ¬ NeverLost py messages maxReceiveCount m := by
  intro hnever
  have hcalls : Calls ((consumer py messages maxReceiveCount).handler
      ((consumer py messages maxReceiveCount).event (fun _ => 1) [m])) []
      (.returned (.obj [("batchItemFailures", .arr [])])) := by
    change Calls (handler py _) _ _
    rw [handler_skips hskips]
    exact calls_ret.mpr ⟨rfl, .inl rfl⟩
  obtain ⟨q, hreach, hdeleted, hlog⟩ := deleted_of_delivered hcalls (by simp [failedIds])
  rcases hnever q hreach (.inl hdeleted) with ⟨inv, hmem, body, attributes, hcall⟩ | hdead
  · rw [hlog] at hmem
    rw [List.mem_singleton.mp hmem] at hcall
    cases hcall
  · rw [hdeleted] at hdead
    cases hdead

/-- A message is never lost if and only if the worker does not skip its body. -/
theorem neverLost_iff_parses {py : Python} {messages : Messages} {maxReceiveCount : Nat}
    {m : String} :
    NeverLost py messages maxReceiveCount m ↔ ¬ Skips py (messages.body m) := by
  constructor
  · intro hnever hskips
    exact not_neverLost_of_skips hskips hnever
  · intro hparses q hreach hleft
    rcases hleft with hdeleted | hdead
    · left
      obtain ⟨inv, hmem, ⟨received, hcalls⟩, hack⟩ := acknowledged_of_deleted hreach hdeleted
      rcases skips_or_processed hcalls hack with hskips | hprocessed
      · exact absurd hskips hparses
      · exact ⟨inv, hmem, hprocessed⟩
    · exact .inr hdead

def junkMessages : Messages where
  body _ := "not-json"
  attributes _ n := .obj [("ApproximateReceiveCount", .str (toString n))]

/-- The body of the worker's own test, with five receives before the dead-letter
    queue. -/
theorem neverLost_counterexample : ¬ NeverLost Python.sample junkMessages 5 "junk" := by
  apply not_neverLost_of_skips
  exact ⟨_, rfl, rfl⟩

end FanOut
