-- SUMMARY: The work queue of the retry pattern: what becomes of a message over all of its deliveries.
import ServerlessPatterns.Library.Deliveries
import ServerlessPatterns.RetryBackoff.Redrive

/-!
# Work queue

The processor reports every record that it does not get processed, also one whose
body it cannot parse. Only a processed message is therefore deleted, and all others
go to the dead-letter queue.
-/

namespace RetryBackoff

open Program Python Configuration MessageQueue

/-- What the producers send under each message id, and what comes with its `n`-th
    receipt. -/
structure Messages where
  body : String → String
  receiptHandle : String → Nat → String
  attributes : String → Nat → Json

def Messages.record (messages : Messages) (m : String) (n : Nat) : Json :=
  .obj [("messageId", .str m), ("receiptHandle", .str (messages.receiptHandle m n)),
    ("body", .str (messages.body m)), ("attributes", messages.attributes m n)]

/-- The work queue, its redrive policy and its processor. -/
def work (py : Python) (config : Config) (vars : Variables) (messages : Messages) :
    Service Unit Op Ans where
  handler _ := handle py config
  record := messages.record
  maxReceiveCount := vars.maxReceiveCount

/-- A call of `process_record` for a message. -/
def Processes (m : String) : Op → Prop
  | .processRecord messageId .. => messageId = .str m
  | _ => False

instance (m : String) : DecidablePred (Processes m)
  | .processRecord messageId .. => inferInstanceAs (Decidable (messageId = .str m))
  | .uniform .. | .changeMessageVisibility .. => inferInstanceAs (Decidable False)

/-- The payload that a message with this body is processed with. -/
def payload (py : Python) (body : String) : Except Exc Json :=
  if body ≠ "" then py.loads body else .ok (.obj [])

/-- What becomes of a message. -/
structure Settles (py : Python) (vars : Variables) (messages : Messages) (m : String)
    (q : Queue Op Ans) : Prop where
  /-- It is deleted only after `process_record` returned normally on its payload. -/
  processed : q.place m = .deleted → ∃ inv ∈ q.log, Acknowledges inv m ∧ ∃ body attributes,
    payload py (messages.body m) = .ok body ∧
      ⟨.processRecord (.str m) body attributes, .ok ()⟩ ∈ inv.calls
  /-- Each delivery processes it at most once. -/
  once : q.OncePerDelivery m (Processes m)
  /-- It is delivered no more often than the redrive policy allows. -/
  bounded : q.occurrences (Processes m) ≤ (q.deliveries m).length ∧
    (q.deliveries m).length ≤ vars.maxReceiveCount
  deadLettered : q.place m = .deadLettered ↔
    (q.deliveries m).length = vars.maxReceiveCount ∧ ∀ inv ∈ q.deliveries m, ¬ Acknowledges inv m
  /-- Without a payload it is never processed, and not deleted either. -/
  poison : (∀ body, payload py (messages.body m) ≠ .ok body) →
    q.occurrences (Processes m) = 0 ∧ q.place m ≠ .deleted

variable {py : Python} {config : Config} {vars : Variables} {messages : Messages} {m : String}
  {q : Queue Op Ans}

/-! ## One record -/

theorem parsed_message {n : Nat} : parsed py (messages.record m n) = payload py (messages.body m) := by
  have hbody : get (messages.record m n) "body" = .ok (.str (messages.body m)) := rfl
  have hitem : item (messages.record m n) "body" = .ok (.str (messages.body m)) := rfl
  unfold parsed payload
  rw [hbody, hitem]
  by_cases h : messages.body m = ""
  · simp [h, Json.truthy, Bind.bind, Except.bind]
    rfl
  · simp [h, Json.truthy, Bind.bind, Except.bind, jsonLoads]

/-- The loop body on a record of the queue. -/
theorem handleRecord_message {n : Nat} :
    handleRecord py config (messages.record m n) =
      (ofExcept (getD (messages.attributes m n) "ApproximateReceiveCount" (.str "1") >>= py.int) >>=
        fun receiveCount =>
          match payload py (messages.body m) with
          | .error e => if unparseable e then ret (some (failure (.str m))) else .raise e
          | .ok body =>
            Program.tryCatch (backOff py config (messages.record m n) (.str m) receiveCount)
              (.call (.processRecord (.str m) body (messages.attributes m n)) fun answer =>
                ofExcept answer >>= fun _ => ret none)) := by
  rw [← parsed_message (n := n)]
  rfl

theorem not_processes_uniform {low high : Int} : ¬ Processes m (.uniform low high) := fun h => h

theorem not_processes_change {queueUrl : String} {receiptHandle : Json} {timeout : Int} :
    ¬ Processes m (.changeMessageVisibility queueUrl receiptHandle timeout) := fun h => h

/-- Backing a record off does not process anything. -/
theorem backOff_atMost {record messageId : Json} {receiveCount : Int} {e : Exc}
    {p : Handler (Option Json)} (h : backOff py config record messageId receiveCount e = some p) :
    AtMost (Processes m) 0 p := by
  unfold backOff at h
  split at h
  · obtain rfl := Option.some.inj h
    apply AtMost.then atMost_ofExcept
    intro receiptHandle
    refine AtMost.then ?_ fun _ => atMost_ret
    refine AtMost.then (atMost_other not_processes_uniform fun _ => atMost_ret) fun delay => ?_
    apply AtMost.handled
    · apply atMost_other not_processes_change
      intro answer
      exact AtMost.then atMost_ofExcept fun _ => atMost_ret
    · intro e p hp
      unfold swallow at hp
      split at hp
      · obtain rfl := Option.some.inj hp
        exact atMost_ret
      · cases hp
  · cases h

theorem handleRecord_atMost {other : String} {n : Nat} :
    AtMost (Processes m) (if other = m then 1 else 0)
      (handleRecord py config (messages.record other n)) := by
  rw [handleRecord_message]
  apply AtMost.then atMost_ofExcept
  intro receiveCount
  cases payload py (messages.body other) with
  | error e =>
    dsimp only
    by_cases hcaught : unparseable e = true
    · rw [if_pos hcaught]
      exact atMost_ret
    · rw [if_neg hcaught]
      exact atMost_raise
  | ok body =>
    refine AtMost.handled ?_ fun e p hp => backOff_atMost hp
    have hrest : ∀ answer : Except Exc Unit, AtMost (Processes m) 0
        (ofExcept answer >>= fun _ => (ret none : Handler (Option Json))) :=
      fun answer => AtMost.then atMost_ofExcept fun _ => atMost_ret
    by_cases hother : other = m
    · rw [if_pos hother]
      exact atMost_about (congrArg Json.str hother) hrest
    · rw [if_neg hother]
      exact atMost_other (fun h => hother (Json.str.inj h)) hrest

/-- Without a payload nothing is processed for the record. -/
theorem handleRecord_poison {n : Nat} (h : ∀ body, payload py (messages.body m) ≠ .ok body)
    {other : String} : AtMost (Processes m) 0 (handleRecord py config (messages.record other n)) := by
  by_cases hother : other = m
  · subst hother
    rw [handleRecord_message]
    apply AtMost.then atMost_ofExcept
    intro receiveCount
    split
    · split
      · exact atMost_ret
      · exact atMost_raise
    · rename_i body hbody
      exact absurd hbody (h body)
  · have hbound : AtMost (Processes m) (if other = m then 1 else 0)
        (handleRecord py config (messages.record other n)) := handleRecord_atMost
    rwa [if_neg hother] at hbound

/-- A record that was backed off is reported. -/
theorem backOff_returned {record messageId : Json} {receiveCount : Int} {e : Exc}
    {p : Handler (Option Json)} (h : backOff py config record messageId receiveCount e = some p)
    {part : List (Event Op Ans)} {y : Option Json} (hcalls : Calls p part (.returned y)) :
    y = some (failure messageId) := by
  unfold backOff at h
  split at h
  · obtain rfl := Option.some.inj h
    obtain ⟨_, _, _, _, _, hbackoff⟩ := calls_bind_returned hcalls
    obtain ⟨_, _, _, _, _, hret⟩ := calls_bind_returned hbackoff
    exact (eq_of_calls_ret hret).symm
  · cases h

/-- A record that is not reported was processed. -/
theorem handleRecord_unlisted {n : Nat} {part : List (Event Op Ans)} {y : Option Json}
    (hcalls : Calls (handleRecord py config (messages.record m n)) part (.returned y))
    (hy : y ≠ some (failure (.str m))) :
    ∃ body, payload py (messages.body m) = .ok body ∧
      part = [⟨.processRecord (.str m) body (messages.attributes m n), .ok ()⟩] := by
  rw [handleRecord_message] at hcalls
  obtain ⟨receiveCount, front, back, rfl, hfront, hback⟩ := calls_bind_returned hcalls
  have hnil : front = [] := silent_ofExcept.calls hfront
  subst hnil
  rw [List.nil_append]
  cases hpayload : payload py (messages.body m) with
  | error e =>
      rw [hpayload] at hback
      dsimp only at hback
      split at hback
      · exact absurd (eq_of_calls_ret hback).symm hy
      · exact absurd hback not_calls_raise
  | ok body =>
      rw [hpayload] at hback
      refine ⟨body, rfl, ?_⟩
      dsimp only at hback
      rw [tryCatch_call] at hback
      rcases calls_call.mp hback with ⟨_, hlost⟩ | ⟨answer, rest, rfl, hrest⟩
      · cases hlost
      · cases answer with
        | ok done =>
            rw [(calls_ret.mp hrest).1]
        | error e =>
            rw [ofExcept_error, raise_bind, tryCatch_raise] at hrest
            cases hhandled : backOff py config (messages.record m n) (.str m) receiveCount e with
            | none =>
                rw [hhandled] at hrest
                exact absurd hrest not_calls_raise
            | some p =>
                rw [hhandled] at hrest
                exact absurd (backOff_returned hhandled hrest) hy

/-! ## Runs -/

theorem work_event {received : String → Nat} {batch : List String} :
    (work py config vars messages).handler () ((work py config vars messages).event received batch) =
      (collect (handleRecord py config) (batch.map fun m => messages.record m (received m)) [] >>=
        fun failures => ret (BatchFunction.response failures)) := rfl

/-- An invocation that acknowledges a message processed it. -/
theorem processed_of_acknowledges {inv : Invocation Op Ans}
    (hlogged : Logged ((work py config vars messages).mappingAt ()) inv) (hack : Acknowledges inv m) :
    ∃ body attributes, payload py (messages.body m) = .ok body ∧
      ⟨.processRecord (.str m) body attributes, .ok ()⟩ ∈ inv.calls := by
  obtain ⟨received, hcalls⟩ := hlogged
  obtain ⟨hmem, response, houtcome, hunlisted⟩ := hack
  replace hcalls : Calls (collect (handleRecord py config)
      (inv.batch.map fun m => messages.record m (received m)) [] >>= _) inv.calls inv.outcome := hcalls
  rw [houtcome] at hcalls
  obtain ⟨part, y, hbody, hpart, hy⟩ := part_of_unlisted hcalls hmem hunlisted
  obtain ⟨body, hpayload, rfl⟩ := handleRecord_unlisted hbody hy
  exact ⟨body, _, hpayload, hpart _ List.mem_cons_self⟩

/-- In every run of the work queue a message is deleted only when it was processed, it is
    processed no more often than it may be received, and it is dead-lettered exactly when
    its last delivery left it unprocessed. -/
theorem work_settles (h : (work py config vars messages).Reachable q) :
    Settles py vars messages m q := by
  have hmax : 0 < (work py config vars messages).maxReceiveCount := vars.countAdmitted.1
  have hcourse := (accounted_reachable (m := m) hmax h).course
  have hprocessed : q.place m = .deleted → ∃ inv ∈ q.log, Acknowledges inv m ∧ ∃ body attributes,
      payload py (messages.body m) = .ok body ∧
        ⟨.processRecord (.str m) body attributes, .ok ()⟩ ∈ inv.calls := by
    intro hdeleted
    obtain ⟨inv, hmem, hack⟩ := Service.acknowledged_of_deleted h hdeleted
    obtain ⟨_, hlogged⟩ := Service.logged_of_mem h inv hmem
    exact ⟨inv, hmem, hack, processed_of_acknowledges hlogged hack⟩
  have honce : q.OncePerDelivery m (Processes m) := by
    apply oncePerDelivery h hmax
    intro _ received batch
    rw [work_event]
    exact AtMost.bind (n := 0) (atMost_loop fun other => handleRecord_atMost) fun _ => atMost_ret
  refine ⟨hprocessed, honce, ⟨honce.occurrences_le, hcourse.length_le⟩,
    hcourse.deadLettered_iff_unacknowledged hmax, fun hpoison => ⟨?_, ?_⟩⟩
  · apply occurrences_eq_zero h
    intro _ received batch
    rw [work_event, collect_map]
    exact AtMost.then (none_collect fun other _ => handleRecord_poison hpoison) fun _ => atMost_ret
  · intro hdeleted
    obtain ⟨_, _, _, body, _, hpayload, _⟩ := hprocessed hdeleted
    exact hpoison body hpayload

theorem int_str {text : String} {n : Int} (h : py.parseInt text = some n) :
    py.int (.str text) = .ok n := by
  unfold Python.int
  simp [h]

def sampleMessages : Messages where
  body _ := ""
  receiptHandle _ n := "handle-" ++ toString n
  attributes _ n := .obj [("ApproximateReceiveCount", .str (toString n))]

/-- The only delivery of a message without a body. -/
theorem handle_sampleMessages : Calls ((work decimal sampleConfig defaults sampleMessages).handler ()
      ((work decimal sampleConfig defaults sampleMessages).event (fun _ => 1) ["evt-1"]))
    [⟨.processRecord (.str "evt-1") (.obj []) (sampleMessages.attributes "evt-1" 1), .ok ()⟩]
    (.returned (BatchFunction.response [])) := by
  have hrecord : Calls (handleRecord decimal sampleConfig (sampleMessages.record "evt-1" 1))
      [⟨.processRecord (.str "evt-1") (.obj []) (sampleMessages.attributes "evt-1" 1), .ok ()⟩]
      (.returned none) := by
    have hcount : (getD (sampleMessages.attributes "evt-1" 1) "ApproximateReceiveCount" (.str "1") >>=
        decimal.int) = .ok 1 := int_str (numerals_decimal.count 1)
    rw [handleRecord_message, hcount, ofExcept_ok, ret_bind]
    exact calls_call.mpr (.inr ⟨.ok (), [], rfl, calls_ret.mpr ⟨rfl, .inl rfl⟩⟩)
  rw [work_event]
  apply calls_bind_ret.mpr
  exact ⟨[], rfl, calls_bind_ret.mpr ⟨none, rfl, hrecord⟩⟩

theorem work_settles_processed : ∃ q,
    q.place "evt-1" = .deleted ∧ Settles decimal defaults sampleMessages "evt-1" q := by
  obtain ⟨q, hhistory, hplace⟩ := Service.exists_deleted handle_sampleMessages nofun
  exact ⟨q, hplace, work_settles hhistory.reachable⟩

end RetryBackoff
