-- SUMMARY: The ingest queue of the webhooks: what becomes of a webhook over all of its deliveries.
import ServerlessPatterns.Library.Deliveries
import ServerlessPatterns.WebhookIngest.Rotation

/-!
# Ingest queue

The consumer drops what it cannot verify or parse and reports what it fails to
process, so a deleted webhook need not have been processed. Which of the two it was
depends on the key that the invocation held.
-/

namespace WebhookIngest

open Program Python MessageQueue

/-- The webhook of a message. -/
def Messages.webhook (messages : Messages) (m : String) : Record :=
  ⟨m, messages.body m, messages.attributes m⟩

/-- The ingest queue, its redrive policy and its consumer. An invocation finds the key
    that its environment has cached, if it has. -/
def ingest (py : Python) (hmac : Hmac) (config : Config) (maxReceiveCount : Nat)
    (messages : Messages) : Service (Option Bytes) Op Ans where
  handler cached := handle py hmac config cached
  record m _ := messages.record m
  maxReceiveCount := maxReceiveCount

/-- A call of `process_event` for a message. -/
def Processes (m : String) : Op → Prop
  | .processEvent messageId .. => messageId = .str m
  | .getSecretValue => False

instance (m : String) : DecidablePred (Processes m)
  | .processEvent messageId .. => inferInstanceAs (Decidable (messageId = .str m))
  | .getSecretValue => inferInstanceAs (Decidable False)

/-- The key under which an invocation verifies: the one that its environment had cached,
    or else the one that it fetched. -/
def Holds (inv : Begun (Option Bytes) Op Ans) (key : Bytes) : Prop :=
  inv.found = some key ∨ inv.found = none ∧
    ∃ secret, ⟨.getSecretValue, .ok secret⟩ ∈ inv.calls ∧ secret.key = some key

/-- What the `try` block makes of a webhook before the business logic. -/
def checked (py : Python) (hmac : Hmac) (config : Config) (key : Bytes) (record : Record) :
    Except Exc Json :=
  verified py hmac config key (.str record.messageId) record.signature (.str record.body)

/-- The calls with which a webhook is done, under a key. -/
inductive Concluded (py : Python) (hmac : Hmac) (config : Config) (key : Bytes) (record : Record) :
    List (Event Op Ans) → Prop where
  | refused {e} (hchecked : checked py hmac config key record = .error e) (hdrops : drops e = true) :
      Concluded py hmac config key record []
  | processed {payload} (hchecked : checked py hmac config key record = .ok payload) :
      Concluded py hmac config key record
        [⟨.processEvent (.str record.messageId) record.source payload, .ok ()⟩]
  /-- `process_event` raised what the handler takes for a bad signature or a bad body. -/
  | dropped {payload e} (hchecked : checked py hmac config key record = .ok payload)
      (hdrops : drops e = true) : Concluded py hmac config key record
        [⟨.processEvent (.str record.messageId) record.source payload, .error e⟩]

/-- What becomes of a webhook. -/
structure Settles (py : Python) (hmac : Hmac) (config : Config) (maxReceiveCount : Nat)
    (messages : Messages) (m : String) (q : Queue Op Ans) (invs : List (Begun (Option Bytes) Op Ans)) :
    Prop where
  /-- It is deleted only by an invocation that was done with it under the key it held. -/
  deleted : q.place m = .deleted → ∃ inv ∈ invs, Acknowledges inv.toInvocation m ∧
    ∃ key, Holds inv key ∧ ∃ calls, Concluded py hmac config key (messages.webhook m) calls ∧
      ∀ event ∈ calls, event ∈ inv.calls
  /-- It is processed only under the key that the invocation held, which verifies it, and
      with the payload in its body. -/
  gated : ∀ inv ∈ invs, ∀ event ∈ inv.calls, Processes m event.1 →
    ∃ key, Holds inv key ∧ due py hmac config key (messages.webhook m) = some event.1
  /-- Each delivery processes it at most once. -/
  once : q.OncePerDelivery m (Processes m)
  /-- It is delivered no more often than the redrive policy allows. -/
  bounded : q.occurrences (Processes m) ≤ (q.deliveries m).length ∧
    (q.deliveries m).length ≤ maxReceiveCount
  deadLettered : q.place m = .deadLettered ↔
    (q.deliveries m).length = maxReceiveCount ∧ ∀ inv ∈ q.deliveries m, ¬ Acknowledges inv m

variable {py : Python} {hmac : Hmac} {config : Config} {maxReceiveCount : Nat} {messages : Messages}
  {key : Bytes} {m other : String} {q : Queue Op Ans} {invs : List (Begun (Option Bytes) Op Ans)}
  {inv : Begun (Option Bytes) Op Ans}

/-! ## One record -/

theorem due_checked {record : Record} : due py hmac config key record =
    match checked py hmac config key record with
    | .ok payload => some (.processEvent (.str record.messageId) record.source payload)
    | .error _ => none := due_eq

/-- The loop body on a record of the queue. -/
theorem handleRecord_webhook : handleRecord py hmac config key (messages.record m) =
    Program.tryCatch (handleError (.str m))
      (ofExcept (checked py hmac config key (messages.webhook m)) >>= fun payload =>
        .call (.processEvent (.str m) (messages.webhook m).source payload)
          fun answer => ofExcept answer >>= fun _ => ret none) :=
  have hattr : ∀ name, attr (messages.record m) name = .ok ((messages.webhook m).stringValue name) :=
    fun _ => @attr_json (messages.webhook m) _
  handleRecord_record (hattr "source") (hattr "signature")

theorem handleError_atMost {about : Op → Prop} {messageId : Json} {e : Exc}
    {p : Handler (Option Json)} (h : handleError messageId e = some p) : AtMost about 0 p := by
  unfold handleError at h
  split at h
  · obtain rfl := Option.some.inj h
    exact atMost_ret
  · split at h
    · obtain rfl := Option.some.inj h
      exact atMost_ret
    · cases h

theorem handleRecord_atMost : AtMost (Processes m) (if other = m then 1 else 0)
    (handleRecord py hmac config key (messages.record other)) := by
  rw [handleRecord_webhook]
  refine AtMost.handled (AtMost.then atMost_ofExcept fun payload => ?_) fun e p => handleError_atMost
  have hrest : ∀ answer : Except Exc Unit, AtMost (Processes m) 0
      (ofExcept answer >>= fun _ => (ret none : Handler (Option Json))) :=
    fun answer => AtMost.then atMost_ofExcept fun _ => atMost_ret
  by_cases hother : other = m
  · rw [if_pos hother]
    exact atMost_about (congrArg Json.str hother) hrest
  · rw [if_neg hother]
    exact atMost_other (fun h => hother (Json.str.inj h)) hrest

/-- A call of `process_event` for a message that the message is not due. -/
def Undue (py : Python) (hmac : Hmac) (config : Config) (key : Bytes) (messages : Messages)
    (m : String) (op : Op) : Prop :=
  Processes m op ∧ due py hmac config key (messages.webhook m) ≠ some op

theorem handleRecord_gated : AtMost (Undue py hmac config key messages m) 0
    (handleRecord py hmac config key (messages.record other)) := by
  rw [handleRecord_webhook]
  refine AtMost.handled ?_ fun e p => handleError_atMost
  cases hchecked : checked py hmac config key (messages.webhook other) with
  | error e => exact atMost_raise
  | ok payload =>
      have hdue : due py hmac config key (messages.webhook other) =
          some (.processEvent (.str other) (messages.webhook other).source payload) := by
        rw [due_checked, hchecked]
        rfl
      apply atMost_other
      · rintro ⟨hprocesses, hundue⟩
        obtain rfl : other = m := Json.str.inj hprocesses
        exact hundue hdue
      · exact fun answer => AtMost.then atMost_ofExcept fun _ => atMost_ret

theorem handleError_returned {e : Exc} {part : List (Event Op Ans)} {y : Option Json}
    (hcalls : Calls ((handleError (.str m) e).getD (.raise e)) part (.returned y))
    (hy : y ≠ some (listing m)) : drops e = true ∧ part = [] := by
  unfold handleError at hcalls
  by_cases hdrops : drops e = true
  · rw [if_pos hdrops] at hcalls
    exact ⟨hdrops, (calls_ret.mp hcalls).1⟩
  · rw [if_neg hdrops] at hcalls
    by_cases hclass : e.isInstance "Exception" = true
    · rw [if_pos hclass] at hcalls
      exact absurd (eq_of_calls_ret hcalls).symm hy
    · rw [if_neg hclass] at hcalls
      exact absurd hcalls not_calls_raise

/-- A record that is not reported is done with. -/
theorem handleRecord_unlisted {part : List (Event Op Ans)} {y : Option Json}
    (hcalls : Calls (handleRecord py hmac config key (messages.record m)) part (.returned y))
    (hy : y ≠ some (listing m)) : Concluded py hmac config key (messages.webhook m) part := by
  rw [handleRecord_webhook] at hcalls
  cases hchecked : checked py hmac config key (messages.webhook m) with
  | error e =>
      rw [hchecked, ofExcept_error, raise_bind, tryCatch_raise] at hcalls
      obtain ⟨hdrops, rfl⟩ := handleError_returned hcalls hy
      exact .refused hchecked hdrops
  | ok payload =>
      rw [hchecked, ofExcept_ok, ret_bind, tryCatch_call] at hcalls
      rcases calls_call.mp hcalls with ⟨_, hlost⟩ | ⟨answer, rest, rfl, hrest⟩
      · cases hlost
      · cases answer with
        | ok done =>
            rw [(calls_ret.mp hrest).1]
            exact .processed hchecked
        | error e =>
            rw [ofExcept_error, raise_bind, tryCatch_raise] at hrest
            obtain ⟨hdrops, rfl⟩ := handleError_returned hrest hy
            exact .dropped hchecked hdrops

/-! ## The invocation -/

abbrev webhooks (py : Python) (hmac : Hmac) (config : Config) (key : Bytes) (messages : Messages)
    (batch : List String) : Handler Json :=
  collect (handleRecord py hmac config key) (batch.map messages.record) [] >>= fun failures =>
    ret (BatchFunction.response failures)

theorem ingest_event {cached : Option Bytes} {received : String → Nat} {batch : List String} :
    (ingest py hmac config maxReceiveCount messages).handler cached
        ((ingest py hmac config maxReceiveCount messages).event received batch) =
      (signingKey cached >>= fun key => webhooks py hmac config key messages batch) := rfl

theorem signingKey_atMost {cached : Option Bytes} {about : Op → Prop} (hnone : ¬ about .getSecretValue) :
    AtMost about 0 (signingKey cached) := by
  cases cached with
  | some key => exact atMost_ret
  | none =>
      apply atMost_other hnone
      intro answer
      apply AtMost.then atMost_ofExcept
      intro response
      split
      · exact atMost_ret
      · split
        · exact atMost_ret
        · exact atMost_raise

/-- The key that an invocation goes on with is cached or fetched. -/
theorem holds_of_signingKey {front : List (Event Op Ans)}
    (hfront : Calls (signingKey inv.found) front (.returned key))
    (hsub : ∀ event ∈ front, event ∈ inv.calls) : Holds inv key := by
  unfold Holds
  cases hfound : inv.found with
  | some held =>
      rw [hfound] at hfront
      exact .inl (congrArg some (eq_of_calls_ret hfront))
  | none =>
      rw [hfound] at hfront
      unfold signingKey at hfront
      simp only [call_bind] at hfront
      rcases calls_call.mp hfront with ⟨_, hlost⟩ | ⟨answer, rest, rfl, hrest⟩
      · cases hlost
      · cases answer with
        | error e => exact absurd hrest not_calls_raise
        | ok secret =>
            have hmem : ⟨.getSecretValue, .ok secret⟩ ∈ inv.calls := hsub _ List.mem_cons_self
            refine .inr ⟨rfl, secret, hmem, ?_⟩
            simp only [ofExcept_ok, ret_bind] at hrest
            unfold SecretValue.key
            cases htext : secret.secretString with
            | some text =>
                simp only [htext] at hrest
                rw [← eq_of_calls_ret hrest]
            | none =>
                simp only [htext] at hrest
                cases hbinary : secret.secretBinary with
                | some bytes =>
                    simp only [hbinary] at hrest
                    rw [← eq_of_calls_ret hrest]
                | none =>
                    simp only [hbinary] at hrest
                    exact absurd hrest not_calls_raise

/-- An invocation that acknowledges a webhook is done with it. -/
theorem concluded_of_acknowledges
    (hlogged : Logged ((ingest py hmac config maxReceiveCount messages).mappingAt inv.found)
      inv.toInvocation)
    (hack : Acknowledges inv.toInvocation m) : ∃ key, Holds inv key ∧ ∃ calls,
      Concluded py hmac config key (messages.webhook m) calls ∧ ∀ event ∈ calls, event ∈ inv.calls := by
  obtain ⟨received, hcalls⟩ := hlogged
  obtain ⟨hmem, response, houtcome, hunlisted⟩ := hack
  replace hcalls : Calls (signingKey inv.found >>= fun key =>
      webhooks py hmac config key messages inv.batch) inv.calls inv.outcome := hcalls
  rw [houtcome] at hcalls
  obtain ⟨key, front, back, heq, hfront, hback⟩ := calls_bind_returned hcalls
  obtain ⟨part, y, hbody, hpart, hy⟩ := part_of_unlisted hback hmem hunlisted
  refine ⟨key, holds_of_signingKey hfront ?_, part, handleRecord_unlisted hbody hy, ?_⟩
  · intro event hevent
    exact heq ▸ List.mem_append_left _ hevent
  · intro event hevent
    exact heq ▸ List.mem_append_right _ (hpart event hevent)

theorem concluded_of_deleted (h : (ingest py hmac config maxReceiveCount messages).History q invs)
    (hdeleted : q.place m = .deleted) : ∃ inv ∈ invs, Acknowledges inv.toInvocation m ∧
      ∃ key, Holds inv key ∧ ∃ calls, Concluded py hmac config key (messages.webhook m) calls ∧
        ∀ event ∈ calls, event ∈ inv.calls := by
  obtain ⟨inv, hmem, hack⟩ := h.acknowledged_of_deleted hdeleted
  exact ⟨inv, hmem, hack, concluded_of_acknowledges (h.logged inv hmem) hack⟩

/-- An invocation calls `process_event` for a webhook only when it is due the call. -/
theorem gated_of_logged
    (hlogged : Logged ((ingest py hmac config maxReceiveCount messages).mappingAt inv.found)
      inv.toInvocation) :
    ∀ event ∈ inv.calls, Processes m event.1 →
      ∃ key, Holds inv key ∧ due py hmac config key (messages.webhook m) = some event.1 := by
  intro event hevent hprocesses
  obtain ⟨received, hcalls⟩ := hlogged
  replace hcalls : Calls (signingKey inv.found >>= fun key =>
      webhooks py hmac config key messages inv.batch) inv.calls inv.outcome := hcalls
  have hkeyless : ∀ {front : List (Event Op Ans)} {outcome : Outcome Exc Bytes},
      Calls (signingKey inv.found) front outcome → event ∉ front :=
    fun hfront hmem => (signingKey_atMost fun h => h).none hfront event hmem hprocesses
  rcases calls_bind hcalls with ⟨_, hfront⟩ | ⟨_, _, hfront⟩ | ⟨key, front, back, heq, hfront, hback⟩
  · exact absurd hevent (hkeyless hfront)
  · exact absurd hevent (hkeyless hfront)
  · have hmem : event ∈ back := by
      rw [heq] at hevent
      exact (List.mem_append.mp hevent).resolve_left (hkeyless hfront)
    have hsub : ∀ event ∈ front, event ∈ inv.calls :=
      fun event hfront => heq ▸ List.mem_append_left _ hfront
    refine ⟨key, holds_of_signingKey hfront hsub, ?_⟩
    by_contra hundue
    have hgated : AtMost (Undue py hmac config key messages m) 0
        (webhooks py hmac config key messages inv.batch) := by
      rw [webhooks, collect_map]
      exact AtMost.then (none_collect fun other _ => handleRecord_gated) fun _ => atMost_ret
    exact hgated.none hback event hmem ⟨hprocesses, hundue⟩

/-- In every run of the ingest queue, whatever its environments have cached, a webhook is
    processed only under a key that verifies it, is deleted only when it was processed,
    refused or dropped, and is processed and delivered a bounded number of times. -/
theorem ingest_settles (hmax : 0 < maxReceiveCount)
    (h : (ingest py hmac config maxReceiveCount messages).History q invs) :
    Settles py hmac config maxReceiveCount messages m q invs := by
  have hcourse := (accounted_reachable (m := m) hmax h.reachable).course
  have honce : q.OncePerDelivery m (Processes m) := by
    apply oncePerDelivery h.reachable hmax
    intro cached received batch
    rw [ingest_event]
    refine AtMost.then (signingKey_atMost id) fun key => ?_
    exact AtMost.bind (n := 0) (atMost_loop fun other => handleRecord_atMost) fun _ => atMost_ret
  exact ⟨concluded_of_deleted h, fun inv hmem => gated_of_logged (h.logged inv hmem), honce,
    ⟨honce.occurrences_le, hcourse.length_le⟩, hcourse.deadLettered_iff_unacknowledged hmax⟩

theorem ingest_settles_processed : ∃ q inv, q.place "evt-1" = .deleted ∧
    Settles Python.sample rotationHmac sampleConfig 5 sampleMessages "evt-1" q [inv] := by
  have hhandle : Calls ((ingest Python.sample rotationHmac sampleConfig 5 sampleMessages).handler
        (some sampleKey) ((ingest Python.sample rotationHmac sampleConfig 5 sampleMessages).event
        (fun _ => 1) ["evt-1"]))
      [⟨.processEvent (.str "evt-1") (.str "github") (.obj []), .ok ()⟩]
      (.returned (BatchFunction.response [])) := by
    have hkey : signingKey (some sampleKey) = ret sampleKey := rfl
    rw [ingest_event, hkey, ret_bind]
    apply calls_bind_ret.mpr
    exact ⟨[], rfl, calls_bind_ret.mpr ⟨none, rfl, sampleRecord_processed⟩⟩
  obtain ⟨q, hhistory, hplace⟩ := Service.exists_deleted hhandle nofun
  exact ⟨q, _, hplace, ingest_settles (by decide) hhistory⟩

end WebhookIngest
