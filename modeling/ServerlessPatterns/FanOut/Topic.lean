-- SUMMARY: The fan-out topic with all of its consumers: what becomes of a published message at each of them, and that they do not interfere.
import ServerlessPatterns.FanOut.Queue
import ServerlessPatterns.Library.Deliveries
import ServerlessPatterns.Library.Products

/-!
# Fan-out topic

Every consumer has a subscription, a queue, a dead-letter queue and a worker of its own.
The topic delivers a message to each subscription at a time of its own, or gives up on it
and redrives it to that consumer's dead-letter queue.

A worker runs the function that its configuration names. The module's own default names
one that `worker.py` does not define.
-/

namespace FanOut

open Program MessageQueue Relation

/-- An entry of `var.consumers`. A filter policy is taken as what it says of the message
    attributes. The handler is the default, or the function that `worker.py` has for it. -/
structure Consumer where
  handler : String := "worker.handle"
  batchSize : Nat := 10
  filterPolicy : Option (List (String × String) → Bool) := none
  handlerKnown : handler ∈ ["worker.handle", "worker.handler"] := by decide
  batchAdmitted : 1 ≤ batchSize ∧ batchSize ≤ 10 := by decide

/-- Without a policy a subscription takes every message. -/
def Consumer.accepts (consumer : Consumer) (attributes : List (String × String)) : Bool :=
  match consumer.filterPolicy with
  | some policy => policy attributes
  | none => true

/-- The Lambda runtime finds no such function in the module. -/
def handlerNotFound (name : String) : Exc :=
  ⟨"Runtime.HandlerNotFound", ["Runtime.HandlerNotFound", "Exception"], name⟩

/-- The function of a worker. The default name is none in `worker.py`. -/
def lambda (py : Python) (name : String) (event : Json) : Handler Json :=
  if name = "worker.handler" then handler py event else .raise (handlerNotFound name)

/-- What is published under each message id, with its message attributes. -/
structure Publications extends Messages where
  messageAttributes : String → List (String × String)

/-- The queue of a consumer, its redrive policy and its worker. -/
def Consumer.service (py : Python) (publications : Publications) (maxReceiveCount : Nat)
    (consumer : Consumer) : Service Unit Op Ans where
  handler _ := lambda py consumer.handler
  record := publications.record
  maxReceiveCount := maxReceiveCount

/-- The queue of a consumer, and the messages that the topic could not deliver to it and
    redrove to its dead-letter queue. -/
structure Subscription where
  queue : Queue Op Ans
  undelivered : List String

/-- The message is due at this subscription. -/
structure Due (publications : Publications) (consumer : Consumer) (published : List String)
    (s : Subscription) (m : String) : Prop where
  published : m ∈ published
  accepted : consumer.accepts (publications.messageAttributes m) = true
  pending : s.queue.place m = .outside ∧ m ∉ s.undelivered

inductive Subscription.Step (py : Python) (publications : Publications) (maxReceiveCount : Nat)
    (consumer : Consumer) (published : List String) : Subscription → Subscription → Prop where
  | relay {s m} (hdue : Due publications consumer published s m) :
      Subscription.Step py publications maxReceiveCount consumer published s
        { s with queue := s.queue.send m }
  | redrive {s m} (hdue : Due publications consumer published s m) :
      Subscription.Step py publications maxReceiveCount consumer published s
        { s with undelivered := m :: s.undelivered }
  | deliver {s batch calls outcome} (hsize : batch.length ≤ consumer.batchSize) (hnodup : batch.Nodup)
      (hbatch : ∀ m ∈ batch, s.queue.place m = .queued)
      (hcalls : Calls (lambda py consumer.handler ((consumer.service py publications
        maxReceiveCount).event (Mapping.receive batch s.queue.received) batch)) calls outcome) :
      Subscription.Step py publications maxReceiveCount consumer published s
        { s with queue := s.queue.deliver ((consumer.service py publications
          maxReceiveCount).mappingAt ()) batch calls outcome }

variable {py : Python} {publications : Publications} {maxReceiveCount : Nat} {consumer : Consumer}
  {published published' : List String} {s s' : Subscription} {m : String}

theorem Due.mono (h : Due publications consumer published s m) (hsub : published ⊆ published') :
    Due publications consumer published' s m := ⟨hsub h.published, h.accepted, h.pending⟩

theorem Subscription.Step.mono
    (h : Subscription.Step py publications maxReceiveCount consumer published s s')
    (hsub : published ⊆ published') :
    Subscription.Step py publications maxReceiveCount consumer published' s s' := by
  cases h with
  | relay hdue => exact .relay (hdue.mono hsub)
  | redrive hdue => exact .redrive (hdue.mono hsub)
  | deliver hsize hnodup hbatch hcalls => exact .deliver hsize hnodup hbatch hcalls

/-- The topic: what has been published so far, and the subscriptions to it. -/
def topic {ι : Type} (py : Python) (publications : Publications) (maxReceiveCount : Nat)
    (consumers : ι → Consumer) : Products.Family ι (List String) fun _ => Subscription where
  Grow published published' := ∃ m, published' = m :: published
  Step i := Subscription.Step py publications maxReceiveCount (consumers i)
  mono := by
    rintro i published _ s s' ⟨m, rfl⟩ h
    exact h.mono (List.subset_cons_self m published)

def Subscription.empty : Subscription := ⟨.empty, []⟩

/-- What the topic and its consumers can come to, in any order of their steps. -/
def Reachable {ι : Type} [DecidableEq ι] (py : Python) (publications : Publications)
    (maxReceiveCount : Nat) (consumers : ι → Consumer) (published : List String)
    (subscriptions : ι → Subscription) : Prop :=
  ReflTransGen (topic py publications maxReceiveCount consumers).Together
    ([], fun _ => .empty) (published, subscriptions)

/-- What a consumer that is the only one can come to. -/
def ReachableAlone (py : Python) (publications : Publications) (maxReceiveCount : Nat)
    (consumer : Consumer) (published : List String) (s : Subscription) : Prop :=
  ReflTransGen (Subscription.Step py publications maxReceiveCount consumer published) .empty s

/-! ## Isolation -/

theorem grow_all {ι : Type} {consumers : ι → Consumer} :
    ReflTransGen (topic py publications maxReceiveCount consumers).Grow [] published := by
  induction published with
  | nil => exact .refl
  | cons m published ih => exact ih.tail ⟨m, rfl⟩

/-- What the consumers come to one by one, they come to together. -/
theorem reachable_of_alone {ι : Type} [DecidableEq ι] [Fintype ι] {consumers : ι → Consumer}
    {subscriptions : ι → Subscription}
    (h : ∀ i, ReachableAlone py publications maxReceiveCount (consumers i) published (subscriptions i)) :
    Reachable py publications maxReceiveCount consumers published subscriptions :=
  (Products.together_of_grow grow_all).trans (Products.together_of_all h)

/-- What a consumer comes to next to the others, it comes to alone. -/
theorem alone_of_reachable {ι : Type} [DecidableEq ι] {consumers : ι → Consumer}
    {subscriptions : ι → Subscription}
    (h : Reachable py publications maxReceiveCount consumers published subscriptions) (i : ι) :
    ReachableAlone py publications maxReceiveCount (consumers i) published (subscriptions i) :=
  Products.steps_of_alone (Products.alone_of_together h)

/-! ## One worker -/

/-- A call of `process_record` for a message. -/
def Processes (m : String) : Op → Prop
  | .processRecord messageId .. => messageId = .str m

instance (m : String) : DecidablePred (Processes m)
  | .processRecord messageId .. => inferInstanceAs (Decidable (messageId = .str m))

theorem reportFailure_atMost {about : Op → Prop} {messageId : Json} {e : Exc}
    {p : Handler (Option Json)} (h : reportFailure messageId e = some p) : AtMost about 0 p := by
  unfold reportFailure at h
  split at h
  · obtain rfl := Option.some.inj h
    exact atMost_ret
  · cases h

theorem handleRecord_atMost {messages : Messages} {other : String} {n : Nat} :
    AtMost (Processes m) (if other = m then 1 else 0) (handleRecord py (messages.record other n)) := by
  rw [handleRecord_record]
  cases py.loads (messages.body other) with
  | error e =>
      dsimp only
      by_cases hskip : unparseable e = true
      · rw [if_pos hskip]
        exact atMost_ret
      · rw [if_neg hskip]
        exact atMost_raise
  | ok body =>
      have hrest : ∀ answer : Except Exc Unit, AtMost (Processes m) 0
          ((ofExcept answer >>= fun _ => (ret none : Handler (Option Json))).tryCatch
            (reportFailure (.str other))) := fun answer =>
        AtMost.handled (AtMost.then atMost_ofExcept fun _ => atMost_ret) fun e p => reportFailure_atMost
      dsimp only
      by_cases hother : other = m
      · rw [if_pos hother]
        exact atMost_about (congrArg Json.str hother) hrest
      · rw [if_neg hother]
        exact atMost_other (fun h => hother (Json.str.inj h)) hrest

theorem lambda_atMost {name : String} {received : String → Nat} {batch : List String} :
    AtMost (Processes m) (batch.count m)
      (lambda py name ((consumer.service py publications maxReceiveCount).event received batch)) := by
  unfold lambda
  by_cases hname : name = "worker.handler"
  · rw [if_pos hname]
    change AtMost (Processes m) (batch.count m) (collect (handleRecord py)
      (batch.map fun m => publications.record m (received m)) [] >>= fun failures =>
        (ret (.obj [("batchItemFailures", .arr failures)]) : Handler Json))
    exact AtMost.bind (n := 0) (atMost_loop fun other => handleRecord_atMost) fun _ => atMost_ret
  · rw [if_neg hname]
    exact atMost_raise

/-! ## Runs -/

/-- What becomes of a message at a consumer. -/
structure Settles (py : Python) (publications : Publications) (maxReceiveCount : Nat)
    (consumer : Consumer) (published : List String) (s : Subscription) (m : String) : Prop where
  /-- Only what was published and passes the filter policy gets into the queue or the
      dead-letter queue, and only into one of them. -/
  offered : s.queue.place m ≠ .outside ∨ m ∈ s.undelivered →
    m ∈ published ∧ consumer.accepts (publications.messageAttributes m) = true
  redriven : m ∈ s.undelivered → s.queue.place m = .outside
  /-- A message outside the queue is not processed. -/
  unoffered : s.queue.place m = .outside → s.queue.occurrences (Processes m) = 0
  deleted : s.queue.place m = .deleted → Skips py (publications.body m) ∨
    ∃ inv ∈ s.queue.log, Acknowledges inv m ∧
      ∃ body attributes, ⟨.processRecord (.str m) body attributes, .ok ()⟩ ∈ inv.calls
  /-- Each delivery processes it at most once. -/
  once : s.queue.OncePerDelivery m (Processes m)
  bounded : s.queue.occurrences (Processes m) ≤ (s.queue.deliveries m).length ∧
    (s.queue.deliveries m).length ≤ maxReceiveCount
  deadLettered : s.queue.place m = .deadLettered ↔
    (s.queue.deliveries m).length = maxReceiveCount ∧ ∀ inv ∈ s.queue.deliveries m, ¬ Acknowledges inv m
  /-- A consumer with the default `handler` neither processes a message nor deletes it. -/
  misnamed : consumer.handler = "worker.handle" →
    s.queue.occurrences (Processes m) = 0 ∧ s.queue.place m ≠ .deleted

theorem queue_reachable
    (h : ReachableAlone py publications maxReceiveCount consumer published s) :
    (consumer.service py publications maxReceiveCount).Reachable s.queue := by
  unfold ReachableAlone at h
  induction h with
  | refl => exact .refl
  | tail _ hstep ih =>
      cases hstep with
      | relay hdue => exact ih.tail ⟨(), .send hdue.pending.1⟩
      | redrive hdue => exact ih
      | deliver _ hnodup hbatch hcalls => exact ih.tail ⟨(), .deliver hnodup hbatch hcalls⟩

/-- What a subscription has was due to it. -/
structure Admitted (publications : Publications) (consumer : Consumer) (published : List String)
    (m : String) (s : Subscription) : Prop where
  offered : s.queue.place m ≠ .outside ∨ m ∈ s.undelivered →
    m ∈ published ∧ consumer.accepts (publications.messageAttributes m) = true
  redriven : m ∈ s.undelivered → s.queue.place m = .outside

theorem admitted_step (h : Admitted publications consumer published m s)
    (hstep : Subscription.Step py publications maxReceiveCount consumer published s s') :
    Admitted publications consumer published m s' := by
  cases hstep with
  | @relay m' hdue =>
      by_cases hm : m = m'
      · subst hm
        exact ⟨fun _ => ⟨hdue.published, hdue.accepted⟩, fun hmem => absurd hmem hdue.pending.2⟩
      · have hplace : (s.queue.send m').place m = s.queue.place m := Function.update_of_ne hm ..
        refine ⟨fun hheld => h.offered ?_, fun hmem => ?_⟩
        · exact hheld.imp_left fun hne => hplace ▸ hne
        · rw [hplace]
          exact h.redriven hmem
  | @redrive m' hdue =>
      by_cases hm : m = m'
      · subst hm
        exact ⟨fun _ => ⟨hdue.published, hdue.accepted⟩, fun _ => hdue.pending.1⟩
      · have hmem : m ∈ m' :: s.undelivered → m ∈ s.undelivered :=
          fun hmem => (List.mem_cons.mp hmem).resolve_left hm
        exact ⟨fun hheld => h.offered (hheld.imp_right hmem), fun hheld => h.redriven (hmem hheld)⟩
  | @deliver batch calls outcome _ _ hbatch _ =>
      by_cases hm : m ∈ batch
      · have hqueued := hbatch m hm
        have hne : s.queue.place m ≠ .outside := by
          rw [hqueued]
          nofun
        exact ⟨fun _ => h.offered (.inl hne), fun hmem => absurd (h.redriven hmem) hne⟩
      · have hplace : (s.queue.deliver ((consumer.service py publications maxReceiveCount).mappingAt ())
            batch calls outcome).place m = s.queue.place m := if_neg hm
        refine ⟨fun hheld => h.offered ?_, fun hmem => ?_⟩
        · exact hheld.imp_left fun hne => hplace ▸ hne
        · rw [hplace]
          exact h.redriven hmem

/-- An invocation that acknowledges a message runs the worker's function, and skipped or
    processed the message. -/
theorem skips_or_processed_of_logged {inv : Invocation Op Ans}
    (hlogged : Logged ((consumer.service py publications maxReceiveCount).mappingAt ()) inv)
    (hack : Acknowledges inv m) : consumer.handler = "worker.handler" ∧
      (Skips py (publications.body m) ∨
        ∃ body attributes, ⟨.processRecord (.str m) body attributes, .ok ()⟩ ∈ inv.calls) := by
  obtain ⟨received, hcalls⟩ := hlogged
  replace hcalls : Calls (lambda py consumer.handler ((FanOut.consumer py publications.toMessages
      maxReceiveCount).event received inv.batch)) inv.calls inv.outcome := hcalls
  unfold lambda at hcalls
  by_cases hname : consumer.handler = "worker.handler"
  · rw [if_pos hname] at hcalls
    exact ⟨hname, skips_or_processed hcalls hack⟩
  · rw [if_neg hname] at hcalls
    obtain ⟨_, response, houtcome, _⟩ := hack
    rw [houtcome] at hcalls
    exact absurd hcalls not_calls_raise

theorem settles_alone (hmax : 0 < maxReceiveCount)
    (h : ReachableAlone py publications maxReceiveCount consumer published s) :
    Settles py publications maxReceiveCount consumer published s m := by
  have hqueue := queue_reachable h
  have hcourse := (accounted_reachable (m := m) hmax hqueue).course
  have hadmitted : Admitted publications consumer published m s :=
    Transition.invariant h ⟨fun hheld => hheld.elim (absurd rfl) nofun, nofun⟩
      fun _ _ => admitted_step
  have honce : s.queue.OncePerDelivery m (Processes m) :=
    oncePerDelivery hqueue hmax fun _ _ _ => lambda_atMost
  have hdeleted : s.queue.place m = .deleted → consumer.handler = "worker.handler" ∧
      (Skips py (publications.body m) ∨ ∃ inv ∈ s.queue.log, Acknowledges inv m ∧
        ∃ body attributes, ⟨.processRecord (.str m) body attributes, .ok ()⟩ ∈ inv.calls) := by
    intro hplace
    obtain ⟨inv, hmem, hack⟩ := Service.acknowledged_of_deleted hqueue hplace
    obtain ⟨_, hlogged⟩ := Service.logged_of_mem hqueue inv hmem
    obtain ⟨hname, hdone⟩ := skips_or_processed_of_logged hlogged hack
    exact ⟨hname, hdone.imp_right fun hcall => ⟨inv, hmem, hack, hcall⟩⟩
  have hother : consumer.handler = "worker.handle" → consumer.handler ≠ "worker.handler" := by
    rintro hname
    rw [hname]
    decide
  refine ⟨hadmitted.offered, hadmitted.redriven, fun houtside => ?_, fun hplace => (hdeleted hplace).2,
    honce, ⟨honce.occurrences_le, hcourse.length_le⟩, hcourse.deadLettered_iff_unacknowledged hmax,
    fun hname => ⟨?_, ?_⟩⟩
  · have hbounded := honce.occurrences_le
    rw [houtside] at hcourse
    generalize s.queue.deliveries m = tries at hcourse hbounded
    cases hcourse with
    | outside => exact Nat.le_zero.mp hbounded
  · apply occurrences_eq_zero hqueue
    intro _ received batch
    change AtMost (Processes m) 0 (lambda py consumer.handler _)
    unfold lambda
    rw [if_neg (hother hname)]
    exact atMost_raise
  · exact fun hplace => hother hname (hdeleted hplace).1

/-- In every run of the topic, whatever the other consumers do, a message that a consumer
    is due is processed there, skipped or dead-lettered, within the receives it is allowed.
    With the default `handler` it is never processed. -/
theorem topic_settles {ι : Type} [DecidableEq ι] {consumers : ι → Consumer}
    {subscriptions : ι → Subscription} (hmax : 0 < maxReceiveCount)
    (h : Reachable py publications maxReceiveCount consumers published subscriptions) (i : ι) (m : String) :
    Settles py publications maxReceiveCount (consumers i) published (subscriptions i) m :=
  settles_alone hmax (alone_of_reachable h i)

def samplePublications : Publications where
  body _ := "\x7b\x7d"
  attributes _ n := .obj [("ApproximateReceiveCount", .str (toString n))]
  messageAttributes _ := [("event_type", "order_created")]

/-- A consumer with the function that there is. -/
def sampleConsumer : Consumer where
  handler := "worker.handler"

/-- The message as a consumer first has it. -/
def sampleQueued : Subscription :=
  { Subscription.empty with queue := Subscription.empty.queue.send "evt-1" }

theorem handler_samplePublications : Calls
    (lambda Python.sample "worker.handler" ((sampleConsumer.service Python.sample samplePublications 5).event
      (Mapping.receive ["evt-1"] sampleQueued.queue.received) ["evt-1"]))
    [⟨.processRecord (.str "evt-1") (.obj []) (samplePublications.attributes "evt-1" 1), .ok ()⟩]
    (.returned (BatchFunction.response [])) := by
  have hloads : Python.sample.loads (samplePublications.body "evt-1") = .ok (.obj []) := by
    decide +kernel
  have hrecord : Calls (handleRecord Python.sample (samplePublications.record "evt-1" 1))
      [⟨.processRecord (.str "evt-1") (.obj []) (samplePublications.attributes "evt-1" 1), .ok ()⟩]
      (.returned none) := by
    rw [handleRecord_record, hloads]
    exact calls_call_cons.mpr (calls_ret.mpr ⟨rfl, .inl rfl⟩)
  change Calls (collect (handleRecord Python.sample) [samplePublications.record "evt-1" 1] [] >>=
    fun failures => (ret (BatchFunction.response failures) : Handler Json)) _ _
  apply calls_bind_ret.mpr
  exact ⟨[], rfl, calls_bind_ret.mpr ⟨none, rfl, hrecord⟩⟩

/-- The message was delivered and processed. -/
def sampleProcessed : Subscription where
  queue := sampleQueued.queue.deliver
    ((sampleConsumer.service Python.sample samplePublications 5).mappingAt ()) ["evt-1"]
    [⟨.processRecord (.str "evt-1") (.obj []) (samplePublications.attributes "evt-1" 1), .ok ()⟩]
    (.returned (BatchFunction.response []))
  undelivered := []

theorem topic_settles_processed : sampleProcessed.queue.place "evt-1" = .deleted ∧
    Settles Python.sample samplePublications 5 sampleConsumer ["evt-1"] sampleProcessed "evt-1" := by
  have hdue : Due samplePublications sampleConsumer ["evt-1"] .empty "evt-1" :=
    ⟨List.mem_cons_self, rfl, rfl, List.not_mem_nil⟩
  have hqueued : ∀ m ∈ ["evt-1"], sampleQueued.queue.place m = .queued := by
    intro m hmem
    rw [List.mem_singleton.mp hmem]
    rfl
  have halone : ReachableAlone Python.sample samplePublications 5 sampleConsumer ["evt-1"]
      sampleProcessed :=
    .tail (.single (.relay hdue))
      (.deliver (by decide : 1 ≤ 10) (by decide) hqueued handler_samplePublications)
  have hreach : Reachable Python.sample samplePublications 5 (fun _ : Fin 3 => sampleConsumer) ["evt-1"]
      fun _ => sampleProcessed := reachable_of_alone fun _ => halone
  exact ⟨rfl, topic_settles (by decide) hreach 0 "evt-1"⟩

end FanOut
