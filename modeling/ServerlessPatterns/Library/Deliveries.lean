-- SUMMARY: How often a message queue delivers a message, and where each delivery leaves it.
import Mathlib.Data.List.Nodup
import ServerlessPatterns.Library.BatchFunction
import ServerlessPatterns.Library.MessageQueue
import ServerlessPatterns.Library.Occurrences

/-!
# Deliveries

The redrive policy bounds the deliveries of a message. All of them but the last one
leave it unacknowledged, and an acknowledgement is always the last one. What the
function does for a message in one invocation is thereby bounded over a whole run.

The function may keep something from one invocation to the next. Each invocation
starts from any state of it.
-/

namespace MessageQueue

open Program Relation

/-- A queue that is mapped to a function with a state of its own. -/
structure Service (State Op : Type) (Ans : Op → Type) where
  handler : State → Json → Program Op Ans Exc Json
  record : String → Nat → Json
  maxReceiveCount : Nat

variable {State Op : Type} {Ans : Op → Type} {q q' : Queue Op Ans} {m : String}

namespace Service

/-- The queue as an invocation finds it that starts from this state. -/
def mappingAt (service : Service State Op Ans) (state : State) : Mapping Op Ans :=
  ⟨service.handler state, service.record, service.maxReceiveCount⟩

def event (service : Service State Op Ans) (received : String → Nat) (batch : List String) : Json :=
  .obj [("Records", .arr (batch.map fun m => service.record m (received m)))]

def Step (service : Service State Op Ans) (q q' : Queue Op Ans) : Prop :=
  ∃ state, MessageQueue.Step (service.mappingAt state) q q'

abbrev Reachable (service : Service State Op Ans) (q : Queue Op Ans) : Prop :=
  ReflTransGen service.Step .empty q

variable {service : Service State Op Ans}

/-- An invocation in the log is one of the handler, on the records of its batch. -/
theorem logged_of_mem (h : service.Reachable q) :
    ∀ inv ∈ q.log, ∃ state, Logged (service.mappingAt state) inv := by
  refine Transition.invariant
    (P := fun q => ∀ inv ∈ q.log, ∃ state, Logged (service.mappingAt state) inv) h nofun ?_
  rintro q q' hall ⟨state, hstep⟩ inv hmem
  cases hstep with
  | send => exact hall inv hmem
  | deliver _ _ hcalls =>
      rcases List.mem_append.mp hmem with hold | hnew
      · exact hall inv hold
      · obtain rfl := List.mem_singleton.mp hnew
        exact ⟨state, _, hcalls⟩

/-- A message is deleted by an invocation that acknowledges it. -/
theorem acknowledged_of_deleted (h : service.Reachable q) (hdeleted : q.place m = .deleted) :
    ∃ inv ∈ q.log, Acknowledges inv m := by
  revert hdeleted
  refine Transition.invariant
    (P := fun q => q.place m = .deleted → ∃ inv ∈ q.log, Acknowledges inv m) h nofun ?_
  rintro q q' hall ⟨state, hstep⟩ hdeleted
  cases hstep with
  | send => exact hall (deleted_of_send hdeleted)
  | deliver =>
      rcases deleted_of_deliver hdeleted with hack | hold
      · exact ⟨_, List.mem_append_right _ List.mem_cons_self, hack⟩
      · obtain ⟨inv, hmem, hack⟩ := hall hold
        exact ⟨inv, List.mem_append_left _ hmem, hack⟩

end Service

/-! ## Histories -/

/-- An invocation, with the state that it found when it began. -/
structure Begun (State Op : Type) (Ans : Op → Type) extends Invocation Op Ans where
  found : State

namespace Service

/-- The queue after a run, and the invocations of the run. -/
inductive History (service : Service State Op Ans) : Queue Op Ans → List (Begun State Op Ans) → Prop where
  | empty : History service .empty []
  | send {q invs m} (h : History service q invs) (houtside : q.place m = .outside) :
      History service (q.send m) invs
  | deliver {q invs state batch calls outcome} (h : History service q invs) (hnodup : batch.Nodup)
      (hbatch : ∀ m ∈ batch, q.place m = .queued)
      (hcalls : Calls (service.handler state (service.event (Mapping.receive batch q.received) batch))
        calls outcome) :
      History service (q.deliver (service.mappingAt state) batch calls outcome)
        (invs ++ [⟨⟨batch, calls, outcome⟩, state⟩])

variable {service : Service State Op Ans} {invs : List (Begun State Op Ans)}

theorem History.reachable [hstate : Nonempty State] (h : service.History q invs) :
    service.Reachable q := by
  induction h with
  | empty => exact .refl
  | send _ houtside ih =>
      obtain ⟨state⟩ := hstate
      exact ih.tail ⟨state, .send houtside⟩
  | @deliver _ _ state _ _ _ _ hnodup hbatch hcalls ih =>
      exact ih.tail ⟨state, .deliver hnodup hbatch hcalls⟩

theorem History.log_eq (h : service.History q invs) : q.log = invs.map Begun.toInvocation := by
  induction h with
  | empty => rfl
  | send _ _ ih => exact ih
  | deliver _ _ _ _ ih => rw [List.map_append, ← ih]; rfl

/-- Each invocation is one of the handler, in the state that it found. -/
theorem History.logged (h : service.History q invs) :
    ∀ inv ∈ invs, Logged (service.mappingAt inv.found) inv.toInvocation := by
  induction h with
  | empty => nofun
  | send _ _ ih => exact ih
  | deliver _ _ _ hcalls ih =>
      intro inv hmem
      rcases List.mem_append.mp hmem with hold | hnew
      · exact ih inv hold
      · obtain rfl := List.mem_singleton.mp hnew
        exact ⟨_, hcalls⟩

theorem History.acknowledged_of_deleted [Nonempty State] (h : service.History q invs)
    (hdeleted : q.place m = .deleted) :
    ∃ inv ∈ invs, Acknowledges inv.toInvocation m := by
  obtain ⟨inv, hmem, hack⟩ := Service.acknowledged_of_deleted h.reachable hdeleted
  rw [h.log_eq] at hmem
  obtain ⟨begun, hbegun, rfl⟩ := List.mem_map.mp hmem
  exact ⟨begun, hbegun, hack⟩

/-- A message that is sent, and delivered alone to an invocation that does not list it, is
    deleted. -/
theorem exists_deleted {state : State} {calls : List (Event Op Ans)} {response : Json}
    (hcalls : Calls (service.handler state (service.event (fun _ => 1) [m])) calls (.returned response))
    (hfailed : .str m ∉ failedIds response) :
    ∃ q, service.History q [⟨⟨[m], calls, .returned response⟩, state⟩] ∧ q.place m = .deleted := by
  have hbatch : ∀ m' ∈ [m], ((Queue.empty : Queue Op Ans).send m).place m' = .queued := by
    intro m' hmem
    rw [List.mem_singleton.mp hmem]
    exact Function.update_self ..
  have hevent : service.event (Mapping.receive [m] ((Queue.empty : Queue Op Ans).send m).received) [m] =
      service.event (fun _ => 1) [m] := by
    simp [event, Mapping.receive, Queue.send, Queue.empty]
  refine ⟨_, .deliver (.send .empty rfl) (List.nodup_singleton m) hbatch (hevent ▸ hcalls), ?_⟩
  simp [Queue.deliver, settle_eq_deleted, hfailed]

end Service

variable {mapping : Mapping Op Ans} {service : Service State Op Ans}

/-- The deliveries of a message among some invocations. -/
def deliveriesOf (m : String) (log : List (Invocation Op Ans)) : List (Invocation Op Ans) :=
  log.filter fun inv => decide (m ∈ inv.batch)

/-- The deliveries of a message so far, oldest first. -/
def Queue.deliveries (q : Queue Op Ans) (m : String) : List (Invocation Op Ans) := deliveriesOf m q.log

/-- Where a message is after its deliveries. -/
inductive Course (maxReceiveCount : Nat) (m : String) : Place → List (Invocation Op Ans) → Prop where
  | outside : Course maxReceiveCount m .outside []
  | queued {tries} (hopen : ∀ inv ∈ tries, ¬ Acknowledges inv m)
      (hleft : tries.length < maxReceiveCount) : Course maxReceiveCount m .queued tries
  | deadLettered {tries} (hopen : ∀ inv ∈ tries, ¬ Acknowledges inv m)
      (hspent : tries.length = maxReceiveCount) : Course maxReceiveCount m .deadLettered tries
  | deleted {tries last} (hopen : ∀ inv ∈ tries, ¬ Acknowledges inv m)
      (hlast : Acknowledges last m) (hleft : tries.length < maxReceiveCount) :
      Course maxReceiveCount m .deleted (tries ++ [last])

theorem Course.length_le {place : Place} {tries : List (Invocation Op Ans)} {max : Nat}
    (h : Course max m place tries) : tries.length ≤ max := by
  cases h with
  | outside => exact Nat.zero_le max
  | queued _ hleft => exact hleft.le
  | deadLettered _ hspent => exact hspent.le
  | deleted _ _ hleft =>
      rw [List.length_append]
      exact hleft

/-- A message is queued again until its last receive. -/
theorem release_course {tries : List (Invocation Op Ans)} (hopen : ∀ inv ∈ tries, ¬ Acknowledges inv m)
    (hle : tries.length ≤ mapping.maxReceiveCount) :
    Course mapping.maxReceiveCount m (mapping.release tries.length) tries := by
  unfold Mapping.release
  by_cases hleft : tries.length < mapping.maxReceiveCount
  · rw [if_pos hleft]
    exact .queued hopen hleft
  · rw [if_neg hleft]
    exact .deadLettered hopen (hle.antisymm (not_lt.mp hleft))

/-- What one more delivery makes of a queued message. -/
theorem settle_course {tries : List (Invocation Op Ans)} {batch : List String}
    {calls : List (Event Op Ans)} {outcome : Outcome Exc Json} (hmem : m ∈ batch)
    (h : Course mapping.maxReceiveCount m .queued tries) :
    Course mapping.maxReceiveCount m (mapping.settle outcome (tries.length + 1) m)
      (tries ++ [⟨batch, calls, outcome⟩]) := by
  cases h with
  | queued hopen hleft =>
      by_cases hack : ∃ response, outcome = .returned response ∧ .str m ∉ failedIds response
      · rw [settle_eq_deleted.mpr hack]
        exact .deleted hopen ⟨hmem, hack⟩ hleft
      · have hopen' : ∀ inv ∈ tries ++ [⟨batch, calls, outcome⟩], ¬ Acknowledges inv m := by
          intro inv hinv
          rcases List.mem_append.mp hinv with hold | hnew
          · exact hopen inv hold
          · obtain rfl := List.mem_singleton.mp hnew
            exact fun hacked => hack hacked.2
        have hrelease : mapping.settle outcome (tries.length + 1) m =
            mapping.release (tries ++ [(⟨batch, calls, outcome⟩ : Invocation Op Ans)]).length := by
          rw [List.length_append, List.length_singleton]
          cases outcome with
          | returned response =>
              have hfailed : Json.str m ∈ failedIds response := by
                by_contra hnot
                exact hack ⟨response, rfl, hnot⟩
              exact if_pos hfailed
          | raised e => rfl
          | lost => rfl
        rw [hrelease]
        apply release_course hopen'
        rw [List.length_append]
        exact hleft

/-- What a run leaves in the books of one message. -/
structure Accounted (maxReceiveCount : Nat) (m : String) (q : Queue Op Ans) : Prop where
  received : q.received m = (q.deliveries m).length
  course : Course maxReceiveCount m (q.place m) (q.deliveries m)
  distinct : ∀ inv ∈ q.log, inv.batch.Nodup

theorem accounted_step (hmax : 0 < mapping.maxReceiveCount)
    (h : Accounted mapping.maxReceiveCount m q) (hstep : Step mapping q q') :
    Accounted mapping.maxReceiveCount m q' := by
  cases hstep with
  | @send m' houtside =>
      refine ⟨h.received, ?_, h.distinct⟩
      have hsame : (q.send m').deliveries m = q.deliveries m := rfl
      rw [hsame]
      by_cases hm : m = m'
      · subst hm
        have hplace : (q.send m).place m = .queued := Function.update_self ..
        have hcourse := h.course
        rw [houtside] at hcourse
        rw [hplace]
        generalize q.deliveries m = tries at hcourse
        cases hcourse with
        | outside => exact .queued (by simp) hmax
      · have hplace : (q.send m').place m = q.place m := Function.update_of_ne hm ..
        rw [hplace]
        exact h.course
  | @deliver batch calls outcome hnodup hbatch _ =>
      have hdistinct : ∀ inv ∈ q.log ++ [⟨batch, calls, outcome⟩], inv.batch.Nodup := by
        intro inv hmem
        rcases List.mem_append.mp hmem with hold | hnew
        · exact h.distinct inv hold
        · obtain rfl := List.mem_singleton.mp hnew
          exact hnodup
      by_cases hm : m ∈ batch
      · have hnew : (q.deliver mapping batch calls outcome).deliveries m =
            q.deliveries m ++ [⟨batch, calls, outcome⟩] := by
          simp [Queue.deliveries, deliveriesOf, Queue.deliver, hm]
        have hcount : (q.deliver mapping batch calls outcome).received m =
            (q.deliveries m).length + 1 := by
          rw [← h.received]
          exact if_pos hm
        have hplace : (q.deliver mapping batch calls outcome).place m =
            mapping.settle outcome ((q.deliveries m).length + 1) m := by
          rw [← hcount]
          exact if_pos hm
        have hcourse := h.course
        rw [hbatch m hm] at hcourse
        refine ⟨?_, ?_, hdistinct⟩
        · rw [hcount, hnew, List.length_append, List.length_singleton]
        · rw [hplace, hnew]
          exact settle_course hm hcourse
      · have hold : (q.deliver mapping batch calls outcome).deliveries m = q.deliveries m := by
          simp [Queue.deliveries, deliveriesOf, Queue.deliver, hm]
        have hcount : (q.deliver mapping batch calls outcome).received m = q.received m := if_neg hm
        have hplace : (q.deliver mapping batch calls outcome).place m = q.place m := if_neg hm
        refine ⟨?_, ?_, hdistinct⟩
        · rw [hcount, hold, h.received]
        · rw [hplace, hold]
          exact h.course

theorem accounted_reachable (hmax : 0 < service.maxReceiveCount) (h : service.Reachable q) :
    Accounted service.maxReceiveCount m q := by
  refine Transition.invariant (P := Accounted service.maxReceiveCount m) h ?_ ?_
  · exact ⟨rfl, .outside, nofun⟩
  · rintro q q' ha ⟨state, hstep⟩
    exact @accounted_step _ _ _ _ m (service.mappingAt state) hmax ha hstep

/-! ## What the function does for a message -/

/-- The operations of a kind that all invocations so far have asked for. -/
def Queue.occurrences (q : Queue Op Ans) (about : Op → Prop) [DecidablePred about] : Nat :=
  (q.log.flatMap Invocation.calls).countP fun event => about event.1

/-- Each delivery of the message asks for at most one operation of a kind, and no other
    invocation asks for any. -/
def Queue.OncePerDelivery (q : Queue Op Ans) (m : String) (about : Op → Prop) [DecidablePred about] : Prop :=
  ∀ inv ∈ q.log, inv.calls.countP (fun event => about event.1) ≤ if m ∈ inv.batch then 1 else 0

/-- A function that asks for an operation about a message at most once for each of its
    records does so at most once in each of its deliveries. -/
theorem oncePerDelivery {about : Op → Prop} [DecidablePred about] (h : service.Reachable q)
    (hmax : 0 < service.maxReceiveCount)
    (hasks : ∀ state received batch, AtMost about (batch.count m)
      (service.handler state (service.event received batch))) :
    q.OncePerDelivery m about := by
  intro inv hmem
  have hnodup := (accounted_reachable (m := m) hmax h).distinct inv hmem
  obtain ⟨state, received, hcalls⟩ := service.logged_of_mem h inv hmem
  have hle := (hasks state received inv.batch).calls hcalls
  by_cases hm : m ∈ inv.batch
  · rw [List.count_eq_one_of_mem hnodup hm] at hle
    rwa [if_pos hm]
  · rw [List.count_eq_zero_of_not_mem hm] at hle
    rwa [if_neg hm]

/-- All deliveries together then ask no more often than there are deliveries. -/
theorem Queue.OncePerDelivery.occurrences_le {about : Op → Prop} [DecidablePred about]
    (h : q.OncePerDelivery m about) : q.occurrences about ≤ (q.deliveries m).length := by
  unfold Queue.OncePerDelivery at h
  unfold Queue.occurrences Queue.deliveries
  generalize q.log = log at h
  induction log with
  | nil => exact Nat.le_refl 0
  | cons inv log ih =>
      obtain ⟨hfirst, hrest⟩ := List.forall_mem_cons.mp h
      have hlog := ih hrest
      rw [List.flatMap_cons, List.countP_append, deliveriesOf, List.filter_cons]
      rw [deliveriesOf] at hlog
      by_cases hm : m ∈ inv.batch
      · simp only [hm, decide_true, if_true, List.length_cons] at hfirst ⊢
        omega
      · simp only [hm, decide_false, Bool.false_eq_true, if_false] at hfirst ⊢
        omega

/-- A function that never asks for an operation about a message does not do so in a run. -/
theorem occurrences_eq_zero {about : Op → Prop} [DecidablePred about] (h : service.Reachable q)
    (hasks : ∀ state received batch, AtMost about 0
      (service.handler state (service.event received batch))) :
    q.occurrences about = 0 := by
  apply List.countP_eq_zero.mpr
  intro event hevent
  obtain ⟨inv, hmem, hcall⟩ := List.mem_flatMap.mp hevent
  obtain ⟨state, received, hcalls⟩ := service.logged_of_mem h inv hmem
  simpa using (hasks state received inv.batch).none hcalls event hcall

theorem sum_eq_count {batch : List String} :
    (batch.map fun other => if other = m then 1 else 0).sum = batch.count m := by
  induction batch with
  | nil => rfl
  | cons other batch ih =>
      rw [List.map_cons, List.sum_cons, ih, List.count_cons, Nat.add_comm]
      simp

/-- A loop over a batch asks for an operation about a message once for each of its
    records, when no other record makes it do so. -/
theorem atMost_loop {about : Op → Prop} {body : Json → Program Op Ans Exc (Option Json)}
    {record : String → Json} {batch : List String}
    (hbody : ∀ other, AtMost about (if other = m then 1 else 0) (body (record other))) :
    AtMost about (batch.count m) (collect body (batch.map record) []) := by
  rw [collect_map, ← sum_eq_count]
  exact atMost_collect fun other _ => hbody other

/-- A message is dead-lettered after its last delivery, when all of them left it
    unacknowledged, and not before. -/
theorem Course.deadLettered_iff_unacknowledged {place : Place} {tries : List (Invocation Op Ans)}
    {max : Nat} (hmax : 0 < max) (h : Course max m place tries) :
    place = .deadLettered ↔ tries.length = max ∧ ∀ inv ∈ tries, ¬ Acknowledges inv m := by
  constructor
  · rintro rfl
    cases h with
    | deadLettered hopen hspent => exact ⟨hspent, hopen⟩
  · rintro ⟨hspent, hopen⟩
    cases h with
    | outside => exact absurd hspent hmax.ne
    | queued _ hleft => exact absurd hspent hleft.ne
    | deadLettered => rfl
    | @deleted _ last _ hlast _ => exact absurd hlast (hopen last (by simp))

/-- What a loop did with the record of a message that its response does not list. -/
theorem part_of_unlisted {body : Json → Program Op Ans Exc (Option Json)} {record : String → Json}
    {batch : List String} {calls : List (Event Op Ans)} {response : Json}
    (hcalls : Calls (collect body (batch.map record) [] >>= fun failures =>
      (ret (BatchFunction.response failures) : Program Op Ans Exc Json)) calls (.returned response))
    (hmem : m ∈ batch) (hunlisted : .str m ∉ failedIds response) :
    ∃ part y, Calls (body (record m)) part (.returned y) ∧ (∀ event ∈ part, event ∈ calls) ∧
      y ≠ some (.obj [("itemIdentifier", .str m)]) := by
  obtain ⟨failures, rfl, hloop⟩ := calls_bind_ret.mp hcalls
  obtain ⟨part, y, hbody, hpart, hreported⟩ :=
    (collect_returned hloop).2 (record m) (List.mem_map_of_mem hmem)
  refine ⟨part, y, hbody, hpart, ?_⟩
  rintro rfl
  apply hunlisted
  exact List.mem_filterMap.mpr ⟨_, hreported _ rfl, rfl⟩

end MessageQueue
