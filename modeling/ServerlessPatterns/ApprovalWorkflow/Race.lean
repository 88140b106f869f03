-- SUMMARY: Clicks on the links of one approval that race with each other and with the gate's timeout.
import ServerlessPatterns.ApprovalWorkflow.Click
import ServerlessPatterns.Library.Interleaving
import ServerlessPatterns.Library.Transition

/-!
# Races between clicks

Any number of clicks carry the request id and the token of one emailed approval.
They interleave operation by operation, each may be abandoned anywhere, and the
gate may time out between any two operations.

`record_decision` runs after the callback that cannot be taken back, and its
guard is on another system. What makes the two agree is `Agreed`: the click
whose callback was accepted is the only one that ever gets to the record, and it
finds the record undecided.
-/

namespace ApprovalWorkflow

open Program

/-- Clicks under way, and the world they act on. -/
abbrev Clicks (ι : Type) := Pool ι Op Ans Exc HtmlResponse World

/-- The gate waits on `token`, and the links to it are out. -/
structure Emailed (requestId token : String) (w : World) : Prop where
  waiting : w.tasks token = some .waiting
  record : ∃ record, w.table requestId = some record ∧
    record.get ["request_id"] = some (.str requestId) ∧
    record.get ["status"] = some statusNotified ∧ record.get ["task_token"] = some (.str token)

/-- The links that were emailed for a request. -/
def EmailedLink (requestId token : String) (event : HttpEvent) : Prop :=
  event.requestId = requestId ∧ event.token = token

variable {ι : Type}

/-- Step Functions accepted this result from click `i`. -/
def Accepted (pool : Clicks ι) (token : String) (i : ι) (result : TaskResult) : Prop :=
  ⟨.sendTask token result, .ok ()⟩ ∈ (pool.thread i).events

/-- Click `i` called `record_decision` and got this answer. -/
def Recorded (py : Python) (link : ι → HttpEvent) (pool : Clicks ι) (i : ι)
    (answer : Except Exc Unit) : Prop :=
  ⟨(link i).recordOp py, answer⟩ ∈ (pool.thread i).events

/-- What ties the record, the task token and the clicks together. -/
structure Agreed (py : Python) (link : ι → HttpEvent) (requestId token : String)
    (pool : Clicks ι) : Prop where
  traced : pool.Traced fun i => decisionHandler py (link i)
  resumed : ∀ result, pool.world.tasks token = some (.resumed result) ↔
    ∃ i, Accepted pool token i result
  single : ∀ i j result result', Accepted pool token i result → Accepted pool token j result' → i = j
  unrefused : ∀ i e, ¬ Recorded py link pool i (.error e)
  record : ∃ record, pool.world.table requestId = some record ∧
    (record.get ["request_id"]).isSome = true ∧
    ((record.get ["status"] = some statusNotified ∧ ∀ i, ¬ Recorded py link pool i (.ok ())) ∨
      ∃ i, Recorded py link pool i (.ok ()) ∧ record.get ["status"] = some ((link i).verdict py))

variable {py : Python} {link : ι → HttpEvent} {requestId token : String} {pool pool' : Clicks ι}

namespace Agreed

theorem clickAt (h : Agreed py link requestId token pool) (i : ι) :
    ClickAt py (link i) (pool.thread i).events (pool.thread i).program :=
  clickAt_of_trace (h.traced i)

theorem clickEvents (h : Agreed py link requestId token pool) (i : ι) :
    ClickEvents py (link i) (pool.thread i).events :=
  clickEvents_of_clickAt (h.clickAt i)

/-- A click that called `record_decision` is one whose callback was accepted. -/
theorem accepted_of_recorded (hlink : ∀ i, EmailedLink requestId token (link i))
    (h : Agreed py link requestId token pool) {i : ι} {answer : Except Exc Unit}
    (hrecorded : Recorded py link pool i answer) :
    ∃ decidedAt, Accepted pool token i ((link i).report py decidedAt) := by
  obtain ⟨decidedAt, haccepted⟩ := (h.clickEvents i).accepted_of_recordOp hrecorded
  rw [(hlink i).2] at haccepted
  exact ⟨decidedAt, haccepted⟩

/-- As long as no click called `record_decision`, the record is undecided. -/
theorem undecided (h : Agreed py link requestId token pool)
    (hnone : ∀ i a, ¬ Recorded py link pool i a) :
    ∃ record, pool.world.table requestId = some record ∧
      (record.get ["request_id"]).isSome = true ∧ record.get ["status"] = some statusNotified := by
  obtain ⟨record, hread, hid, ⟨hstatus, _⟩ | ⟨i, hi, _⟩⟩ := h.record
  · exact ⟨record, hread, hid, hstatus⟩
  · exact absurd hi (hnone i _)

/-- Only one click ever called `record_decision`. -/
theorem eq_of_recorded (hlink : ∀ i, EmailedLink requestId token (link i))
    (h : Agreed py link requestId token pool) {i j : ι} {a b : Except Exc Unit}
    (hi : Recorded py link pool i a) (hj : Recorded py link pool j b) : i = j := by
  obtain ⟨_, hi⟩ := h.accepted_of_recorded hlink hi
  obtain ⟨_, hj⟩ := h.accepted_of_recorded hlink hj
  exact h.single i j _ _ hi hj

/-- A decision in the record was written by a click whose result resumed the
    execution. -/
theorem decided (hlink : ∀ i, EmailedLink requestId token (link i))
    (h : Agreed py link requestId token pool) {status : Json}
    (hstatus : pool.world.table.attr requestId ["status"] = some status)
    (hne : status ≠ statusNotified) :
    ∃ i decidedAt, Recorded py link pool i (.ok ()) ∧ (link i).verdict py = status ∧
      pool.world.tasks token = some (.resumed ((link i).report py decidedAt)) := by
  obtain ⟨record, hread, _, ⟨hnotified, _⟩ | ⟨i, hi, hverdict⟩⟩ := h.record
  · rw [Table.attr, hread, Option.bind_some, hnotified, Option.some.injEq] at hstatus
    exact absurd hstatus.symm hne
  · rw [Table.attr, hread, Option.bind_some, hverdict, Option.some.injEq] at hstatus
    obtain ⟨decidedAt, haccepted⟩ := h.accepted_of_recorded hlink hi
    exact ⟨i, decidedAt, hi, hstatus, (h.resumed _).mpr ⟨i, haccepted⟩⟩

theorem recorded_of_getElem (h : Agreed py link requestId token pool) {i : ι} {n : Nat}
    {r d : Json} {a c : String} {answer : Except Exc Unit}
    (hget : (pool.thread i).events[n]? = some (⟨.recordDecision r d a c, answer⟩ : Event Op Ans)) :
    n = 3 ∧ Recorded py link pool i answer := by
  obtain ⟨hn, rfl, rfl, rfl, rfl⟩ := (h.clickEvents i).recordDecision_eq hget
  exact ⟨hn, List.mem_of_getElem? hget⟩

end Agreed

/-! ## The invariant -/

theorem agreed_init {w : World} (h : Emailed requestId token w) :
    Agreed py link requestId token (Pool.init w fun i => decisionHandler py (link i)) := by
  have haccepted : ∀ i result,
      ¬ Accepted (Pool.init w fun i => decisionHandler py (link i)) token i result :=
    fun i result => List.not_mem_nil
  have hrecorded : ∀ i a,
      ¬ Recorded py link (Pool.init w fun i => decisionHandler py (link i)) i a :=
    fun i a => List.not_mem_nil
  refine ⟨Pool.traced_init, ?_, ?_, fun i e => hrecorded i _, ?_⟩
  · intro result
    have hwaiting : (Pool.init w fun i => decisionHandler py (link i)).world.tasks token =
        some .waiting := h.waiting
    simp [hwaiting, haccepted]
  · exact fun i j result result' hi => absurd hi (haccepted i result)
  · obtain ⟨record, hread, hid, hstatus, _⟩ := h.record
    exact ⟨record, hread, by rw [hid]; rfl, .inl ⟨hstatus, fun i => hrecorded i _⟩⟩

variable [DecidableEq ι]

/-- A click performs an operation, or the gate times out. -/
inductive RaceStep (py : Python) (token : String) : Clicks ι → Clicks ι → Prop where
  | click {pool pool' : Clicks ι} (h : Pool.Step (exec py) pool pool') : RaceStep py token pool pool'
  | timeout {pool : Clicks ι} (hwaiting : pool.world.tasks token = some .waiting) :
      RaceStep py token pool { pool with world := pool.world.settle token .timedOut }

/-- An operation other than an accepted callback or a decision, which leaves the
    world as it is. -/
theorem agreed_quiet (h : Agreed py link requestId token pool) {i : ι} {op : Op} {answer : Ans op}
    {k : Ans op → Handler HtmlResponse} (hprogram : (pool.thread i).program = .call op k)
    (hsend : ∀ result, (⟨.sendTask token result, .ok ()⟩ : Event Op Ans) ≠ ⟨op, answer⟩)
    (hrecord : ∀ j a, (⟨(link j).recordOp py, a⟩ : Event Op Ans) ≠ ⟨op, answer⟩) :
    Agreed py link requestId token (pool.answered i op answer (k answer) pool.world) := by
  have haccepted : ∀ j result, Accepted (pool.answered i op answer (k answer) pool.world) token j
      result ↔ Accepted pool token j result :=
    fun j result => Pool.mem_answered_events_of_ne (hsend result)
  have hrecorded : ∀ j a, Recorded py link (pool.answered i op answer (k answer) pool.world) j a ↔
      Recorded py link pool j a :=
    fun j a => Pool.mem_answered_events_of_ne (hrecord j a)
  refine ⟨h.traced.answered hprogram, ?_, ?_, ?_, ?_⟩
  · simpa only [Pool.answered_world, haccepted] using h.resumed
  · simpa only [haccepted] using h.single
  · simpa only [hrecorded] using h.unrefused
  · simpa only [Pool.answered_world, hrecorded] using h.record

/-- Step Functions accepts a callback: no other click had one accepted. -/
theorem agreed_accepted (hlink : ∀ i, EmailedLink requestId token (link i))
    (h : Agreed py link requestId token pool) {i : ι} {result : TaskResult}
    {k : Except Exc Unit → Handler HtmlResponse}
    (hprogram : (pool.thread i).program = .call (.sendTask token result) k)
    (hwaiting : pool.world.tasks token = some .waiting) :
    Agreed py link requestId token (pool.answered i (.sendTask token result) (.ok ()) (k (.ok ()))
      (pool.world.settle token (.resumed result))) := by
  have hnone : ∀ j result, ¬ Accepted pool token j result := by
    intro j result' haccepted
    have hresumed := (h.resumed result').mpr ⟨j, haccepted⟩
    rw [hwaiting] at hresumed
    cases hresumed
  have hunrecorded : ∀ j a, ¬ Recorded py link pool j a := by
    intro j a hrecorded
    obtain ⟨_, haccepted⟩ := h.accepted_of_recorded hlink hrecorded
    exact hnone j _ haccepted
  set pool' := pool.answered i (.sendTask token result) (.ok ()) (k (.ok ()))
    (pool.world.settle token (.resumed result)) with hpool'
  have haccepted : ∀ j result', Accepted pool' token j result' ↔ j = i ∧ result' = result := by
    intro j result'
    simp only [Accepted, hpool', Pool.mem_answered_events]
    constructor
    · rintro (hold | ⟨rfl, heq⟩)
      · exact absurd hold (hnone j result')
      · simp only [Sigma.mk.injEq, Op.sendTask.injEq, true_and] at heq
        exact ⟨rfl, heq.1⟩
    · rintro ⟨rfl, rfl⟩
      exact .inr ⟨rfl, rfl⟩
  have hrecorded : ∀ j a, ¬ Recorded py link pool' j a := by
    intro j a hmem
    rcases Pool.mem_answered_events.mp hmem with hold | ⟨_, heq⟩
    · exact hunrecorded j a hold
    · exact HttpEvent.recordOp_ne_sendTask (congrArg Sigma.fst heq)
  refine ⟨h.traced.answered hprogram, ?_, ?_, fun j e => hrecorded j _, ?_⟩
  · intro result'
    simp only [hpool', Pool.answered_world, World.settle_tasks_self, Option.some.injEq,
      TaskState.resumed.injEq]
    constructor
    · exact fun heq => ⟨i, (haccepted _ _).mpr ⟨rfl, heq.symm⟩⟩
    · exact fun ⟨j, hj⟩ => ((haccepted _ _).mp hj).2.symm
  · intro j j' result₁ result₂ hj hj'
    rw [((haccepted _ _).mp hj).1, ((haccepted _ _).mp hj').1]
  · obtain ⟨record, hread, hid, hstatus⟩ := h.undecided hunrecorded
    exact ⟨record, hread, hid, .inl ⟨hstatus, fun j => hrecorded j _⟩⟩

theorem verdict_hasFloat {event : HttpEvent} : (event.verdict py).hasFloat = false := by
  unfold HttpEvent.verdict
  split <;> rfl

/-- The click whose callback was accepted records its decision: nobody did so
    before, and the record takes it. -/
theorem agreed_recorded (hlink : ∀ i, EmailedLink requestId token (link i))
    (h : Agreed py link requestId token pool) {i : ι} {answer : Except Exc Unit}
    {k : Except Exc Unit → Handler HtmlResponse} {world : World}
    (hprogram : (pool.thread i).program = .call ((link i).recordOp py) k)
    (hid : (link i).requestId ≠ "") {decidedAt : String}
    (haccepted : Accepted pool token i ((link i).report py decidedAt))
    (hfirst : ∀ a, ¬ Recorded py link pool i a)
    (hexec : exec py ((link i).recordOp py) pool.world answer world) :
    Agreed py link requestId token
      (pool.answered i ((link i).recordOp py) answer (k answer) world) := by
  have hunrecorded : ∀ j a, ¬ Recorded py link pool j a := by
    intro j a hmem
    obtain ⟨_, hj⟩ := h.accepted_of_recorded hlink hmem
    obtain rfl := h.single j i _ _ hj haccepted
    exact hfirst a hmem
  obtain ⟨record, hread, hkey, hstatus⟩ := h.undecided hunrecorded
  obtain ⟨rfl, item, rfl, hitemKey, _, hitemStatus⟩ :=
    exec_recordDecision_ok hid ((hlink i).1.symm ▸ hread) ⟨hkey, .inr hstatus⟩ verdict_hasFloat hexec
  set pool' := pool.answered i ((link i).recordOp py) (.ok ()) (k (.ok ()))
    (pool.world.store (pool.world.table.write (link i).requestId item)) with hpool'
  have haccepted' : ∀ j result, Accepted pool' token j result ↔ Accepted pool token j result :=
    fun j result => Pool.mem_answered_events_of_ne
      fun heq => HttpEvent.sendTask_ne_recordOp (congrArg Sigma.fst heq)
  have hrecorded : ∀ j a, Recorded py link pool' j a ↔ j = i ∧ a = .ok () := by
    intro j a
    constructor
    · intro hmem
      rcases Pool.mem_answered_events.mp hmem with hold | ⟨rfl, heq⟩
      · exact absurd hold (hunrecorded j a)
      · exact ⟨rfl, eq_of_heq (Sigma.mk.inj heq).2⟩
    · rintro ⟨rfl, rfl⟩
      exact Pool.mem_answered_events.mpr (.inr ⟨rfl, rfl⟩)
  have htasks : pool'.world.tasks = pool.world.tasks := rfl
  have hread' : pool'.world.table requestId = some item := by
    rw [← (hlink i).1]
    exact Table.write_self
  refine ⟨h.traced.answered hprogram, ?_, ?_, ?_, ?_⟩
  · simpa only [htasks, haccepted'] using h.resumed
  · simpa only [haccepted'] using h.single
  · intro j e hmem
    exact absurd ((hrecorded j _).mp hmem).2 nofun
  · exact ⟨item, hread', by rwa [hitemKey], .inr ⟨i, (hrecorded i _).mpr ⟨rfl, rfl⟩, hitemStatus⟩⟩

theorem agreed_click (hlink : ∀ i, EmailedLink requestId token (link i))
    (h : Agreed py link requestId token pool) (hstep : Pool.Step (exec py) pool pool') :
    Agreed py link requestId token pool' := by
  obtain ⟨hprogram, hexec⟩ := hstep
  rename_i i op k answer world
  have hnext : NextOp py (link i) (pool.thread i).events op := by
    have hat := h.clickAt i
    rw [hprogram] at hat
    exact hat
  generalize hevents : (pool.thread i).events = events at hnext
  cases hnext with
  | get hvalid =>
      obtain ⟨rfl, _⟩ := hexec
      exact agreed_quiet h hprogram (fun result => nofun) (fun j a => nofun)
  | nowIso hvalid hread =>
      obtain rfl := hexec
      exact agreed_quiet h hprogram (fun result => nofun) (fun j a => nofun)
  | @sendTask a t hvalid hread =>
      obtain rfl : token = (link i).token := (hlink i).2.symm
      rcases hexec with ⟨hwaiting, rfl, rfl⟩ | ⟨⟨e, rfl, _⟩, rfl⟩
      · exact agreed_accepted hlink h hprogram hwaiting
      · exact agreed_quiet h hprogram (fun result => nofun) (fun j a => nofun)
  | @recordDecision a t hvalid hread =>
      have haccepted : Accepted pool token i ((link i).report py t) := by
        simp [Accepted, hevents, (hlink i).2]
      have hfirst : ∀ a, ¬ Recorded py link pool i a := by
        intro a
        simp [Recorded, hevents, HttpEvent.recordOp]
      exact agreed_recorded hlink h hprogram hvalid.2.1 haccepted hfirst hexec

theorem agreed_step (hlink : ∀ i, EmailedLink requestId token (link i))
    (h : Agreed py link requestId token pool) (hstep : RaceStep py token pool pool') :
    Agreed py link requestId token pool' := by
  cases hstep with
  | click hstep => exact agreed_click hlink h hstep
  | timeout hwaiting =>
      have hnone : ∀ result, ¬ ∃ i, Accepted pool token i result := by
        intro result haccepted
        have hresumed := (h.resumed result).mpr haccepted
        rw [hwaiting] at hresumed
        cases hresumed
      refine ⟨h.traced, ?_, h.single, h.unrefused, h.record⟩
      intro result
      have htimeout : (pool.world.settle token .timedOut).tasks token = some .timedOut :=
        World.settle_tasks_self
      simp only [htimeout, Option.some.injEq, reduceCtorEq, false_iff]
      exact hnone result

theorem agreed_reachable {w : World} (hemailed : Emailed requestId token w)
    (hlink : ∀ i, EmailedLink requestId token (link i))
    (hreach : Relation.ReflTransGen (RaceStep py token)
      (Pool.init w fun i => decisionHandler py (link i)) pool) :
    Agreed py link requestId token pool :=
  Transition.invariant hreach (agreed_init hemailed) fun _ _ => agreed_step hlink

/-! ## Races agree -/

/-- The record and the execution agree, and one click at most decided. -/
structure RaceAgrees (requestId token : String) (pool : Clicks ι) : Prop where
  approved : pool.world.table.attr requestId ["status"] = some statusApproved →
    ∃ output, pool.world.tasks token = some (.resumed (.success output))
  rejected : pool.world.table.attr requestId ["status"] = some statusRejected →
    ∃ error cause, pool.world.tasks token = some (.resumed (.failure error cause))
  writtenOnce : ∀ (i j : ι) (m n : Nat) r r' d d' a a' c c',
    (pool.thread i).events[m]? = some (⟨.recordDecision r d a c, .ok ()⟩ : Event Op Ans) →
    (pool.thread j).events[n]? = some (⟨.recordDecision r' d' a' c', .ok ()⟩ : Event Op Ans) →
    i = j ∧ m = n
  answeredOnce : ∀ i j response response', (pool.thread i).program = .ret response →
    (pool.thread j).program = .ret response' → response.statusCode = 200 →
    response'.statusCode = 200 → i = j
  neverRefused : ∀ i result, Accepted pool token i result → ∀ r d a c e,
    (⟨.recordDecision r d a c, .error e⟩ : Event Op Ans) ∈ (pool.thread i).events →
    e.isInstance "store.AlreadyDecidedError" = false

/-- Whatever the clicks and the gate do in whatever order, the record and the
    execution agree. -/
theorem clicks_agree {w : World} (hemailed : Emailed requestId token w)
    (hlink : ∀ i, EmailedLink requestId token (link i))
    (hreach : Relation.ReflTransGen (RaceStep py token)
      (Pool.init w fun i => decisionHandler py (link i)) pool) :
    RaceAgrees requestId token pool := by
  have h := agreed_reachable hemailed hlink hreach
  refine ⟨?_, ?_, ?_, ?_, ?_⟩
  · intro hstatus
    obtain ⟨i, decidedAt, _, hverdict, htask⟩ := h.decided hlink hstatus (by decide)
    have haction := HttpEvent.verdict_eq_approved.mp hverdict
    rw [HttpEvent.report, if_pos haction] at htask
    exact ⟨_, htask⟩
  · intro hstatus
    obtain ⟨i, decidedAt, _, hverdict, htask⟩ := h.decided hlink hstatus (by decide)
    have haction : (link i).action py ≠ "approve" := by
      intro haction
      rw [HttpEvent.verdict_eq_approved.mpr haction] at hverdict
      revert hverdict
      decide
    rw [HttpEvent.report, if_neg haction] at htask
    exact ⟨_, _, htask⟩
  · intro i j m n r r' d d' a a' c c' hi hj
    obtain ⟨rfl, hri⟩ := h.recorded_of_getElem hi
    obtain ⟨rfl, hrj⟩ := h.recorded_of_getElem hj
    exact ⟨h.eq_of_recorded hlink hri hrj, rfl⟩
  · intro i j response response' hi hj hcode hcode'
    have hat := h.clickAt i
    have hat' := h.clickAt j
    rw [hi] at hat
    rw [hj] at hat'
    exact h.eq_of_recorded hlink (hat.2 hcode) (hat'.2 hcode')
  · intro i result _ r d a c e hmem
    obtain ⟨n, hget⟩ := List.mem_iff_getElem?.mp hmem
    exact absurd (h.recorded_of_getElem hget).2 (h.unrefused i e)

/-! ## Two clicks -/

/-- A link as `decision_url` builds it, clicked by an approver. -/
def clickOn (action requestId token approver : String) : HttpEvent where
  rawPath := some ("/" ++ action)
  queryStringParameters :=
    some [("request_id", requestId), ("token", token), ("approver", approver)]

/-- One request, emailed, and its execution waiting. -/
def emailedWorld : World where
  table := Function.update (fun _ => none) "req-1" (some (.obj [("request_id", .str "req-1"),
    ("title", .str "Refund"), ("status", statusNotified), ("task_token", .str "token-1")]))
  past := []
  tasks := Function.update (fun _ => none) "token-1" (some .waiting)

theorem emailed_emailedWorld : Emailed "req-1" "token-1" emailedWorld :=
  ⟨by simp [emailedWorld], _, by simp [emailedWorld]; rfl, by simp, by simp [List.lookup_cons],
    by simp [List.lookup_cons]⟩

/-- An approval and a rejection of the same request. -/
def rivalLinks : Bool → HttpEvent
  | true => clickOn "approve" "req-1" "token-1" "ada"
  | false => clickOn "reject" "req-1" "token-1" "bob"

/-- Both clicks read the undecided record before either of them calls back. -/
def rivalClicks : Clicks Bool :=
  (Pool.init emailedWorld fun i => decisionHandler .sample (rivalLinks i)).schedule
    (answer .sample) [true, false, true, false, true, false, true]

theorem emailedLink_rivalLinks (i : Bool) : EmailedLink "req-1" "token-1" (rivalLinks i) := by
  cases i <;> exact ⟨rfl, rfl⟩

theorem clicks_agree_rivalClicks : RaceAgrees "req-1" "token-1" rivalClicks :=
  clicks_agree emailed_emailedWorld emailedLink_rivalLinks
    (Relation.ReflTransGen.mono (fun _ _ => .click) _ _ (Pool.schedule_reachable answer_exec _ _))

end ApprovalWorkflow
