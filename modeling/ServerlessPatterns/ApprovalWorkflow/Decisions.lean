-- SUMMARY: Whose decision a click writes, and for how long a written decision stays.
import ServerlessPatterns.ApprovalWorkflow.StateMachine
import ServerlessPatterns.ApprovalWorkflow.System

/-!
# Decisions

A link names a request and a token independently of each other, and
`decision_handler` never compares the token with the one in the record. And
`record_decision` is the only guarded write: the two that come before it in a
request's life write whatever the record says.
-/

namespace ApprovalWorkflow

open Program Relation

variable {py : Python} {env : Env} {s s' : System} {event : HttpEvent}
  {events : List (Event Op Ans)}

/-! ## What a click changes -/

/-- A click leaves the table alone, or it used a waiting token and decided the
    record of its `request_id`. -/
theorem click_cases {outcome : Outcome Exc HtmlResponse} {w w' : World}
    (h : Attempt (exec py) (decisionHandler py event) w events outcome w') :
    w'.table = w.table ∨
    ∃ record item, event.Valid py ∧ w.tasks event.token = some .waiting ∧
      w.table event.requestId = some record ∧ ApprovalStore.Undecided record ∧
      item.get ["status"] = some (event.verdict py) ∧
      w'.table = w.table.write event.requestId item := by
  obtain ⟨q, htrace, _⟩ := h.calls
  have heffects := h.effects
  cases clickEvents_of_clickAt (clickAt_of_trace htrace) with
  | start =>
      rw [effects_nil] at heffects
      exact .inl (congrArg World.table heffects)
  | read =>
      simp only [effects_cons, effects_nil] at heffects
      obtain ⟨_, ⟨rfl, _⟩, rfl⟩ := heffects
      exact .inl rfl
  | clocked =>
      simp only [effects_cons, effects_nil] at heffects
      obtain ⟨_, ⟨rfl, _⟩, _, rfl, rfl⟩ := heffects
      exact .inl rfl
  | sent =>
      simp only [effects_cons, effects_nil] at heffects
      obtain ⟨_, ⟨rfl, _⟩, _, rfl, _, hsent, rfl⟩ := heffects
      rcases hsent with ⟨_, _, rfl⟩ | ⟨_, rfl⟩ <;> exact .inl rfl
  | recorded hvalid =>
      simp only [effects_cons, effects_nil] at heffects
      obtain ⟨_, ⟨rfl, _⟩, _, rfl, _, hsent, _, hrecorded, rfl⟩ := heffects
      rcases hsent with ⟨hwaiting, _, rfl⟩ | ⟨⟨_, heq, _⟩, _⟩
      · rcases exec_recordDecision hrecorded with
          ⟨e, _, rfl⟩ | ⟨k, record, item, hk, hread, hundecided, _, _, hstatus, _, rfl⟩
        · exact .inl rfl
        · injection hk with hk
          subst hk
          exact .inr ⟨record, item, hvalid, hwaiting, hread, hundecided, hstatus, rfl⟩
      · cases heq

theorem decidedStatus_of_undecided {record : Json} (h : ApprovalStore.Undecided record) :
    decidedStatus record = none := by
  have hstatus := h.2
  rw [Json.get_single] at hstatus
  rcases hstatus with hstatus | hstatus <;> simp only [decidedStatus, hstatus] <;> rfl

/-- The trace of a click that gets through. -/
theorem click_trace {record : Json} (hvalid : event.Valid py)
    (hundecided : decidedStatus record = none) (decidedAt : String) :
    Trace (decisionHandler py event)
      [⟨.get (.str event.requestId), .ok (some record)⟩, ⟨.nowIso, decidedAt⟩,
        ⟨.sendTask event.token (event.report py decidedAt), .ok ()⟩, ⟨event.recordOp py, .ok ()⟩]
      (.ret (event.recordedResponse py)) := by
  rw [decisionHandler_valid hvalid]
  refine .cons ?_
  simp only [ofExcept_ok, ret_bind, hundecided, decide_eq, tryCatch_call]
  exact .cons (.cons (.cons .nil))

/-- A valid link with a waiting token decides an undecided record, whoever the
    token belongs to. -/
theorem click_decides {w : World} {record : Json} (hvalid : event.Valid py)
    (hwaiting : w.tasks event.token = some .waiting)
    (hread : w.table event.requestId = some record)
    (hundecided : ApprovalStore.Undecided record) :
    ∃ events w', Attempt (exec py) (decisionHandler py event) w events
      (.returned (event.recordedResponse py)) w' ∧
      w'.table.attr event.requestId ["status"] = some (event.verdict py) := by
  let w₁ := w.settle event.token (.resumed (event.report py ""))
  have hget : exec py (.get (.str event.requestId)) w (.ok (some record)) w := by
    refine ⟨rfl, w.table, List.mem_cons_self, ?_⟩
    simp only [ApprovalStore.get, Table.getItem, Table.keyOf_str hvalid.2.1]
    rw [← hread]
    rfl
  have hsent : exec py (.sendTask event.token (event.report py "")) w (.ok ()) w₁ :=
    .inl ⟨hwaiting, rfl, rfl⟩
  obtain ⟨recorded, w₂, hrecorded⟩ : ∃ recorded w₂, exec py (event.recordOp py) w₁ recorded w₂ :=
    ⟨_, _, fun _ => 0, rfl, rfl⟩
  obtain ⟨rfl, item, rfl, _, _, hstatus⟩ := exec_recordDecision_ok (w := w₁) hvalid.2.1 hread
    hundecided verdict_hasFloat hrecorded
  refine ⟨_, _, ⟨⟨_, click_trace hvalid (decidedStatus_of_undecided hundecided) "", rfl⟩,
    .cons hget (.cons rfl (.cons hsent (.cons hrecorded .nil)))⟩, ?_⟩
  simp only [World.store_table, Table.attr, Table.write_self, Option.bind_some, hstatus]

/-! ## A decision is bound to its request -/

/-- What a call that ends in `w'` has to respect: it changes a record only with
    the token stored there, which is the one that record's execution waits on,
    and no record but the one its token was made up for. -/
structure Bound (s : System) (event : HttpEvent) (w' : World) : Prop where
  own : ∀ r, w'.table r ≠ s.world.table r →
    s.world.table.attr r ["task_token"] = some (.str event.token) ∧
      s.owner event.token = some (.str r)
  other : ∀ a b, s.owner event.token = some (.str a) → a ≠ b → w'.table b = s.world.table b

def DecisionBound (py : Python) (s : System) (event : HttpEvent) : Prop :=
  ∀ events outcome w', Attempt (exec py) (decisionHandler py event) s.world events outcome w' →
    Bound s event w'

/-- The link pairs an undecided request with a waiting token that is not the one
    in the record. -/
def MixedLink (py : Python) (s : System) (event : HttpEvent) : Prop :=
  event.Valid py ∧ s.world.tasks event.token = some .waiting ∧
    (s.world.table.attr event.requestId ["status"] = some statusPending ∨
      s.world.table.attr event.requestId ["status"] = some statusNotified) ∧
    s.world.table.attr event.requestId ["task_token"] ≠ some (.str event.token)

theorem bound_of_not_mixedLink (hissued : Issued s.owner s.world) (hmixed : ¬ MixedLink py s event) :
    DecisionBound py s event := by
  intro events outcome w' hattempt
  rcases click_cases hattempt with
    htable | ⟨record, item, hvalid, hwaiting, hread, hundecided, _, htable⟩
  · exact ⟨fun r hne => absurd (congrFun htable r) hne, fun a b _ _ => congrFun htable b⟩
  have htoken : s.world.table.attr event.requestId ["task_token"] = some (.str event.token) := by
    by_contra hother
    refine hmixed ⟨hvalid, hwaiting, ?_, hother⟩
    simpa only [Table.attr, hread, Option.bind_some] using hundecided.2
  have howner : s.owner event.token = some (.str event.requestId) := by
    obtain ⟨t, ht, howner, _⟩ := hissued.known _ _ htoken
    injection ht with ht
    rwa [ht]
  have hchanged : ∀ r, w'.table r ≠ s.world.table r → r = event.requestId := by
    intro r hne
    by_contra hr
    rw [htable, Table.write_ne hr] at hne
    exact hne rfl
  refine ⟨?_, ?_⟩
  · intro r hne
    rw [hchanged r hne]
    exact ⟨htoken, howner⟩
  · intro a b hab hne
    by_contra hb
    have heq := howner.symm.trans hab
    rw [← hchanged b hb, Option.some.injEq, Json.str.injEq] at heq
    exact hne heq.symm

theorem verdict_ne {status : Json} (h : status = statusPending ∨ status = statusNotified) :
    event.verdict py ≠ status := by
  unfold HttpEvent.verdict
  rcases h with rfl | rfl <;> split <;> decide

/-- Through a mixed link one request's token decides another request. -/
theorem not_bound_of_mixedLink (hissued : Issued s.owner s.world) (hmixed : MixedLink py s event) :
    ¬ DecisionBound py s event := by
  intro hbound
  obtain ⟨hvalid, hwaiting, hstatus, htoken⟩ := hmixed
  cases hread : s.world.table event.requestId with
  | none => simp [Table.attr, hread] at hstatus
  | some record =>
      simp only [Table.attr, hread, Option.bind_some] at hstatus
      have hundecided : ApprovalStore.Undecided record := by
        refine ⟨?_, hstatus⟩
        rw [hissued.keyed _ _ hread]
        rfl
      obtain ⟨events, w', hattempt, hdecided⟩ := click_decides hvalid hwaiting hread hundecided
      have hne : w'.table event.requestId ≠ s.world.table event.requestId := by
        intro heq
        simp only [Table.attr, heq, hread, Option.bind_some] at hdecided
        have hold : event.verdict py = statusPending ∨ event.verdict py = statusNotified := by
          simpa only [hdecided, Option.some.injEq] using hstatus
        exact verdict_ne hold rfl
      exact htoken ((hbound _ _ _ hattempt).own _ hne).1

/-- In every reachable state, a click respects the binding of requests and
    tokens exactly when its link is not mixed. -/
theorem decision_bound_iff (hreach : System.Reachable py env s) (event : HttpEvent) :
    DecisionBound py s event ↔ ¬ MixedLink py s event := by
  have hissued := issued_reachable hreach
  constructor
  · intro hbound hmixed
    exact not_bound_of_mixedLink hissued hmixed hbound
  · exact bound_of_not_mixedLink hissued

/-! ### Two requests and a link between them -/

def requestNamed (requestId : String) : Json :=
  .obj [("title", .str "Refund"), ("request_id", .str requestId)]

/-- Two executions at their gates. -/
def twoPending : System :=
  System.empty.performAll .sample sampleEnv
    [.prepare (requestNamed "req-a"), .prepare (requestNamed "req-b"),
      .gate "token-a" (requestNamed "req-a") .null, .gate "token-b" (requestNamed "req-b") .null]

theorem twoPending_reachable : System.Reachable .sample sampleEnv twoPending :=
  System.performAll_reachable .refl _

/-- The token of one request with the id of the other. -/
def mixedClick : HttpEvent := clickOn "approve" "req-b" "token-a" "ada"

theorem mixedLink_mixedClick : MixedLink .sample twoPending mixedClick := by
  refine ⟨by decide, rfl, .inr rfl, ?_⟩
  have htoken : twoPending.world.table.attr mixedClick.requestId ["task_token"] =
      some (.str "token-b") := rfl
  rw [htoken]
  decide

theorem decision_bound_iff_twoPending :
    DecisionBound .sample twoPending (clickOn "approve" "req-b" "token-b" "ada") := by
  refine (decision_bound_iff twoPending_reachable _).mpr fun hmixed => hmixed.2.2.2 ?_
  exact rfl

theorem decision_bound_counterexample :
    ¬ ∀ s, System.Reachable .sample sampleEnv s → ∀ event, DecisionBound .sample s event := by
  intro h
  exact not_bound_of_mixedLink (issued_reachable twoPending_reachable) mixedLink_mixedClick
    (h twoPending twoPending_reachable mixedClick)

/-! ## A decision stays until it is overwritten -/

/-- A run of calls: what each one performed, and the state it left. -/
inductive System.Run (py : Python) (env : Env) :
    System → List (List (Event Op Ans) × System) → Prop where
  | nil {s : System} : Run py env s []
  | cons {s s' : System} {made : Call} {events : List (Event Op Ans)}
      {visited : List (List (Event Op Ans) × System)} (hstep : Step py env s made events s')
      (hrest : Run py env s' visited) : Run py env s ((events, s') :: visited)

def decisionFields : List String := ["status", "approver", "decision_comment", "decided_at"]

def SameDecision (r : String) (s s' : System) : Prop :=
  ∀ field ∈ decisionFields, s'.world.table.attr r [field] = s.world.table.attr r [field]

/-- `create` or `attach_token` wrote the record. -/
def Overwrites (r : String) (event : Event Op Ans) : Prop :=
  (∃ t a q c ttl, event = ⟨.create (.str r) t a q c ttl, .ok ()⟩) ∨
    ∃ v, event = ⟨.attachToken (.str r) v, .ok ()⟩

def Decided (r : String) (w : World) : Prop :=
  w.table.attr r ["status"] = some statusApproved ∨ w.table.attr r ["status"] = some statusRejected

variable {r : String}

theorem decided_congr {w w' : World} (h : Decided r w) (htable : w'.table r = w.table r) :
    Decided r w' := by
  unfold Decided Table.attr at *
  rwa [htable]

theorem not_undecided {w : World} {record : Json} (h : Decided r w) (hread : w.table r = some record) :
    ¬ ApprovalStore.Undecided record := by
  rintro ⟨_, hundecided⟩
  unfold Decided Table.attr at h
  rw [hread, Option.bind_some] at h
  rcases h with h | h <;> rw [h] at hundecided <;> revert hundecided <;> decide

/-- Only the two unguarded writes touch a decided record. -/
theorem exec_decided {op : Op} {answer : Ans op} {w w' : World} (hexec : exec py op w answer w')
    (hdecided : Decided r w) (hkept : ¬ Overwrites r ⟨op, answer⟩) : w'.table r = w.table r := by
  cases op with
  | create r' t a q c ttl =>
      rcases exec_create hexec with ⟨e, _, rfl⟩ | ⟨k, item, rfl, _, _, _, rfl, rfl⟩
      · rfl
      · apply Table.write_ne
        rintro rfl
        exact hkept (.inl ⟨t, a, q, c, ttl, rfl⟩)
  | attachToken r' v =>
      rcases exec_attachToken hexec with ⟨e, _, rfl⟩ | ⟨k, item, rfl, _, _, _, rfl, rfl⟩
      · rfl
      · apply Table.write_ne
        rintro rfl
        exact hkept (.inr ⟨v, rfl⟩)
  | recordDecision r' d a c =>
      rcases exec_recordDecision hexec with
        ⟨e, _, rfl⟩ | ⟨k, record, item, rfl, hread, hundecided, _, _, _, _, rfl⟩
      · rfl
      · apply Table.write_ne
        rintro rfl
        exact not_undecided hdecided hread hundecided
  | sendTask token result =>
      rcases hexec with ⟨_, _, rfl⟩ | ⟨_, rfl⟩ <;> rfl
  | get | newId =>
      obtain ⟨rfl, _⟩ := hexec
      rfl
  | sendEmail | nowIso =>
      obtain rfl := hexec
      rfl

/-- What a call does to the table is what its operations do to it. -/
theorem System.Step.effects {made : Call} (h : System.Step py env s made events s') :
    ∃ w w', w.table = s.world.table ∧ w'.table = s'.world.table ∧ Effects (exec py) w events w' := by
  cases h with
  | prepare hattempt => exact ⟨_, _, rfl, rfl, hattempt.effects⟩
  | gate _ hattempt => exact ⟨(s.issue _ _).world, _, rfl, rfl, hattempt.effects⟩
  | click hattempt => exact ⟨_, _, rfl, rfl, hattempt.effects⟩
  | timeout => exact ⟨s.world, s.world, rfl, rfl, .nil⟩

theorem table_step {made : Call} (hstep : System.Step py env s made events s')
    (hdecided : Decided r s.world) (hkept : ∀ e ∈ events, ¬ Overwrites r e) :
    s'.world.table r = s.world.table r := by
  obtain ⟨w, w', hw, hw', heffects⟩ := hstep.effects
  have hdecided' : Decided r w := decided_congr hdecided (congrFun hw r)
  have hsame : w'.table r = w.table r := by
    refine heffects.preserves (P := fun w' => w'.table r = w.table r) ?_ rfl
    rintro ⟨op, answer⟩ hmem w₁ w₂ h₁ hexec
    rw [exec_decided hexec (decided_congr hdecided' h₁) (hkept _ hmem), h₁]
  rw [← congrFun hw' r, hsame, hw]

theorem not_overwrites_newId {idPrefix : String} {id : Ans (.newId idPrefix)} :
    ¬ Overwrites r ⟨.newId idPrefix, id⟩ := by
  simp [Overwrites]

theorem not_overwrites_sendEmail {email : Email} {answer : Ans (.sendEmail email)} :
    ¬ Overwrites r ⟨.sendEmail email, answer⟩ := by
  simp [Overwrites]

/-- An overwriting operation leaves the record undecided. -/
theorem exec_overwrites {op : Op} {answer : Ans op} {w w' : World} (hexec : exec py op w answer w')
    (hover : Overwrites r ⟨op, answer⟩) :
    w'.table.attr r ["status"] = some statusPending ∨
      w'.table.attr r ["status"] = some statusNotified := by
  rcases hover with ⟨t, a, q, c, ttl, heq⟩ | ⟨v, heq⟩
  · cases heq
    rcases exec_create hexec with ⟨e, he, _⟩ | ⟨k, item, hk, _, hstatus, _, _, rfl⟩
    · cases he
    · injection hk with hk
      subst hk
      exact .inl (by simp only [World.store_table, Table.attr, Table.write_self, Option.bind_some,
        hstatus])
  · cases heq
    rcases exec_attachToken hexec with ⟨e, he, _⟩ | ⟨k, item, hk, _, hstatus, _, _, rfl⟩
    · cases he
    · injection hk with hk
      subst hk
      exact .inr (by simp only [World.store_table, Table.attr, Table.write_self, Option.bind_some,
        hstatus])

/-- A click overwrites nothing. -/
theorem ClickEvents.not_overwrites (h : ClickEvents py event events) {e : Event Op Ans}
    (hmem : e ∈ events) : ¬ Overwrites r e := by
  rintro (⟨t, a, q, c, ttl, rfl⟩ | ⟨v, rfl⟩)
  · cases h <;> simp at hmem
  · exact h.not_attach hmem

theorem System.Step.click_not_overwrites (h : System.Step py env s (.click event) events s') :
    ∀ e ∈ events, ¬ Overwrites r e := by
  cases h with
  | click hattempt =>
      obtain ⟨q, htrace, _⟩ := hattempt.calls
      exact fun e hmem => (clickEvents_of_clickAt (clickAt_of_trace htrace)).not_overwrites hmem

/-- A call that overwrites a record leaves it undecided: no call writes to the
    table after it wrote that way. -/
theorem undecided_of_overwrites {made : Call} (hstep : System.Step py env s made events s')
    {e : Event Op Ans} (hmem : e ∈ events) (hover : Overwrites r e) :
    s'.world.table.attr r ["status"] = some statusPending ∨
      s'.world.table.attr r ["status"] = some statusNotified := by
  cases hstep with
  | timeout => cases hmem
  | click hattempt =>
      obtain ⟨q, htrace, _⟩ := hattempt.calls
      exact absurd hover ((clickEvents_of_clickAt (clickAt_of_trace htrace)).not_overwrites hmem)
  | prepare hattempt =>
      obtain ⟨q, htrace, _⟩ := hattempt.calls
      have heffects := hattempt.effects
      cases prepareEvents_of_trace htrace with
      | start => cases hmem
      | named =>
          rw [List.mem_singleton.mp hmem] at hover
          exact absurd hover not_overwrites_newId
      | created =>
          rw [List.mem_singleton.mp hmem] at hover
          simp only [effects_cons, effects_nil] at heffects
          obtain ⟨_, hcreate, rfl⟩ := heffects
          exact exec_overwrites hcreate hover
      | namedCreated =>
          simp only [effects_cons, effects_nil] at heffects
          obtain ⟨_, _, _, hcreate, rfl⟩ := heffects
          rcases List.mem_cons.mp hmem with rfl | hmem
          · exact absurd hover not_overwrites_newId
          · rw [List.mem_singleton.mp hmem] at hover
            exact exec_overwrites hcreate hover
  | gate _ hattempt =>
      obtain ⟨q, htrace, _⟩ := hattempt.calls
      have heffects := hattempt.effects
      rcases gate_trace htrace with ⟨rfl, _⟩ | ⟨requestId, _, hevents, _⟩
      · cases hmem
      cases hevents with
      | start => cases hmem
      | attached =>
          rw [List.mem_singleton.mp hmem] at hover
          simp only [effects_cons, effects_nil] at heffects
          obtain ⟨_, hattach, rfl⟩ := heffects
          exact exec_overwrites hattach hover
      | emailed =>
          simp only [effects_cons, effects_nil] at heffects
          obtain ⟨_, hattach, _, rfl, rfl⟩ := heffects
          rcases List.mem_cons.mp hmem with rfl | hmem
          · exact exec_overwrites hattach hover
          · rw [List.mem_singleton.mp hmem] at hover
            exact absurd hover not_overwrites_sendEmail

/-- Where `record_decision` has just written, the record is decided. -/
theorem decided_of_written {made : Call} (hstep : System.Step py env s made events s')
    {d : Json} {a c : String}
    (hmem : (⟨.recordDecision (.str r) d a c, .ok ()⟩ : Event Op Ans) ∈ events) :
    Decided r s'.world := by
  cases hstep with
  | timeout => cases hmem
  | prepare hattempt =>
      obtain ⟨q, htrace, _⟩ := hattempt.calls
      cases prepareEvents_of_trace htrace <;> simp at hmem
  | gate _ hattempt =>
      obtain ⟨q, htrace, _⟩ := hattempt.calls
      rcases gate_trace htrace with ⟨rfl, _⟩ | ⟨requestId, _, hevents, _⟩
      · cases hmem
      · cases hevents <;> simp at hmem
  | @click event events outcome world hattempt =>
      obtain ⟨q, htrace, _⟩ := hattempt.calls
      have hclick := clickEvents_of_clickAt (clickAt_of_trace htrace)
      obtain ⟨n, hget⟩ := List.mem_iff_getElem?.mp hmem
      obtain ⟨rfl, hr, rfl, rfl, rfl⟩ := hclick.recordDecision_eq hget
      obtain rfl : r = event.requestId := Json.str.inj hr
      have heffects := hattempt.effects
      cases hclick with
      | start | read | clocked | sent => simp at hmem
      | @recorded _ _ answer =>
          simp only [effects_cons, effects_nil] at heffects
          obtain ⟨_, ⟨rfl, _⟩, _, rfl, _, _, _, hrecorded, rfl⟩ := heffects
          have hanswer : answer = .ok () := eq_of_heq (Sigma.mk.inj (Option.some.inj hget)).2
          rcases exec_recordDecision hrecorded with
            ⟨e, he, _⟩ | ⟨k, record, item, hk, _, _, _, _, hstatus, _, rfl⟩
          · rw [he] at hanswer
            cases hanswer
          · obtain rfl := Json.str.inj hk
            have hverdict : event.verdict py = statusApproved ∨ event.verdict py = statusRejected := by
              unfold HttpEvent.verdict
              split
              · exact .inl rfl
              · exact .inr rfl
            simpa only [Decided, World.store_table, Table.attr, Table.write_self, Option.bind_some,
              hstatus, Option.some.injEq] using hverdict

theorem System.Run.step_of_mem {visited : List (List (Event Op Ans) × System)}
    (hrun : System.Run py env s visited) {v : List (Event Op Ans) × System} (hmem : v ∈ visited) :
    ∃ s made, System.Step py env s made v.1 v.2 := by
  induction hrun with
  | nil => cases hmem
  | cons hstep _ ih =>
      rcases List.mem_cons.mp hmem with rfl | hmem
      · exact ⟨_, _, hstep⟩
      · exact ih hmem

/-- Without overwrites a run leaves a decided record as it is. -/
theorem table_run {visited : List (List (Event Op Ans) × System)}
    (hrun : System.Run py env s visited) (hdecided : Decided r s.world)
    (hkept : ∀ v ∈ visited, ∀ e ∈ v.1, ¬ Overwrites r e) :
    ∀ v ∈ visited, v.2.world.table r = s.world.table r := by
  induction hrun with
  | nil => exact fun v hv => absurd hv List.not_mem_nil
  | cons hstep _ ih =>
      have htable := table_step hstep hdecided (hkept _ List.mem_cons_self)
      intro v hv
      rcases List.mem_cons.mp hv with rfl | hv
      · exact htable
      · have hrest := ih (decided_congr hdecided htable)
          fun v hv => hkept v (List.mem_cons_of_mem _ hv)
        rw [hrest v hv, htable]

/-- Once `record_decision` has written a decision, its fields stay the same in
    every state of a run exactly as long as no `create` or `attach_token` writes
    that record again. -/
theorem decision_permanent_iff {s₀ s₁ : System} {made : Call} {d : Json} {a c : String}
    (hstep : System.Step py env s₀ made events s₁)
    (hwritten : (⟨.recordDecision (.str r) d a c, .ok ()⟩ : Event Op Ans) ∈ events)
    {visited : List (List (Event Op Ans) × System)} (hrun : System.Run py env s₁ visited) :
    (∀ v ∈ visited, SameDecision r s₁ v.2) ↔ ∀ v ∈ visited, ∀ e ∈ v.1, ¬ Overwrites r e := by
  have hdecided := decided_of_written hstep hwritten
  constructor
  · intro hsame v hv e he hover
    obtain ⟨s, made, hvisit⟩ := hrun.step_of_mem hv
    have hundecided := undecided_of_overwrites hvisit he hover
    rw [hsame v hv "status" (by decide)] at hundecided
    rcases hdecided with hdecided | hdecided <;> rw [hdecided] at hundecided <;>
      revert hundecided <;> decide
  · intro hkept v hv field _
    simp only [Table.attr, table_run hrun hdecided hkept v hv]

/-! ### A request that is prepared again -/

/-- The request is approved by the click on its link. -/
def approvedClick : HttpEvent := clickOn "approve" "req-a" "token-a" "ada"

def approvedSystem : System := (twoPending.perform .sample sampleEnv (.click approvedClick)).2

theorem approvedSystem_step : System.Step .sample sampleEnv twoPending (.click approvedClick)
    (twoPending.perform .sample sampleEnv (.click approvedClick)).1 approvedSystem :=
  System.perform_step trivial

theorem approvedClick_writes :
    (⟨.recordDecision (.str "req-a") statusApproved "ada" "", .ok ()⟩ : Event Op Ans) ∈
      (twoPending.perform .sample sampleEnv (.click approvedClick)).1 :=
  List.mem_of_getElem? (i := 3) rfl

/-- A rejection of the request that has been approved. -/
def secondClick : HttpEvent := clickOn "reject" "req-a" "token-a" "bob"

def secondClicked : System := (approvedSystem.perform .sample sampleEnv (.click secondClick)).2

/-- The other request's rejection. -/
def otherClick : HttpEvent := clickOn "reject" "req-b" "token-b" "bob"

/-- The second click on the decided request changes nothing of its decision, and
    neither does the click on the other request after it. -/
theorem decision_permanent_iff_otherClick :
    SameDecision "req-a" approvedSystem secondClicked ∧
      SameDecision "req-a" approvedSystem
        (secondClicked.perform .sample sampleEnv (.click otherClick)).2 := by
  have hsecond : System.Step .sample sampleEnv approvedSystem (.click secondClick) _ _ :=
    System.perform_step trivial
  have hother : System.Step .sample sampleEnv secondClicked (.click otherClick) _ _ :=
    System.perform_step trivial
  have hsame := (decision_permanent_iff approvedSystem_step approvedClick_writes
    (.cons hsecond (.cons hother .nil))).mpr (by
      intro v hv
      rcases List.mem_cons.mp hv with rfl | hv
      · exact hsecond.click_not_overwrites
      · rw [List.mem_singleton.mp hv]
        exact hother.click_not_overwrites)
  exact ⟨hsame _ List.mem_cons_self, hsame _ (List.mem_cons_of_mem _ List.mem_cons_self)⟩

theorem decision_permanent_counterexample : ¬ ∀ s₀ s₁ made events r d a c visited,
    System.Reachable .sample sampleEnv s₀ → System.Step .sample sampleEnv s₀ made events s₁ →
    (⟨.recordDecision (.str r) d a c, .ok ()⟩ : Event Op Ans) ∈ events →
    System.Run .sample sampleEnv s₁ visited → ∀ v ∈ visited, SameDecision r s₁ v.2 := by
  intro h
  have hagain : System.Step .sample sampleEnv approvedSystem (.prepare (requestNamed "req-a")) _ _ :=
    System.perform_step trivial
  have hsame := h _ _ _ _ _ _ _ _ _ twoPending_reachable approvedSystem_step approvedClick_writes
    (.cons hagain .nil) _ (List.mem_singleton_self _) "status" (by decide)
  have hold : approvedSystem.world.table.attr "req-a" ["status"] = some statusApproved := rfl
  have hnew : (approvedSystem.perform .sample sampleEnv
    (.prepare (requestNamed "req-a"))).2.world.table.attr "req-a" ["status"] = some statusPending := rfl
  simp only [hold, hnew] at hsame
  revert hsame
  decide

end ApprovalWorkflow
