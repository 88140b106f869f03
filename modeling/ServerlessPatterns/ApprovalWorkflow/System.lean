-- SUMMARY: All approvals together: calls of the handlers on one table, any number of executions waiting at their gates.
import ServerlessPatterns.ApprovalWorkflow.Click
import ServerlessPatterns.ApprovalWorkflow.Race
import ServerlessPatterns.ApprovalWorkflow.Tasks

/-!
# The approval system

Calls follow one another in any order, for any requests, and each may be given
up at any point. Step Functions makes up a new token whenever an execution gets
to its gate. `owner` remembers the request that execution is about.

Calls that overlap are the subject of `Race`.
-/

namespace ApprovalWorkflow

open Program Relation

structure System where
  world : World
  /-- The `request_id` of the execution that waits, or waited, on a token. -/
  owner : String → Option Json

inductive Call where
  | prepare (event : Json)
  /-- An execution arrives at its gate, and the email task is called. -/
  | gate (token : String) (request execution : Json)
  | click (event : HttpEvent)
  | timeout (token : String)

namespace System

def empty : System := ⟨.empty, fun _ => none⟩

/-- An execution that is about a request gets a token and waits on it. -/
def issue (s : System) (token : String) (request : Json) : System where
  world := s.world.settle token .waiting
  owner := Function.update s.owner token (request.field "request_id")

@[simp] theorem issue_world {s : System} {token : String} {request : Json} :
    (s.issue token request).world = s.world.settle token .waiting := rfl

@[simp] theorem issue_owner_self {s : System} {token : String} {request : Json} :
    (s.issue token request).owner token = request.field "request_id" := by
  simp [issue]

@[simp] theorem issue_owner_ne {s : System} {token t : String} {request : Json} (h : t ≠ token) :
    (s.issue token request).owner t = s.owner t := by
  simp [issue, h]

/-- One call, with the operations it performed. -/
inductive Step (py : Python) (env : Env) :
    System → Call → List (Event Op Ans) → System → Prop where
  | prepare {s event events outcome world}
      (hattempt : Attempt (exec py) (prepareRequest py event) s.world events outcome world) :
      Step py env s (.prepare event) events { s with world := world }
  | gate {s token request execution events outcome world} (hfresh : s.world.tasks token = none)
      (hattempt : Attempt (exec py) (sendApprovalEmail py env (gateEvent token request execution))
        (s.issue token request).world events outcome world) :
      Step py env s (.gate token request execution) events
        { s.issue token request with world := world }
  | click {s event events outcome world}
      (hattempt : Attempt (exec py) (decisionHandler py event) s.world events outcome world) :
      Step py env s (.click event) events { s with world := world }
  | timeout {s token} (hwaiting : s.world.tasks token = some .waiting) :
      Step py env s (.timeout token) [] { s with world := s.world.settle token .timedOut }

/-- The states that calls lead to, from an empty table. -/
def Reachable (py : Python) (env : Env) (s : System) : Prop :=
  ReflTransGen (fun s s' => ∃ call events, Step py env s call events s') empty s

end System

variable {py : Python} {env : Env} {s s' : System} {call : Call} {events : List (Event Op Ans)}

/-! ## The invariant -/

/-- Every token in a record was made up for an execution about that record. -/
structure Issued (owner : String → Option Json) (w : World) : Prop where
  keyed : w.table.Keyed "request_id"
  known : ∀ r v, w.table.attr r ["task_token"] = some v →
    ∃ t, v = .str t ∧ owner t = some (.str r) ∧ (w.tasks t).isSome = true

theorem issued_settle {owner : String → Option Json} {w : World} (h : Issued owner w)
    {token : String} {state : TaskState} : Issued owner (w.settle token state) := by
  refine ⟨h.keyed, ?_⟩
  intro r v hread
  obtain ⟨t, rfl, howner, htask⟩ := h.known r v hread
  refine ⟨t, rfl, howner, ?_⟩
  by_cases heq : t = token
  · subst heq
    rw [World.settle_tasks_self]
    rfl
  · rwa [World.settle_tasks_ne heq]

/-- A new token is the token of no record. -/
theorem issued_issue (h : Issued s.owner s.world) {token : String} {request : Json}
    (hfresh : s.world.tasks token = none) :
    Issued (s.issue token request).owner (s.issue token request).world := by
  refine ⟨h.keyed, ?_⟩
  intro r v hread
  obtain ⟨t, rfl, howner, htask⟩ := (issued_settle h).known r v hread
  have hne : t ≠ token := by
    rintro rfl
    obtain ⟨t', heq, _, hsome⟩ := h.known r _ hread
    injection heq with heq
    rw [← heq, hfresh] at hsome
    cases hsome
  exact ⟨t, rfl, by rwa [System.issue_owner_ne hne], htask⟩

/-- What replaces one record keeps the invariant if the token it holds is known. -/
theorem issued_write {owner : String → Option Json} {w : World} (h : Issued owner w) {k : String}
    {item : Json} (hid : item.get ["request_id"] = some (.str k))
    (htoken : ∀ v, item.get ["task_token"] = some v →
      ∃ t, v = .str t ∧ owner t = some (.str k) ∧ (w.tasks t).isSome = true) :
    Issued owner (w.store (w.table.write k item)) := by
  refine ⟨Table.keyed_write h.keyed hid, ?_⟩
  intro r v hread
  by_cases hr : r = k
  · subst hr
    simp only [World.store_table, Table.attr, Table.write_self, Option.bind_some] at hread
    exact htoken v hread
  · simp only [World.store_table, Table.attr, Table.write_ne hr] at hread
    exact h.known r v hread

theorem issued_exec {owner : String → Option Json} {w w' : World} {op : Op} {answer : Ans op}
    (h : Issued owner w) (hexec : exec py op w answer w')
    (hattach : ∀ r v, op = .attachToken r v →
      ∃ t, v = .str t ∧ owner t = some r ∧ (w.tasks t).isSome = true) : Issued owner w' := by
  cases op with
  | create r t a q c ttl =>
      rcases exec_create hexec with ⟨e, _, rfl⟩ | ⟨k, item, _, hid, _, htoken, _, rfl⟩
      · exact ⟨h.keyed, h.known⟩
      · apply issued_write h hid
        intro v hv
        rw [htoken] at hv
        cases hv
  | attachToken r v =>
      rcases exec_attachToken hexec with ⟨e, _, rfl⟩ | ⟨k, item, rfl, hid, _, htoken, _, rfl⟩
      · exact ⟨h.keyed, h.known⟩
      · apply issued_write h (hid.trans h.keyed.getD)
        intro v' hv
        rw [htoken, Option.some.injEq] at hv
        exact hv ▸ hattach _ _ rfl
  | recordDecision r d a c =>
      rcases exec_recordDecision hexec with
        ⟨e, _, rfl⟩ | ⟨k, record, item, rfl, hread, _, hid, htoken, _, _, rfl⟩
      · exact ⟨h.keyed, h.known⟩
      · apply issued_write h (hid.trans (h.keyed k record hread))
        intro v hv
        apply h.known k v
        rw [Table.attr, hread, Option.bind_some, ← htoken, hv]
  | sendTask token result =>
      rcases hexec with ⟨_, _, rfl⟩ | ⟨_, rfl⟩
      · exact issued_settle h
      · exact h
  | get | newId =>
      obtain ⟨rfl, _⟩ := hexec
      exact h
  | sendEmail | nowIso =>
      obtain rfl := hexec
      exact h

theorem issued_effects {owner : String → Option Json} {w w' : World} (h : Issued owner w)
    (heffects : Effects (exec py) w events w')
    (hattach : ∀ r v a, ⟨.attachToken r v, a⟩ ∈ events →
      ∃ t, v = .str t ∧ owner t = some r ∧ (w.tasks t).isSome = true) : Issued owner w' := by
  have hboth : Issued owner w' ∧ ∀ t, (w.tasks t).isSome = true → (w'.tasks t).isSome = true := by
    refine heffects.preserves (P := fun w' => Issued owner w' ∧
      ∀ t, (w.tasks t).isSome = true → (w'.tasks t).isSome = true) ?_ ⟨h, fun _ => id⟩
    rintro ⟨op, answer⟩ hmem w₁ w₂ ⟨h₁, hknown⟩ hexec
    refine ⟨issued_exec h₁ hexec ?_, fun t ht => exec_tasks_isSome hexec (hknown t ht)⟩
    rintro r v rfl
    obtain ⟨t, hv, howner, htask⟩ := hattach r v answer hmem
    exact ⟨t, hv, howner, hknown t htask⟩
  exact hboth.1

theorem PrepareEvents.not_attach (h : PrepareEvents events) {r v : Json} {a : Except Exc Unit} :
    ⟨.attachToken r v, a⟩ ∉ events := by
  cases h <;> simp

theorem ClickEvents.not_attach {event : HttpEvent} (h : ClickEvents py event events) {r v : Json}
    {a : Except Exc Unit} : ⟨.attachToken r v, a⟩ ∉ events := by
  cases h <;> simp

theorem issued_step (h : Issued s.owner s.world) (hstep : System.Step py env s call events s') :
    Issued s'.owner s'.world := by
  cases hstep with
  | prepare hattempt =>
      obtain ⟨q, htrace, _⟩ := hattempt.calls
      apply issued_effects h hattempt.effects
      intro r v a hmem
      exact absurd hmem (prepareEvents_of_trace htrace).not_attach
  | click hattempt =>
      obtain ⟨q, htrace, _⟩ := hattempt.calls
      apply issued_effects h hattempt.effects
      intro r v a hmem
      exact absurd hmem (clickEvents_of_clickAt (clickAt_of_trace htrace)).not_attach
  | timeout => exact issued_settle h
  | @gate token request execution events outcome world hfresh hattempt =>
      obtain ⟨q, htrace, _⟩ := hattempt.calls
      apply issued_effects (issued_issue h hfresh) hattempt.effects
      intro r v a hmem
      rcases gate_trace htrace with ⟨rfl, _⟩ | ⟨requestId, hfield, hevents, _⟩
      · cases hmem
      · refine ⟨token, ?_, ?_, by simp⟩
        · cases hevents <;> simp_all
        · rw [System.issue_owner_self, hfield]
          cases hevents <;> simp_all

theorem issued_reachable (h : System.Reachable py env s) : Issued s.owner s.world := by
  unfold System.Reachable at h
  refine Transition.invariant (P := fun s => Issued s.owner s.world) h ⟨?_, ?_⟩ ?_
  · intro k item hread
    cases hread
  · intro r v hread
    cases hread
  · intro a b ha ⟨_, _, hstep⟩
    exact issued_step ha hstep

/-! ## Emailed approvals -/

/-- When the email task returns, the gate waits on its token and the record
    holds it: this is the state that a race of clicks starts from. -/
theorem emailed_of_gate {token k : String} {request execution result : Json} {world : World}
    (h : Issued s.owner s.world) (hid : request.field "request_id" = some (.str k))
    (hattempt : Attempt (exec py) (sendApprovalEmail py env (gateEvent token request execution))
      (s.issue token request).world events (.returned result) world) : Emailed k token world := by
  obtain ⟨q, htrace, hret⟩ := hattempt.calls
  have heffects := hattempt.effects
  rcases gate_trace htrace with ⟨_, hne⟩ | ⟨requestId, hfield, hevents, hattached⟩
  · exact absurd hret (hne result)
  obtain rfl : requestId = .str k := Option.some.inj (hfield.symm.trans hid)
  have hmem := hattached result hret
  obtain ⟨w₁, hattach, hrest⟩ : ∃ w₁, exec py (.attachToken (.str k) (.str token))
      (s.issue token request).world (.ok ()) w₁ ∧ world = w₁ := by
    cases hevents with
    | start => cases hmem
    | @attached answer =>
        obtain rfl : answer = .ok () := by simpa [eq_comm] using hmem
        simpa [and_comm] using heffects
    | emailed =>
        simp only [effects_cons, effects_nil] at heffects
        obtain ⟨w₁, hattach, w₂, hemail, rfl⟩ := heffects
        exact ⟨w₁, hattach, hemail⟩
  subst hrest
  rcases exec_attachToken hattach with ⟨e, heq, _⟩ | ⟨k', item, hk, hkey, hstatus, htoken, _, rfl⟩
  · cases heq
  · injection hk with hk
    subst hk
    refine ⟨by simp, item, by simp, ?_, hstatus, htoken⟩
    rw [hkey]
    exact (issued_settle h).keyed.getD

/-! ## A schedule of calls -/

/-- Make a call in a world of functions and let it run to its end. -/
def System.perform (py : Python) (env : Env) (s : System) : Call → List (Event Op Ans) × System
  | .prepare event =>
    let (events, _, world) := (prepareRequest py event).run (answer py) none s.world
    (events, { s with world := world })
  | .gate token request execution =>
    let issued := s.issue token request
    let (events, _, world) :=
      (sendApprovalEmail py env (gateEvent token request execution)).run (answer py) none issued.world
    (events, { issued with world := world })
  | .click event =>
    let (events, _, world) := (decisionHandler py event).run (answer py) none s.world
    (events, { s with world := world })
  | .timeout token => ([], { s with world := s.world.settle token .timedOut })

/-- Step Functions makes up new tokens only, and only a waiting one times out. -/
def System.Possible (s : System) : Call → Prop
  | .gate token _ _ => s.world.tasks token = none
  | .timeout token => s.world.tasks token = some .waiting
  | _ => True

instance {s : System} : (made : Call) → Decidable (s.Possible made)
  | .gate token _ _ => inferInstanceAs (Decidable (s.world.tasks token = none))
  | .timeout token => inferInstanceAs (Decidable (s.world.tasks token = some .waiting))
  | .prepare _ | .click _ => inferInstanceAs (Decidable True)

theorem System.perform_step {s : System} {made : Call} (h : s.Possible made) :
    Step py env s made (s.perform py env made).1 (s.perform py env made).2 := by
  cases made with
  | prepare event => exact .prepare (run_attempt answer_exec _ _ _)
  | gate token request execution => exact .gate h (run_attempt answer_exec _ _ _)
  | click event => exact .click (run_attempt answer_exec _ _ _)
  | timeout token => exact .timeout h

/-- Make the calls that are possible, in order. -/
def System.performAll (py : Python) (env : Env) (s : System) : List Call → System
  | [] => s
  | made :: rest =>
    (if s.Possible made then (s.perform py env made).2 else s).performAll py env rest

theorem System.performAll_reachable {s : System} (h : Reachable py env s) (calls : List Call) :
    Reachable py env (s.performAll py env calls) := by
  induction calls generalizing s with
  | nil => exact h
  | cons made rest ih =>
      unfold performAll
      split
      · rename_i hpossible
        exact ih (ReflTransGen.tail h ⟨_, _, perform_step hpossible⟩)
      · exact ih h

end ApprovalWorkflow
