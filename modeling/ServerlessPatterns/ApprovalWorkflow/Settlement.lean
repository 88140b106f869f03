-- SUMMARY: How an approval comes to its end: every run of the execution at its gate and the clicks on its links stops, and what the record, the execution and the clicks then say.
import Mathlib.Algebra.Order.BigOperators.Group.Finset
import Mathlib.Data.Fintype.Card
import ServerlessPatterns.ApprovalWorkflow.Decisions
import ServerlessPatterns.ApprovalWorkflow.GatedAction

/-!
# Settlement

A run of the gate goes on until nothing is left to do: a click is through or was given up,
the token is used or has timed out, and the execution has ended. There are two ways to get
there. One click decided, or nobody did in time.
-/

namespace ApprovalWorkflow

open Asl Program Relation

variable {ι : Type} {py : Python} {env : Env} {link : ι → HttpEvent} {requestId token : String}

/-- The execution with the clicks, and which of the clicks were given up. -/
structure Attended (ι : Type) where
  gated : Gated ι
  gone : Finset ι

/-- The gate before anyone clicked. What comes before it puts its result into the state
    data, which are an object therefore. -/
def Attended.start (py : Python) (link : ι → HttpEvent) (w : World)
    (fields : List (String × Json)) : Attended ι :=
  ⟨Gated.start py link w (.obj fields), ∅⟩

/-- Click `i` has not come to its end. -/
def UnderWay (clicks : Clicks ι) (i : ι) : Prop :=
  ∃ op k, (clicks.thread i).program = .call op k

/-- Something happens to the gate, or a click is given up and stays where it stands. -/
inductive AttendedStep [DecidableEq ι] (py : Python) (env : Env) (token : String) :
    Attended ι → Attended ι → Prop where
  | go {g g' : Gated ι} {gone : Finset ι} (hstep : GatedStep py env token g g')
      (hgone : ∀ i ∈ gone, g'.clicks.thread i = g.clicks.thread i) :
      AttendedStep py env token ⟨g, gone⟩ ⟨g', gone⟩
  | giveUp {g : Gated ι} {gone : Finset ι} {i : ι} (hunder : UnderWay g.clicks i) (hi : i ∉ gone) :
      AttendedStep py env token ⟨g, gone⟩ ⟨g, insert i gone⟩

/-- Where the state after the gate leads: it is still tried, it has failed, or its result
    took the execution on to `next`. -/
inductive Branch (s next : StateName) : Execution StateName → Prop where
  | running {data left} : Branch s next (.running s data left)
  | failed {err} : Branch s next (.failed s err)
  | through {data} : Branch s next (machine.enter next data)

def Ended (execution : Execution StateName) : Prop :=
  ∀ s data left, execution ≠ .running s data left

/-- Where the click's answer takes the execution. -/
def HttpEvent.Ends (py : Python) (event : HttpEvent) (execution : Execution StateName) : Prop :=
  if event.action py = "approve" then Branch .recordApproval .approved execution
  else Branch .handleRejection .rejected execution

/-- Click `i` decided, and nobody else. -/
structure DecidedBy (py : Python) (link : ι → HttpEvent) (requestId token : String) (i : ι)
    (a : Attended ι) : Prop where
  resumed : ∃ decidedAt,
    a.gated.clicks.world.tasks token = some (.resumed ((link i).report py decidedAt))
  execution : (link i).Ends py a.gated.execution ∧ Ended a.gated.execution
  answered : i ∉ a.gone →
    (a.gated.clicks.thread i).program = .ret ((link i).recordedResponse py) ∧
    a.gated.clicks.world.table.attr requestId ["status"] = some ((link i).verdict py)
  /-- A click that was given up may have done so between its callback and its write. -/
  status : a.gated.clicks.world.table.attr requestId ["status"] = some ((link i).verdict py) ∨
    (i ∈ a.gone ∧ a.gated.clicks.world.table.attr requestId ["status"] = some statusNotified)
  others : ∀ j response, (a.gated.clicks.thread j).program = .ret response →
    response.statusCode = 200 → j = i

/-- Nobody decided in time. -/
structure Lapsed (requestId token : String) (a : Attended ι) : Prop where
  timedOut : a.gated.clicks.world.tasks token = some .timedOut
  execution : ∃ err, a.gated.execution = .failed .approvalTimedOut err
  status : a.gated.clicks.world.table.attr requestId ["status"] = some statusNotified
  unanswered : ∀ j response, (a.gated.clicks.thread j).program = .ret response →
    response.statusCode ≠ 200

/-! ## How the execution goes on -/

/-- The execution goes the way its token was used. -/
inductive Stage (token : String) : Execution StateName → World → Prop where
  | gate {fields left} {w : World} (hknown : (w.tasks token).isSome = true) :
      Stage token (.running .requestApproval (.obj fields) left) w
  | approved {execution output} {w : World}
      (hresumed : w.tasks token = some (.resumed (.success output)))
      (hbranch : Branch .recordApproval .approved execution) : Stage token execution w
  | rejected {execution error cause} {w : World}
      (hresumed : w.tasks token = some (.resumed (.failure error cause)))
      (hbranch : Branch .handleRejection .rejected execution) : Stage token execution w
  | lapsed {err} {w : World} (htimedOut : w.tasks token = some .timedOut) :
      Stage token (.failed .approvalTimedOut err) w

/-- A step of the world alone keeps the stage, unless it uses the token. -/
theorem Stage.kept {execution : Execution StateName} {w w' : World} (h : Stage token execution w)
    (hknown : (w.tasks token).isSome = true → (w'.tasks token).isSome = true)
    (hused : ∀ state, w.tasks token = some state → state ≠ .waiting →
      w'.tasks token = some state) : Stage token execution w' := by
  cases h with
  | gate hbefore => exact .gate (hknown hbefore)
  | approved hresumed hbranch => exact .approved (hused _ hresumed nofun) hbranch
  | rejected hresumed hbranch => exact .rejected (hused _ hresumed nofun) hbranch
  | lapsed htimedOut => exact .lapsed (hused _ htimedOut nofun)

/-- A click reports a rejection under one name. -/
theorem error_of_resumed {clicks : Clicks ι} (h : Agreed py link requestId token clicks)
    {error cause : String}
    (hresumed : clicks.world.tasks token = some (.resumed (.failure error cause))) :
    error = "ApprovalRejected" := by
  obtain ⟨i, hi⟩ := (h.resumed _).mp hresumed
  obtain ⟨_, decidedAt, hreport⟩ := (h.clickEvents i).report_eq hi
  unfold HttpEvent.report at hreport
  split at hreport
  · cases hreport
  · injection hreport

/-- What the gate is told takes the execution on to the branch for it. -/
theorem stage_resume {clicks : Clicks ι} (h : Agreed py link requestId token clicks)
    {context : Json} {fields : List (String × Json)} {left : List Nat}
    {report : Except TaskError Json} (hreport : TokenReport (clicks.world.tasks token) report) :
    Stage token (machine.resume .requestApproval requestApprovalTask context (.obj fields) left report)
      clicks.world := by
  generalize htask : clicks.world.tasks token = task at hreport
  cases hreport with
  | success => exact .approved htask .running
  | @failure error cause =>
      obtain rfl := error_of_resumed h htask
      exact .rejected htask .running
  | timedOut => exact .lapsed htask

/-- Behind the gate the execution stays on its branch. -/
theorem branch_resume {s next : StateName} {t : Task StateName Function} (hnext : t.next = some next)
    (hcatch : t.catchers = []) {context data : Json} {left : List Nat}
    {report : Except TaskError Json} :
    Branch s next (machine.resume s t context data left report) := by
  cases report with
  | ok result =>
      rw [Machine.resume]
      rcases machine.complete_cases s t context data result with
        ⟨_, heq⟩ | ⟨data', _, ⟨hnone, _⟩ | ⟨s', hs', heq⟩⟩
      · rw [heq]
        exact .failed
      · cases hnext.symm.trans hnone
      · cases hnext.symm.trans hs'
        rw [heq]
        exact .through
  | error err =>
      rw [Machine.resume]
      rcases machine.fault_cases s t data left err with
        ⟨i, _, _, heq⟩ | ⟨c, hc, _⟩ | ⟨err', heq⟩
      · rw [heq]
        exact .running
      · rw [hcatch] at hc
        cases hc
      · rw [heq]
        exact .failed

theorem branch_invoke {s next : StateName} {t : Task StateName Function}
    (ht : machine.states s = .task t) (hnext : t.next = some next) (hcatch : t.catchers = [])
    {data : Json} {left : List Nat} {w w' : World} {log : List (Invocation StateName Op Ans)}
    {execution' : Execution StateName}
    (hstep : Workflow.Step (workflow py env) (fun _ => True) ⟨.running s data left, w, []⟩
      ⟨execution', w', log⟩) : Branch s next execution' := by
  obtain ⟨context, ⟨_, heq⟩ | ⟨event, calls, outcome, world', report, _, _, _, _, heq⟩⟩ :=
    hstep.task ht
  · cases heq
    exact .failed
  · cases heq
    exact branch_resume hnext hcatch

variable [DecidableEq ι]

theorem stage_race {execution : Execution StateName} {clicks clicks' : Clicks ι}
    (h : Stage token execution clicks.world) (hrace : RaceStep py token clicks clicks') :
    Stage token execution clicks'.world := by
  cases hrace with
  | click hclick =>
      obtain ⟨_, hexec⟩ := hclick
      exact h.kept (exec_tasks_isSome hexec) fun _ hstate hne => exec_tasks_settled hexec hstate hne
  | timeout hwaiting =>
      refine h.kept (fun _ => ?_) fun state hstate hne => ?_
      · rw [World.settle_tasks_self]
        rfl
      · rw [hwaiting, Option.some.injEq] at hstate
        exact absurd hstate.symm hne

theorem stage_step {g g' : Gated ι} (h : Following py link requestId token g)
    (hstage : Stage token g.execution g.clicks.world) (hstep : GatedStep py env token g g') :
    Stage token g'.execution g'.clicks.world := by
  cases hstep with
  | race hrace => exact stage_race hstage hrace
  | resume hreport =>
      generalize hexecution : Execution.running StateName.requestApproval _ _ = execution at hstage
      cases hstage with
      | gate =>
          cases hexecution
          exact stage_resume h.agreed hreport
      | approved _ hbranch => subst hexecution; cases hbranch
      | rejected _ hbranch => subst hexecution; cases hbranch
      | lapsed => cases hexecution
  | @invoke s data left clicks invoked execution' world' log hgate hstep =>
      have hpassed := (h.passed _ _ _ rfl).resolve_left hgate
      obtain ⟨rfl, _, _⟩ := invoke_behind_gate (hpassed.imp And.left And.left) hstep
      rcases hpassed with ⟨rfl, output, hresumed⟩ | ⟨rfl, error, cause, hresumed⟩
      · exact .approved hresumed (branch_invoke (t := recordApprovalTask) rfl rfl rfl hstep)
      · exact .rejected hresumed (branch_invoke (t := handleRejectionTask) rfl rfl rfl hstep)

/-! ## What is left to do -/

/-- How many states can still follow. -/
def rank : StateName → Nat
  | .prepareRequest => 3
  | .requestApproval => 2
  | .recordApproval => 1
  | .handleRejection => 1
  | .approved | .rejected | .approvalTimedOut | .approvalError | .requestInvalid => 0

theorem machine_descends : Workflow.Descends machine rank where
  pass s result path next h := by
    cases s <;> cases h
  route s s' data h := by
    cases s <;> cases h
  next s t h := by
    cases s <;> cases h <;> decide
  catcher s t h := by
    cases s <;> cases h <;> decide

theorem machine_budget (s : StateName) (t : Task StateName Function)
    (h : machine.states s = .task t) : t.freshRetries.sum ≤ 4 := by
  cases s <;> cases h <;> decide

/-- The operations that the clicks can still perform. -/
def clicksLeft [Fintype ι] (clicks : Clicks ι) : Nat := ∑ i, (4 - (clicks.thread i).events.length)

def tokenLeft (task : Option TaskState) : Nat := if task = some .waiting then 1 else 0

def Gated.left [Fintype ι] (token : String) (g : Gated ι) : Nat :=
  clicksLeft g.clicks + tokenLeft (g.clicks.world.tasks token) +
    Workflow.remaining rank 4 g.execution

/-- What can still happen, and the clicks that can still be given up. -/
def Attended.left [Fintype ι] (token : String) (a : Attended ι) : Nat :=
  a.gated.left token + (Fintype.card ι - a.gone.card)

/-- No operation makes a token wait again. -/
theorem exec_tasks_waiting {op : Op} {w w' : World} {answer : Ans op} (h : exec py op w answer w')
    (hwaiting : w'.tasks token = some .waiting) : w.tasks token = some .waiting := by
  cases op with
  | create | attachToken | recordDecision =>
      obtain ⟨clock, _, rfl⟩ := h
      exact hwaiting
  | get | newId =>
      obtain ⟨rfl, _⟩ := h
      exact hwaiting
  | sendEmail | nowIso =>
      obtain rfl := h
      exact hwaiting
  | sendTask token' result =>
      rcases h with ⟨_, _, rfl⟩ | ⟨_, rfl⟩
      · by_cases heq : token = token'
        · subst heq
          rw [World.settle_tasks_self] at hwaiting
          cases hwaiting
        · rwa [World.settle_tasks_ne heq] at hwaiting
      · exact hwaiting

theorem tokenLeft_exec {op : Op} {w w' : World} {answer : Ans op} (h : exec py op w answer w') :
    tokenLeft (w'.tasks token) ≤ tokenLeft (w.tasks token) := by
  unfold tokenLeft
  split
  · rename_i hwaiting
    rw [if_pos (exec_tasks_waiting h hwaiting)]
  · exact Nat.zero_le _

/-- A click that asks for an operation has performed three at most. -/
theorem NextOp.length_lt {event : HttpEvent} {events : List (Event Op Ans)} {op : Op}
    (h : NextOp py event events op) : events.length < 4 := by
  cases h <;> simp

theorem clicksLeft_operation [Fintype ι] {clicks : Clicks ι} {i : ι} {op : Op} {answer : Ans op}
    {rest : Handler HtmlResponse} {world : World} (hi : (clicks.thread i).events.length < 4) :
    clicksLeft (clicks.answered i op answer rest world) < clicksLeft clicks := by
  refine Finset.sum_lt_sum (fun j _ => ?_) ⟨i, Finset.mem_univ i, ?_⟩
  · by_cases hj : j = i
    · subst hj
      simp only [Pool.answered_self, List.length_append, List.length_singleton]
      omega
    · rw [Pool.answered_ne hj]
  · simp only [Pool.answered_self, List.length_append, List.length_singleton]
    omega

theorem left_gatedStep [Fintype ι] {g g' : Gated ι} (h : Following py link requestId token g)
    (hstep : GatedStep py env token g g') : g'.left token < g.left token := by
  cases hstep with
  | race hrace =>
      refine Nat.add_lt_add_right ?_ _
      cases hrace with
      | click hclick =>
          obtain ⟨hprogram, hexec⟩ := hclick
          rename_i i op k answer world
          have hat := h.agreed.clickAt i
          rw [hprogram] at hat
          exact Nat.add_lt_add_of_lt_of_le (clicksLeft_operation (NextOp.length_lt hat))
            (tokenLeft_exec hexec)
      | timeout hwaiting =>
          have hbefore : tokenLeft (some .waiting) = 1 := rfl
          have hafter : tokenLeft (some .timedOut) = 0 := rfl
          refine Nat.add_lt_add_left ?_ _
          rw [hwaiting, World.settle_tasks_self, hbefore, hafter]
          exact Nat.one_pos
  | resume =>
      have hless := Workflow.remaining_resume machine_descends machine_budget
        (s := .requestApproval) (t := requestApprovalTask) rfl
      exact Nat.add_lt_add_left (hless _ _ _ _) _
  | invoke hgate hstep =>
      have hless := Workflow.remaining_step machine_descends machine_budget hstep
      have hpassed := (h.passed _ _ _ rfl).resolve_left hgate
      obtain ⟨rfl, _, _⟩ := invoke_behind_gate (hpassed.imp And.left And.left) hstep
      exact Nat.add_lt_add_left hless _

omit [DecidableEq ι] in
theorem left_start [Fintype ι] {w : World} (h : Emailed requestId token w)
    (fields : List (String × Json)) :
    (Attended.start py link w fields).left token = 5 * Fintype.card ι + 12 := by
  have hclicks : clicksLeft (Pool.init w fun i => decisionHandler py (link i)) =
      Fintype.card ι * 4 := by
    change ∑ _i : ι, 4 = _
    rw [Finset.sum_const, Finset.card_univ, nsmul_eq_mul, Nat.cast_id]
  have htoken : tokenLeft (w.tasks token) = 1 := if_pos h.waiting
  calc (Attended.start py link w fields).left token
    _ = clicksLeft (Pool.init w fun i => decisionHandler py (link i)) + tokenLeft (w.tasks token) +
          11 + (Fintype.card ι - 0) := rfl
    _ = 5 * Fintype.card ι + 12 := by
      rw [hclicks, htoken]
      omega

/-- Every step leaves less to do. -/
theorem left_step [Fintype ι] {a a' : Attended ι}
    (h : Following py link requestId token a.gated) (hstep : AttendedStep py env token a a') :
    a'.left token < a.left token := by
  cases hstep with
  | go hstep => exact Nat.add_lt_add_right (left_gatedStep h hstep) _
  | @giveUp g gone i hunder hi =>
      have hroom : gone.card < Fintype.card ι := Finset.card_lt_univ_of_notMem hi
      have hcard := Finset.card_insert_of_notMem hi
      refine Nat.add_lt_add_left ?_ _
      dsimp only
      omega

/-! ## Where nothing is left to do -/

omit [DecidableEq ι] in
/-- A click whose callback was accepted writes its decision before it comes to its end. -/
theorem Agreed.finished {clicks : Clicks ι} (h : Agreed py link requestId token clicks) {i : ι}
    {result : TaskResult} (haccepted : Accepted clicks token i result)
    (hdone : ¬ UnderWay clicks i) :
    (clicks.thread i).program = .ret ((link i).recordedResponse py) ∧
      Recorded py link clicks i (.ok ()) := by
  have htrace := h.traced i
  have hevents := h.clickEvents i
  unfold Accepted at haccepted
  have hrefused := h.unrefused i
  unfold Recorded at hrefused ⊢
  unfold UnderWay at hdone
  generalize (clicks.thread i).events = events at *
  generalize (clicks.thread i).program = q at *
  cases hevents with
  | start | read | clocked => simp at haccepted
  | @sent a t answer hvalid hread =>
      obtain ⟨record, rfl, hundecided⟩ := hread
      obtain rfl : answer = .ok () := by
        simp at haccepted
        tauto
      -- The write is still to come.
      have hrest := htrace.rest [_] (click_trace hvalid hundecided t)
      cases hrest with
      | cons => exact absurd ⟨_, _, rfl⟩ hdone
  | @recorded a t answer hvalid hread =>
      obtain ⟨record, rfl, hundecided⟩ := hread
      cases answer with
      | error e => exact absurd (by simp) (hrefused e)
      | ok =>
          have hrest := htrace.rest [] (click_trace hvalid hundecided t)
          cases hrest with
          | nil => exact ⟨rfl, by simp⟩

/-- In every state of a run the execution follows the clicks, and is at a stage. -/
theorem attended_reachable {w : World} (hemailed : Emailed requestId token w)
    (hlink : ∀ i, EmailedLink requestId token (link i)) {fields : List (String × Json)}
    {a : Attended ι}
    (hreach : ReflTransGen (AttendedStep py env token) (Attended.start py link w fields) a) :
    Following py link requestId token a.gated ∧
      Stage token a.gated.execution a.gated.clicks.world := by
  refine Transition.invariant (P := fun a => Following py link requestId token a.gated ∧
    Stage token a.gated.execution a.gated.clicks.world) hreach ⟨following_start hemailed _, ?_⟩ ?_
  · refine .gate ?_
    change (w.tasks token).isSome = true
    rw [hemailed.waiting]
    rfl
  · rintro a a' ⟨hfollowing, hstage⟩ hstep
    cases hstep with
    | go hstep => exact ⟨following_step hlink hfollowing hstep, stage_step hfollowing hstage hstep⟩
    | giveUp => exact ⟨hfollowing, hstage⟩

section Stuck

variable {a : Attended ι} (hstuck : Transition.Stuck (AttendedStep py env token) a)
include hstuck

theorem done_of_stuck {i : ι} (hi : i ∉ a.gone) : ¬ UnderWay a.gated.clicks i :=
  fun hunder => hstuck _ (.giveUp hunder hi)

theorem not_waiting_of_stuck : a.gated.clicks.world.tasks token ≠ some .waiting :=
  fun hwaiting => hstuck _ (.go (.race (.timeout hwaiting)) fun _ _ => rfl)

/-- At its gate the execution is told what became of its token. -/
theorem not_gate_of_stuck (hknown : (a.gated.clicks.world.tasks token).isSome = true) {data : Json}
    {left : List Nat} : a.gated.execution ≠ .running .requestApproval data left := by
  intro hgate
  obtain ⟨⟨execution, clicks, invoked⟩, gone⟩ := a
  cases hgate
  have htold : ∃ report, TokenReport (clicks.world.tasks token) report := by
    cases htask : clicks.world.tasks token with
    | none => rw [htask] at hknown; cases hknown
    | some state =>
        cases state with
        | waiting => exact absurd htask (not_waiting_of_stuck hstuck)
        | resumed result =>
            cases result with
            | success output => exact ⟨.ok .null, .success⟩
            | failure error cause => exact ⟨_, .failure⟩
        | timedOut => exact ⟨.error ⟨"States.Timeout", ""⟩, .timedOut⟩
  obtain ⟨report, hreport⟩ := htold
  have hresume : GatedStep py env token ⟨.running .requestApproval data left, clicks, invoked⟩
      ⟨machine.resume .requestApproval requestApprovalTask .null data left report, clicks,
        invoked⟩ := .resume hreport
  exact hstuck _ (.go hresume fun _ _ => rfl)

/-- Behind the gate the execution can always try its handler once more. -/
theorem not_behind_of_stuck {s : StateName} {t : Task StateName Function}
    (ht : machine.states s = .task t) (hgate : s ≠ .requestApproval) {data : Json}
    {left : List Nat} : a.gated.execution ≠ .running s data left := by
  intro hbehind
  obtain ⟨⟨execution, clicks, invoked⟩, gone⟩ := a
  cases hbehind
  have hcan : ∃ c', Workflow.Step (workflow py env) (fun _ => True)
      ⟨.running s data left, clicks.world, []⟩ c' :=
    Workflow.exists_step answer_exec .smooth (fun _ _ _ _ => trivial) ht data left clicks.world []
  obtain ⟨⟨execution', world', log⟩, hstep⟩ := hcan
  exact hstuck _ (.go (.invoke hgate hstep) fun _ _ => rfl)

theorem ended_of_stuck (hstage : Stage token a.gated.execution a.gated.clicks.world) :
    Ended a.gated.execution := by
  intro s data left hrunning
  have hgate := not_gate_of_stuck hstuck
  generalize hworld : a.gated.clicks.world = w at hstage
  generalize hexecution : a.gated.execution = execution at hstage
  cases hstage with
  | gate hknown => exact hgate (hworld ▸ hknown) hexecution
  | approved _ hbranch =>
      cases hbranch with
      | running => exact not_behind_of_stuck hstuck (s := .recordApproval) rfl nofun hexecution
      | failed => cases hexecution.symm.trans hrunning
      | through => cases hexecution.symm.trans hrunning
  | rejected _ hbranch =>
      cases hbranch with
      | running => exact not_behind_of_stuck hstuck (s := .handleRejection) rfl nofun hexecution
      | failed => cases hexecution.symm.trans hrunning
      | through => cases hexecution.symm.trans hrunning
  | lapsed => cases hexecution.symm.trans hrunning

end Stuck

omit [DecidableEq ι] in
/-- A click that is answered with 200 is the one whose callback was accepted. -/
theorem Agreed.accepted_of_answered {clicks : Clicks ι}
    (h : Agreed py link requestId token clicks) (hlink : ∀ i, EmailedLink requestId token (link i))
    {j : ι} {response : HtmlResponse} (hresponse : (clicks.thread j).program = .ret response)
    (hcode : response.statusCode = 200) : ∃ result, Accepted clicks token j result := by
  have hat := h.clickAt j
  rw [hresponse] at hat
  obtain ⟨decidedAt, haccepted⟩ := h.accepted_of_recorded hlink (hat.2 hcode)
  exact ⟨_, haccepted⟩

/-- An execution that has ended went the way of the click that used the token. -/
theorem ends_of_stage {event : HttpEvent} {decidedAt : String} {execution : Execution StateName}
    {w : World} (h : Stage token execution w) (hended : Ended execution)
    (hresumed : w.tasks token = some (.resumed (event.report py decidedAt))) :
    event.Ends py execution := by
  cases h with
  | gate => exact absurd rfl (hended _ _ _)
  | approved hsuccess hbranch =>
      have hreport := hresumed.symm.trans hsuccess
      simp only [Option.some.injEq, TaskState.resumed.injEq] at hreport
      have hverdict := HttpEvent.verdict_of_success hreport
      rwa [HttpEvent.Ends, if_pos (HttpEvent.verdict_eq_approved.mp hverdict)]
  | rejected hfailure hbranch =>
      have hreport := hresumed.symm.trans hfailure
      simp only [Option.some.injEq, TaskState.resumed.injEq] at hreport
      have hverdict := HttpEvent.verdict_of_failure hreport
      have haction : event.action py ≠ "approve" := by
        intro happrove
        have hboth := (HttpEvent.verdict_eq_approved.mpr happrove).symm.trans hverdict
        revert hboth
        decide
      rwa [HttpEvent.Ends, if_neg haction]
  | lapsed htimedOut => cases htimedOut.symm.trans hresumed

/-- Where nothing is left to do and the token was used, the click that used it has decided. -/
theorem decidedBy_of_stuck (hlink : ∀ i, EmailedLink requestId token (link i)) {a : Attended ι}
    (hstuck : Transition.Stuck (AttendedStep py env token) a)
    (h : Agreed py link requestId token a.gated.clicks)
    (hstage : Stage token a.gated.execution a.gated.clicks.world) {result : TaskResult}
    (hresumed : a.gated.clicks.world.tasks token = some (.resumed result)) :
    ∃ i, DecidedBy py link requestId token i a := by
  obtain ⟨i, hi⟩ := (h.resumed _).mp hresumed
  obtain ⟨_, decidedAt, rfl⟩ := (h.clickEvents i).report_eq hi
  have hended := ended_of_stuck hstuck hstage
  have hfinished (hthere : i ∉ a.gone) := h.finished hi (done_of_stuck hstuck hthere)
  have hstatus : a.gated.clicks.world.table.attr requestId ["status"] = some ((link i).verdict py) ∨
      (i ∈ a.gone ∧ a.gated.clicks.world.table.attr requestId ["status"] = some statusNotified) := by
    obtain ⟨record, hread, _, ⟨hnotified, hnone⟩ | ⟨j, hj, hverdict⟩⟩ := h.record
    · have hgone : i ∈ a.gone := by
        by_contra hthere
        exact hnone i (hfinished hthere).2
      exact .inr ⟨hgone, by rw [Table.attr, hread, Option.bind_some, hnotified]⟩
    · obtain ⟨_, hj⟩ := h.accepted_of_recorded hlink hj
      rw [h.single j i _ _ hj hi] at hverdict
      exact .inl (by rw [Table.attr, hread, Option.bind_some, hverdict])
  refine ⟨i, ⟨decidedAt, hresumed⟩, ⟨ends_of_stage hstage hended hresumed, hended⟩, ?_, hstatus, ?_⟩
  · intro hthere
    exact ⟨(hfinished hthere).1, hstatus.resolve_right fun hgone => hthere hgone.1⟩
  · intro j response hresponse hcode
    obtain ⟨result, hj⟩ := h.accepted_of_answered hlink hresponse hcode
    exact h.single j i _ _ hj hi

omit [DecidableEq ι] in
/-- A token that timed out was never used, so no click came to its write. -/
theorem lapsed_of_timedOut (hlink : ∀ i, EmailedLink requestId token (link i)) {a : Attended ι}
    (h : Agreed py link requestId token a.gated.clicks)
    (htimedOut : a.gated.clicks.world.tasks token = some .timedOut) {err : TaskError}
    (hexecution : a.gated.execution = .failed .approvalTimedOut err) :
    Lapsed requestId token a := by
  have hnone : ∀ i result, ¬ Accepted a.gated.clicks token i result := by
    intro i result haccepted
    cases htimedOut.symm.trans ((h.resumed result).mpr ⟨i, haccepted⟩)
  refine ⟨htimedOut, ⟨err, hexecution⟩, ?_, ?_⟩
  · have hunwritten : ∀ i answer, ¬ Recorded py link a.gated.clicks i answer := by
      intro i answer hrecorded
      obtain ⟨_, haccepted⟩ := h.accepted_of_recorded hlink hrecorded
      exact hnone i _ haccepted
    obtain ⟨record, hread, _, hstatus⟩ := h.undecided hunwritten
    rw [Table.attr, hread, Option.bind_some, hstatus]
  · intro j response hresponse hcode
    obtain ⟨result, haccepted⟩ := h.accepted_of_answered hlink hresponse hcode
    exact hnone j result haccepted

/-- An approval from its email to its end. -/
structure GateSettles (py : Python) (env : Env) : Prop where
  /-- When the email task has returned, whatever went before, the record is notified and
      the gate waits on the token in the links. -/
  emailed : ∀ (s : System) (token k : String) (request execution result : Json)
    (events : List (Event Op Ans)) (w : World), System.Reachable py env s →
    request.field "request_id" = some (.str k) →
    Attempt (exec py) (sendApprovalEmail py env (gateEvent token request execution))
      (s.issue token request).world events (.returned result) w → Emailed k token w
  /-- Every run of the gate stops, in whatever order the clicks, the timeout and the handlers
      behind the gate come and whichever clicks are given up. One click has decided then, or
      nobody has in time. -/
  settles : ∀ (ι : Type) [DecidableEq ι] [Fintype ι] (link : ι → HttpEvent) (requestId token : String)
    (w : World) (fields : List (String × Json)), Emailed requestId token w →
    (∀ i, EmailedLink requestId token (link i)) →
    ∀ run : Transition.MaximalRun (AttendedStep py env token) (Attended.start py link w fields),
      ∃ n ≤ 5 * Fintype.card ι + 12, Transition.Stuck (AttendedStep py env token) (run.state n) ∧
        ((∃ i, DecidedBy py link requestId token i (run.state n)) ∨
          Lapsed requestId token (run.state n))

theorem gate_settles (py : Python) (env : Env) : GateSettles py env where
  emailed s token k request execution result events w hreach hid hattempt :=
    emailed_of_gate (issued_reachable hreach) hid hattempt
  settles ι _ _ link requestId token w fields hemailed hlink run := by
    have hreached (n : Nat) := attended_reachable hemailed hlink (run.reachable n)
    obtain ⟨n, hn, hstuck⟩ := run.halts_along (Attended.left token) fun n hstep =>
      left_step (hreached n).1 hstep
    refine ⟨n, ?_, hstuck, ?_⟩
    · rw [left_start hemailed] at hn
      omega
    · obtain ⟨hfollowing, hstage⟩ := hreached n
      have hended := ended_of_stuck hstuck hstage
      generalize hworld : (run.state n).gated.clicks.world = world at hstage
      generalize hexecution : (run.state n).gated.execution = execution at hstage
      subst hworld
      have hat := hexecution ▸ hstage
      cases hstage with
      | gate => exact absurd hexecution (hended _ _ _)
      | approved hresumed => exact .inl (decidedBy_of_stuck hlink hstuck hfollowing.agreed hat hresumed)
      | rejected hresumed => exact .inl (decidedBy_of_stuck hlink hstuck hfollowing.agreed hat hresumed)
      | lapsed htimedOut => exact .inr (lapsed_of_timedOut hlink hfollowing.agreed htimedOut hexecution)

theorem gate_settles_rivalLinks :
    ∃ a, ReflTransGen (AttendedStep .sample sampleEnv "token-1")
        (Attended.start .sample rivalLinks emailedWorld []) a ∧
      ((∃ i, DecidedBy .sample rivalLinks "req-1" "token-1" i a) ∨ Lapsed "req-1" "token-1" a) := by
  obtain ⟨run⟩ := Transition.MaximalRun.nonempty (AttendedStep .sample sampleEnv "token-1")
    (Attended.start .sample rivalLinks emailedWorld [])
  obtain ⟨n, _, _, hends⟩ := (gate_settles .sample sampleEnv).settles Bool rivalLinks "req-1" "token-1"
    emailedWorld [] emailed_emailedWorld emailedLink_rivalLinks run
  exact ⟨run.state n, run.reachable n, hends⟩

end ApprovalWorkflow
