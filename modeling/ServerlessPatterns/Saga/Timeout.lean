-- SUMMARY: For which function timeouts every execution of the saga ends before the state machine's own timeout.
import ServerlessPatterns.Library.Timing
import ServerlessPatterns.Saga.FlakyRuns

/-!
# The timeout of the saga

The timeout of the functions is validated alone, while that of the state machine is a
constant. The longest execution uses up all retries of the forward steps and of the
compensations, and still does all of them.
-/

namespace OrderSaga

open Asl Program Workflow Relation

/-- An attempt takes no longer than its function may run, and its task may wait. -/
def AttemptTakes (lambdaTimeout : ℚ) (t : Task StateName Function) (d : ℚ) : Prop :=
  0 ≤ d ∧ d ≤ lambdaTimeout ∧ ∀ seconds ∈ t.timeoutSeconds, d ≤ (seconds : ℚ)

abbrev Clocked := Workflow.Clocked StateName Op Ans Table

abbrev ClockedStep (py : Python) (lambdaTimeout : ℚ) : Clocked → Clocked → Prop :=
  Workflow.ClockedStep (workflow py) (fun _ => True) (AttemptTakes lambdaTimeout)

abbrev ClockedRun (py : Python) (lambdaTimeout : ℚ) (input : Json) (table : Table) : Type :=
  Transition.MaximalRun (ClockedStep py lambdaTimeout) ⟨(workflow py).init input table, 0⟩

def Charged (log : List Attempted) : Prop := ∃ inv ∈ log, inv.state = .chargePayment ∧ Succeeded inv

def Refunded (log : List Attempted) : Prop := ∃ inv ∈ log, inv.state = .refundPayment ∧ Succeeded inv

/-- The state machine's timeout falls into a step after the charge and before the refund. -/
def CutWhileCharged (c c' : Clocked) : Prop :=
  c.elapsed ≤ machine.timeoutSeconds ∧ machine.timeoutSeconds < c'.elapsed ∧
    Charged c.config.log ∧ ¬ Refunded c.config.log

/-- Whatever fails, every execution ends within the timeout of the state machine, which
    never falls between a charge and its refund. -/
def NeverCut (py : Python) (lambdaTimeout : ℚ) : Prop :=
  ∀ (input : Json) (table : Table) (run : ClockedRun py lambdaTimeout input table),
    (∃ n, Transition.Stuck (ClockedStep py lambdaTimeout) (run.state n) ∧
      (run.state n).elapsed ≤ machine.timeoutSeconds) ∧
    ∀ n, ¬ CutWhileCharged (run.state n) (run.state (n + 1))

variable {py : Python} {lambdaTimeout : ℚ} {orderId : String} {input data : Json} {table : Table}
  {log : List Attempted} {s : Stage} {u : Undo} {todo : List Stage}

/-! ## No execution takes longer -/

/-- The longest attempt at a task. -/
def mostSeconds (lambdaTimeout : ℚ) (t : Task StateName Function) : ℚ :=
  match t.timeoutSeconds with
  | none => lambdaTimeout
  | some seconds => min lambdaTimeout seconds

theorem takes_le {t : Task StateName Function} {d : ℚ} (h : AttemptTakes lambdaTimeout t d) :
    d ≤ mostSeconds lambdaTimeout t := by
  obtain ⟨_, hfunction, htask⟩ := h
  unfold mostSeconds
  cases hseconds : t.timeoutSeconds with
  | none => exact hfunction
  | some seconds => exact le_min hfunction (htask seconds hseconds)

/-- The longest that an execution goes on from a state, with attempts of `a` seconds at the
    tasks with a timeout of 30 seconds and of `b` seconds at those with one of 60. -/
def longestFrom (a b : ℚ) : StateName → ℚ
  | .initializeSaga => 37 * a + 18 * b + 425
  | .createOrder => 37 * a + 18 * b + 425
  | .chargePayment => 29 * a + 18 * b + 396
  | .reserveInventory => 21 * a + 18 * b + 367
  | .scheduleShipment => 13 * a + 18 * b + 338
  | .releaseInventory => 5 * a + 18 * b + 309
  | .refundPayment => 5 * a + 12 * b + 216
  | .cancelOrder => 5 * a + 6 * b + 123
  | .markFailed => 5 * a + 30
  | .completeSaga => 4 * a + 14
  | .sagaFailed => 0
  | .compensationFailed => 0

theorem longest_forward {resource : Function} {resultKey : String} {next onError : StateName} {a : ℚ} :
    (forwardTask resource resultKey next onError).longest a
      (forwardTask resource resultKey next onError).freshRetries = 8 * a + 29 := by
  simp [Task.longest, Task.freshRetries, forwardTask, pausesLeft, Retrier.pauses, Retrier.pause]
  norm_num

theorem longest_compensation {resource : Function} {resultKey : String} {next : StateName} {b : ℚ} :
    (compensationTask resource resultKey next).longest b
      (compensationTask resource resultKey next).freshRetries = 6 * b + 93 := by
  simp [Task.longest, Task.freshRetries, compensationTask, pausesLeft, Retrier.pauses, Retrier.pause]
  norm_num

theorem longest_completeSaga {a : ℚ} :
    completeSagaTask.longest a completeSagaTask.freshRetries = 4 * a + 14 := by
  simp [Task.longest, Task.freshRetries, completeSagaTask, bookkeepingTask, pausesLeft, Retrier.pauses,
    Retrier.pause]
  norm_num

theorem longest_markFailed {a : ℚ} :
    markFailedTask.longest a markFailedTask.freshRetries = 5 * a + 30 := by
  simp [Task.longest, Task.freshRetries, markFailedTask, bookkeepingTask, pausesLeft, Retrier.pauses,
    Retrier.pause]
  norm_num

/-- The longest that an execution stays in a state. -/
def longestAt (a b : ℚ) : StateName → ℚ
  | .createOrder | .chargePayment | .reserveInventory | .scheduleShipment => 8 * a + 29
  | .releaseInventory | .refundPayment | .cancelOrder => 6 * b + 93
  | .completeSaga => 4 * a + 14
  | .markFailed => 5 * a + 30
  | .initializeSaga | .sagaFailed | .compensationFailed => 0

theorem longest_task {name : StateName} {t : Task StateName Function} (hstate : machine.states name = .task t) :
    t.longest (mostSeconds lambdaTimeout t) t.freshRetries =
      longestAt (min lambdaTimeout 30) (min lambdaTimeout 60) name := by
  cases name <;> cases hstate
  case createOrder | chargePayment | reserveInventory | scheduleShipment => exact longest_forward
  case releaseInventory | refundPayment | cancelOrder => exact longest_compensation
  case completeSaga => exact longest_completeSaga
  case markFailed => exact longest_markFailed

theorem machine_bounded (h : 0 ≤ lambdaTimeout) : Workflow.Bounded machine (mostSeconds lambdaTimeout)
    (longestFrom (min lambdaTimeout 30) (min lambdaTimeout 60)) := by
  have ha : (0 : ℚ) ≤ min lambdaTimeout 30 := le_min h (by norm_num)
  have hb : (0 : ℚ) ≤ min lambdaTimeout 60 := le_min h (by norm_num)
  constructor
  case nonneg =>
    intro name
    cases name <;> simp only [longestFrom] <;> positivity
  case pass =>
    intro name result path next hstate
    cases name <;> cases hstate
    exact le_refl _
  case route =>
    intro name name' data left hroute
    cases name <;> cases hroute
  case attempt =>
    intro name t hstate
    cases name <;> cases hstate <;> assumption
  case rates =>
    intro name t hstate
    cases name <;> cases hstate <;> decide
  case task =>
    intro name t hstate
    rw [longest_task hstate]
    cases name <;> cases hstate <;> simp only [longestAt, longestFrom] <;> linarith
  case next =>
    intro name t hstate name' hnext
    rw [longest_task hstate]
    cases name <;> cases hstate <;> cases hnext <;> simp only [longestAt, longestFrom] <;> linarith
  case catcher =>
    intro name t hstate c hc
    rw [longest_task hstate]
    cases name <;> cases hstate
    case completeSaga | markFailed => cases hc
    all_goals
      obtain rfl := List.mem_singleton.mp hc
      simp only [longestAt, longestFrom]
      linarith

/-- Short attempts keep every execution within the timeout. -/
theorem elapsed_le {c : Clocked} (hL : 0 ≤ lambdaTimeout) (hfits : lambdaTimeout ≤ 95 / 11)
    (h : ReflTransGen (ClockedStep py lambdaTimeout) ⟨(workflow py).init input table, 0⟩ c) :
    c.elapsed ≤ machine.timeoutSeconds := by
  have hbounded : Workflow.Bounded (workflow py).machine (mostSeconds lambdaTimeout)
      (longestFrom (min lambdaTimeout 30) (min lambdaTimeout 60)) := machine_bounded hL
  have hle := hbounded.elapsed_le (fun t d => takes_le) h
  have ha : min lambdaTimeout 30 ≤ 95 / 11 := (min_le_left _ _).trans hfits
  have hb : min lambdaTimeout 60 ≤ 95 / 11 := (min_le_left _ _).trans hfits
  have htotal : 37 * min lambdaTimeout 30 + 18 * min lambdaTimeout 60 + 425 ≤ (900 : ℚ) := by linarith
  exact hle.trans htotal

/-! ## The longest execution -/

/-- It can take the time `d` to get from one configuration to another. -/
abbrev Lasts (py : Python) (lambdaTimeout : ℚ) : Config → Config → ℚ → Prop :=
  Workflow.Lasts (workflow py) (fun _ => True) (AttemptTakes lambdaTimeout)

section

variable {d : ℚ} {table' : Table} {calls : List (Event Op Ans)} {outcome : Outcome Exc Json}

/-- An attempt takes its time, and then its pause. -/
theorem attempt_lasts {name : StateName} {t : Task StateName Function} {left : List Nat}
    {report : Except TaskError Json} {execution : Execution StateName}
    (hstate : machine.states name = .task t)
    (hattempt : Attempt (exec py) (function py t.resource data) table calls outcome table')
    (hreport : Workflow.Reported t outcome report) (htakes : AttemptTakes lambdaTimeout t d)
    (hnext : machine.resume name t .null data left report = execution)
    (hpause : t.pause left report = 0) :
    Lasts py lambdaTimeout ⟨.running name data left, table, log⟩
      ⟨execution, table', log ++ [⟨name, data, calls, outcome⟩]⟩ d := by
  subst hnext
  have hevent : t.event .null data = some data := (task_direct hstate).event
  have hlasts : Lasts py lambdaTimeout ⟨.running name data left, table, log⟩ _ (d + t.pause left report) :=
    .attempt hstate hevent hattempt trivial hreport htakes
  rwa [hpause, add_zero] at hlasts

/-- Errors of a kind use up the retries that there are for it. -/
theorem exhausts_lasts {name : StateName} {t : Task StateName Function} {left : List Nat} {err : TaskError}
    {i n : Nat} {r : Retrier} (hstate : machine.states name = .task t)
    (htakes : AttemptTakes lambdaTimeout t d)
    (hidx : (t.retry.findIdx? fun r => catches r.errorEquals err) = some i)
    (hr : t.retry[i]? = some r) (hn : left[i]? = some n) :
    ∃ log', Lasts py lambdaTimeout ⟨.running name data left, table, log⟩
      ⟨.running name data (left.set i 0), table, log'⟩ (n * d + r.pauses n) := by
  have hevent : t.event .null data = some data := (task_direct hstate).event
  refine Workflow.exhausts ?_ hevent trivial htakes hidx hr hn log
  exact hstate

end

/-- Three injected errors and four of the service use up the retries of a forward step. -/
theorem forward_exhausts {a : ℚ} (htakes : AttemptTakes lambdaTimeout s.task a) :
    ∃ log', Lasts py lambdaTimeout ⟨.running s.state data [3, 4], table, log⟩
      ⟨.running s.state data [0, 0], table, log'⟩ (7 * a + 29) := by
  have hretry : s.task.retry = [⟨["SagaTransientError"], 2, 3, 2⟩, ⟨serviceErrors, 1, 4, 2⟩] := by
    cases s <;> rfl
  have hfirst : (s.task.retry.findIdx? fun r =>
      catches r.errorEquals ⟨"SagaTransientError", ""⟩) = some 0 := by
    rw [hretry]
    decide
  have hsecond : (s.task.retry.findIdx? fun r =>
      catches r.errorEquals ⟨"Lambda.ServiceException", ""⟩) = some 1 := by
    rw [hretry]
    decide
  obtain ⟨log₁, htransient⟩ : ∃ log', Lasts py lambdaTimeout ⟨.running s.state data [3, 4], table, log⟩
      ⟨.running s.state data [0, 4], table, log'⟩ ((3 : Nat) * a + Retrier.pauses _ 3) :=
    exhausts_lasts s.states_state htakes hfirst (by rw [hretry]; rfl) rfl
  obtain ⟨log₂, hservice⟩ : ∃ log', Lasts py lambdaTimeout ⟨.running s.state data [0, 4], table, log₁⟩
      ⟨.running s.state data [0, 0], table, log'⟩ ((4 : Nat) * a + Retrier.pauses _ 4) :=
    exhausts_lasts s.states_state htakes hsecond (by rw [hretry]; rfl) rfl
  have htotal : 7 * a + 29 = ((3 : Nat) * a + Retrier.pauses ⟨["SagaTransientError"], 2, 3, 2⟩ 3) +
      ((4 : Nat) * a + Retrier.pauses ⟨serviceErrors, 1, 4, 2⟩ 4) := by
    simp only [Retrier.pauses, Retrier.pause]
    norm_num
    ring
  rw [htotal]
  exact ⟨log₂, htransient.trans hservice⟩

/-- The data hold what a compensation undoes. -/
def Readable (data : Json) (u : Undo) : Prop := ∃ d, u.Reads data d ∧ d.hasFloat = false

/-- Where the longest execution goes forward. -/
structure Forwards (py : Python) (orderId : String) (input : Json) (done todo : List Stage) (data : Json)
    (table : Table) : Prop where
  order : FlakyOrder py orderId [] data
  carries : Carries orderId input data
  counted : ∀ s rest, todo = s :: rest → Counted orderId s 0 rest table
  established : done ≠ [] → Established orderId table
  readable : ∀ u : Undo, u.stage ∈ done → Readable data u

theorem not_fails (s : Stage) (i : Nat) : ¬ Fails [] s i := by
  unfold Fails succeedsOn
  split <;> simp

theorem Readable.put {data' : Json} {path : Json.Path} {value : Json} (h : Readable data u)
    (hput : data.put path value = some data') (hapart : path.Apart ["results", u.stage.resultKey]) :
    Readable data' u := by
  obtain ⟨d, ⟨result, hget, hd⟩, hfloat⟩ := h
  exact ⟨d, ⟨result, (Json.get_put_apart hput hapart).trans hget, hd⟩, hfloat⟩

theorem fits_of_returned {calls : List (Event Op Ans)} {result : Json}
    (h : ForwardEnd s calls (.returned result)) :
    ∃ performed : Performed, s.Fits performed ∧ result = performed.result := by
  cases h with
  | returned performed hfits _ => exact ⟨performed, hfits, rfl⟩

/-- Every handler can be run to its end. -/
theorem exists_attempt (py : Python) (p : Handler Json) (table : Table) :
    ∃ calls outcome table', Attempt (exec py) p table calls outcome table' ∧ outcome ≠ .lost :=
  ⟨_, _, _, run_attempt answer_exec p none table, run_none_ne_lost p table⟩

/-- A forward step that uses up its retries and then returns. -/
theorem forward_lasts {a : ℚ} {done : List Stage} (htakes : AttemptTakes lambdaTimeout s.task a)
    (hs : s ∉ todo) (h : Forwards py orderId input done (s :: todo) data table) (log : List Attempted) :
    ∃ data' table' log', Lasts py lambdaTimeout ⟨.running s.state data [3, 4], table, log⟩
        ⟨machine.enter s.next data', table', log'⟩ (8 * a + 29) ∧
      Forwards py orderId input (s :: done) todo data' table' := by
  obtain ⟨log₁, hexhausts⟩ : ∃ log', Lasts py lambdaTimeout ⟨.running s.state data [3, 4], table, log⟩
      ⟨.running s.state data [0, 0], table, log'⟩ (7 * a + 29) := forward_exhausts htakes
  obtain ⟨calls, outcome, table', hattempt, hrun⟩ := exists_attempt py (s.handler py data) table
  rcases wp_attempt (stage_wp h.order hs (h.counted s todo rfl)) hattempt hrun with
    ⟨result, rfl, _, hestablished, hunmoved⟩ | ⟨_, _, hfails, _⟩
  · obtain ⟨data', hput, hcarries, hvalue, _⟩ := h.carries.put_result s.resultKey result
    have hapart : ∀ key, key ≠ "results" → data'.get [key] = data.get [key] :=
      fun key hne => Json.get_put_apart hput (.inl hne.symm)
    have hcomplete : machine.resume s.state s.task .null data [0, 0] (.ok (s.task.wrap result)) =
        machine.enter s.next data' := by
      rw [← s.task_resultPath] at hput
      rw [Machine.resume, s.direct.wrap, Machine.complete_next s.direct hput s.task_next]
    have hreport : Workflow.Reported s.task (.returned result) (.ok (s.task.wrap result)) :=
      .returned (by rw [s.direct.integration]; decide)
    have hlasts : Lasts py lambdaTimeout ⟨.running s.state data [0, 0], table, log₁⟩
        ⟨machine.enter s.next data', table', log₁ ++ [⟨s.state, data, calls, .returned result⟩]⟩ a :=
      attempt_lasts s.states_state (by rw [s.function_resource]; exact hattempt) hreport htakes hcomplete rfl
    have htotal : 8 * a + 29 = (7 * a + 29) + a := by ring
    refine ⟨data', table', _, htotal ▸ hexhausts.trans hlasts, ⟨?_, hcarries, ?_, fun _ => hestablished, ?_⟩⟩
    · exact h.order.of_get (hapart _ (by decide)) (hapart _ (by decide)) (hapart _ (by decide))
    · rintro s' rest rfl _
      exact ⟨hestablished, hunmoved s' List.mem_cons_self,
        fun s'' hs'' => hunmoved s'' (List.mem_cons_of_mem _ hs'')⟩
    · intro u hu
      by_cases hus : u.stage = s
      · obtain ⟨performed, hfits, rfl⟩ := fits_of_returned (forward_end hattempt)
        obtain ⟨d, hd, hfloat, _⟩ := hfits u (undo_eq_some.mpr hus)
        exact ⟨d, ⟨_, by rw [hus, hvalue], hd⟩, hfloat⟩
      · have hold : u.stage ∈ done := (List.mem_cons.mp hu).resolve_left hus
        exact (h.readable u hold).put hput
          (.inr ⟨rfl, .inl fun heq => hus (Stage.resultKey_injective heq.symm)⟩)
  · exact absurd hfails (not_fails s 0)

/-- Where the longest execution goes back. -/
structure Backwards (orderId : String) (input : Json) (todo : List Undo) (data : Json)
    (table : Table) : Prop where
  carries : Carries orderId input data
  error : ∃ fields, data.get ["error"] = some (.obj fields)
  established : Established orderId table
  readable : ∀ u ∈ todo, Readable data u

/-- A forward step that uses up its retries and is then given up. -/
theorem forward_givesUp {a : ℚ} {done : List Stage} (htakes : AttemptTakes lambdaTimeout s.task a)
    (h : Forwards py orderId input done (s :: todo) data table) (hdone : done ≠ [])
    {undos : List Undo} (hundos : ∀ u ∈ undos, u.stage ∈ done) (log : List Attempted) :
    ∃ data' log', Lasts py lambdaTimeout ⟨.running s.state data [3, 4], table, log⟩
        ⟨machine.enter s.onError data', table, log'⟩ (8 * a + 29) ∧
      Backwards orderId input undos data' table := by
  obtain ⟨log₁, hexhausts⟩ : ∃ log', Lasts py lambdaTimeout ⟨.running s.state data [3, 4], table, log⟩
      ⟨.running s.state data [0, 0], table, log'⟩ (7 * a + 29) := forward_exhausts htakes
  obtain ⟨data', hput, hcarries, herror, _⟩ :=
    h.carries.put_error (TaskError.output ⟨"Lambda.ServiceException", ""⟩)
  have hretry : s.task.retry = [⟨["SagaTransientError"], 2, 3, 2⟩, ⟨serviceErrors, 1, 4, 2⟩] := by
    cases s <;> rfl
  have hidx : (s.task.retry.findIdx? fun r =>
      catches r.errorEquals ⟨"Lambda.ServiceException", ""⟩) = some 1 := by
    rw [hretry]
    decide
  have hnext : machine.resume s.state s.task .null data [0, 0] (.error ⟨"Lambda.ServiceException", ""⟩) =
      machine.enter s.onError data' := by
    have hcaught : machine.fault s.state s.task data [0, 0] ⟨"Lambda.ServiceException", ""⟩ =
        machine.caught s.state s.task data ⟨"Lambda.ServiceException", ""⟩ := by
      simp only [Machine.fault, hidx]
      rfl
    rw [Machine.resume, hcaught, Machine.caught_all s.task_catchers, hput]
  have hpause : s.task.pause [0, 0] (.error ⟨"Lambda.ServiceException", ""⟩) = 0 := by
    simp only [Task.pause, hidx]
    rfl
  have hlost : Attempt (exec py) (function py s.task.resource data) table [] .lost table :=
    ⟨⟨_, .nil, trivial⟩, .nil⟩
  have hlasts : Lasts py lambdaTimeout ⟨.running s.state data [0, 0], table, log₁⟩
      ⟨machine.enter s.onError data', table, log₁ ++ [⟨s.state, data, [], .lost⟩]⟩ a :=
    attempt_lasts s.states_state hlost .lost htakes hnext hpause
  have htotal : 8 * a + 29 = (7 * a + 29) + a := by ring
  refine ⟨data', _, htotal ▸ hexhausts.trans hlasts, hcarries, ⟨_, herror⟩,
    h.established hdone, ?_⟩
  exact fun u hu => (h.readable u (hundos u hu)).put hput (.inl (by decide))

/-- A compensation that uses up its retries and then returns. -/
theorem undo_lasts {b : ℚ} {undos : List Undo} (htakes : AttemptTakes lambdaTimeout u.task b)
    (hwritable : Writable input) (h : Backwards orderId input (u :: undos) data table)
    (log : List Attempted) :
    ∃ data' table' log', Lasts py lambdaTimeout ⟨.running u.state data [5], table, log⟩
        ⟨machine.enter u.next data', table', log'⟩ (6 * b + 93) ∧
      Backwards orderId input undos data' table' := by
  have hretry : u.task.retry = [⟨["States.ALL"], 3, 5, 2⟩] := by cases u <;> rfl
  have hidx : (u.task.retry.findIdx? fun r => catches r.errorEquals ⟨"States.Timeout", ""⟩) = some 0 := by
    rw [hretry]
    decide
  obtain ⟨log₁, hexhausts⟩ : ∃ log', Lasts py lambdaTimeout ⟨.running u.state data [5], table, log⟩
      ⟨.running u.state data [0], table, log'⟩ ((5 : Nat) * b + Retrier.pauses _ 5) :=
    exhausts_lasts u.states_state htakes hidx (by rw [hretry]; rfl) rfl
  obtain ⟨calls, outcome, table', hattempt, hrun⟩ := exists_attempt py (u.handler data) table
  obtain ⟨d, hreads, hfloat⟩ := h.readable u List.mem_cons_self
  have hsupported : Supported orderId table' :=
    hattempt.effects.preserves (P := Supported orderId)
      (fun _ _ _ _ hs hexec => exec_keeps hexec orderId hs) h.established.supported
  rcases undo_attempt hattempt h.established.supported.named (idOf_of_forOrder h.carries.order) hreads
      hfloat h.established.filed h.established.supported.opened (fun hlost => absurd hlost hrun) with
    ⟨hlost, _⟩ | ⟨⟨result, rfl⟩, hfiled, _, _⟩
  · exact absurd hlost hrun
  · obtain ⟨hroom, _⟩ | ⟨_, data', hput, hcarries, herror, _⟩ := h.carries.put_compensation u.name result
    · exact absurd hwritable hroom
    · have hcomplete : machine.resume u.state u.task .null data [0] (.ok (u.task.wrap result)) =
          machine.enter u.next data' := by
        rw [← u.task_resultPath] at hput
        rw [Machine.resume, u.direct.wrap, Machine.complete_next u.direct hput u.task_next]
      have hreport : Workflow.Reported u.task (.returned result) (.ok (u.task.wrap result)) :=
        .returned (by rw [u.direct.integration]; decide)
      have hlasts : Lasts py lambdaTimeout ⟨.running u.state data [0], table, log₁⟩
          ⟨machine.enter u.next data', table', log₁ ++ [⟨u.state, data, calls, .returned result⟩]⟩ b :=
        attempt_lasts u.states_state (by rw [u.function_resource]; exact hattempt) hreport htakes hcomplete rfl
      have htotal : 6 * b + 93 = ((5 : Nat) * b + Retrier.pauses ⟨["States.ALL"], 3, 5, 2⟩ 5) + b := by
        simp only [Retrier.pauses, Retrier.pause]
        norm_num
        ring
      refine ⟨data', table', _, htotal ▸ hexhausts.trans hlasts, hcarries, ?_, ⟨hfiled, hsupported⟩, ?_⟩
      · rw [herror]
        exact h.error
      · exact fun u' hu' => (h.readable u' (List.mem_cons_of_mem _ hu')).put hput (.inl (by decide))

/-- The last bookkeeping, with all its retries. -/
theorem markFailed_lasts {a : ℚ} (htakes : AttemptTakes lambdaTimeout markFailedTask a)
    (h : Backwards orderId input [] data table) (log : List Attempted) :
    ∃ err table' log', Lasts py lambdaTimeout ⟨.running .markFailed data [4], table, log⟩
      ⟨.failed .sagaFailed err, table', log'⟩ (5 * a + 30) := by
  have hstate : machine.states .markFailed = .task markFailedTask := rfl
  have hidx : (markFailedTask.retry.findIdx? fun r => catches r.errorEquals ⟨"States.Timeout", ""⟩) =
      some 0 := by
    decide
  obtain ⟨log₁, hexhausts⟩ : ∃ log', Lasts py lambdaTimeout ⟨.running .markFailed data [4], table, log⟩
      ⟨.running .markFailed data [0], table, log'⟩ ((4 : Nat) * a + Retrier.pauses ⟨["States.ALL"], 2, 4, 2⟩ 4) :=
    exhausts_lasts hstate htakes hidx rfl rfl
  obtain ⟨calls, outcome, table', hattempt, hrun⟩ := exists_attempt py (markFailed data) table
  have hid := idOf_of_forOrder h.carries.order
  obtain ⟨order, horder⟩ := orderOf_of_idOf hid
  obtain ⟨fields, herror⟩ := h.error
  rw [Json.get_single] at herror
  obtain ⟨_, hset⟩ := setsStatus_attempt (markFailed_setsStatus horder herror) hattempt
    h.established.supported.named hid rfl h.established.filed
  obtain ⟨⟨result, rfl⟩, _⟩ := hset.resolve_left hrun
  obtain ⟨data', hput, _⟩ := h.carries.put_result "mark_failed" result
  have hlasts : Lasts py lambdaTimeout ⟨.running .markFailed data [0], table, log₁⟩
      ⟨machine.enter .sagaFailed data', table', log₁ ++ [⟨.markFailed, data, calls, .returned result⟩]⟩ a :=
    attempt_lasts hstate hattempt (.returned (by decide)) htakes
      (Machine.complete_next markFailed_direct hput rfl) rfl
  have htotal : 5 * a + 30 = ((4 : Nat) * a + Retrier.pauses ⟨["States.ALL"], 2, 4, 2⟩ 4) + a := by
    simp only [Retrier.pauses, Retrier.pause]
    norm_num
    ring
  exact ⟨_, table', _, htotal ▸ hexhausts.trans hlasts⟩

/-- An input for an accepted order, without any faults. -/
def plainInput (fields : List (String × Json)) : Json :=
  .obj [("order", .obj fields), ("flaky_steps", .obj [])]

theorem plainInput_order {fields : List (String × Json)} (h : Accepted py orderId fields) :
    FlakyOrder py orderId [] (plainInput fields) where
  order := ⟨fields, rfl, h⟩
  failAt := rfl
  steps := rfl
  positive s v hlookup := by cases hlookup

/-- The state data are seeded in no time. -/
theorem seed_lasts {fields : List (String × Json)} (h : Accepted py orderId fields) :
    ∃ data, Lasts py lambdaTimeout ((workflow py).init (plainInput fields) table)
        ⟨.running .createOrder data [3, 4], table, []⟩ 0 ∧
      Forwards py orderId (plainInput fields) [] plan.steps data table := by
  have horder := plainInput_order h
  have hput := Json.put_single "results" (.obj []) [("order", .obj fields), ("flaky_steps", .obj [])]
  refine ⟨_, fun elapsed => .single (.move seed_step rfl), ?_⟩
  have hapart : ∀ key, key ≠ "results" → (Json.obj (Fields.put "results" (.obj [])
      [("order", .obj fields), ("flaky_steps", .obj [])])).get [key] = (plainInput fields).get [key] :=
    fun key hne => Json.get_put_apart hput (.inl (Ne.symm hne))
  exact {
    order := horder.of_get (hapart _ (by decide)) (hapart _ (by decide)) (hapart _ (by decide))
    carries := {
      order := horder.forOrder.put hput (.inl (by decide))
      results := ⟨[], Json.get_put hput⟩
      compensation := writable_congr (hapart _ (by decide)) }
    counted := fun s rest heq hne => absurd (List.cons.inj heq).1.symm hne
    established := fun hne => absurd rfl hne
    readable := fun u hu => by cases hu }

/-- An execution that does everything, and all of it as late as it can. -/
theorem longest_lasts {fields : List (String × Json)} (h : Accepted py orderId fields) {a b : ℚ}
    (ha : ∀ t : Task StateName Function, t.timeoutSeconds = some 30 → AttemptTakes lambdaTimeout t a)
    (hb : ∀ t : Task StateName Function, t.timeoutSeconds = some 60 → AttemptTakes lambdaTimeout t b) :
    ∃ err table' log', Lasts py lambdaTimeout ((workflow py).init (plainInput fields) table)
      ⟨.failed .sagaFailed err, table', log'⟩ (37 * a + 18 * b + 425) := by
  have hstage : ∀ s : Stage, AttemptTakes lambdaTimeout s.task a := fun s => ha _ (by cases s <;> rfl)
  have hundo : ∀ u : Undo, AttemptTakes lambdaTimeout u.task b := fun u => hb _ (by cases u <;> rfl)
  have hwritable : Writable (plainInput fields) := by simp [Writable, plainInput, List.lookup_cons]
  obtain ⟨data₀, hseed, h₀⟩ : ∃ data, Lasts py lambdaTimeout ((workflow py).init (plainInput fields) table)
      ⟨.running .createOrder data [3, 4], table, []⟩ 0 ∧
        Forwards py orderId (plainInput fields) [] plan.steps data table := seed_lasts h
  -- Three forward steps succeed on their last attempt, and the fourth does not.
  obtain ⟨data₁, table₁, log₁, hcreate, h₁⟩ := forward_lasts (hstage .createOrder) (by decide) h₀ []
  obtain ⟨data₂, table₂, log₂, hcharge, h₂⟩ := forward_lasts (hstage .chargePayment) (by decide) h₁ log₁
  obtain ⟨data₃, table₃, log₃, hreserve, h₃⟩ :=
    forward_lasts (hstage .reserveInventory) (by decide) h₂ log₂
  obtain ⟨data₄, log₄, hship, h₄⟩ : ∃ data' log', _ ∧ Backwards orderId (plainInput fields) chain data' table₃ :=
    forward_givesUp (hstage .scheduleShipment) h₃ (List.cons_ne_nil _ _) (by decide) log₃
  -- All compensations succeed on their last attempt.
  obtain ⟨data₅, table₅, log₅, hrelease, h₅⟩ := undo_lasts (hundo .releaseInventory) hwritable h₄ log₄
  obtain ⟨data₆, table₆, log₆, hrefund, h₆⟩ := undo_lasts (hundo .refundPayment) hwritable h₅ log₅
  obtain ⟨data₇, table₇, log₇, hcancel, h₇⟩ := undo_lasts (hundo .cancelOrder) hwritable h₆ log₆
  obtain ⟨err, table₈, log₈, hmark⟩ := markFailed_lasts (ha markFailedTask rfl) h₇ log₇
  have htotal : 37 * a + 18 * b + 425 = 0 + (8 * a + 29) + (8 * a + 29) + (8 * a + 29) + (8 * a + 29) +
      (6 * b + 93) + (6 * b + 93) + (6 * b + 93) + (5 * a + 30) := by
    ring
  refine ⟨err, table₈, log₈, ?_⟩
  rw [htotal]
  exact (((((((hseed.trans hcreate).trans hcharge).trans hreserve).trans hship).trans hrelease).trans
    hrefund).trans hcancel).trans hmark

/-! ## Which function timeouts are short enough -/

theorem clocked_stuck {c : Clocked} (h : Transition.Stuck (Step py fun _ => True) c.config) :
    Transition.Stuck (ClockedStep py lambdaTimeout) c :=
  fun _ hstep => h _ hstep.step

theorem neverCut_of_le (hL : 0 ≤ lambdaTimeout) (hfits : lambdaTimeout ≤ 95 / 11) :
    NeverCut py lambdaTimeout := by
  intro input table run
  have hle : ∀ n, (run.state n).elapsed ≤ machine.timeoutSeconds := fun n =>
    elapsed_le hL hfits (run.reachable n)
  have htakes : ∀ t, ∃ d, AttemptTakes lambdaTimeout t d :=
    fun t => ⟨0, le_refl 0, hL, fun seconds _ => Nat.cast_nonneg seconds⟩
  obtain ⟨n, hstuck⟩ := Workflow.halts machine_descends machine_budget (Workflow.unclocked htakes run)
  exact ⟨⟨n, clocked_stuck hstuck, hle n⟩, fun n hcut => absurd (hle (n + 1)) (not_le.mpr hcut.2.1)⟩

/-- With longer attempts the longest execution does not end in time. -/
theorem le_of_neverCut {fields : List (String × Json)} (h : Accepted py orderId fields)
    (hL : 0 ≤ lambdaTimeout) (hnever : NeverCut py lambdaTimeout) : lambdaTimeout ≤ 95 / 11 := by
  have ha : ∀ t : Task StateName Function, t.timeoutSeconds = some 30 →
      AttemptTakes lambdaTimeout t (min lambdaTimeout 30) := by
    intro t ht
    refine ⟨le_min hL (by norm_num), min_le_left _ _, fun seconds hseconds => ?_⟩
    cases hseconds.symm.trans ht
    exact min_le_right _ _
  have hb : ∀ t : Task StateName Function, t.timeoutSeconds = some 60 →
      AttemptTakes lambdaTimeout t (min lambdaTimeout 60) := by
    intro t ht
    refine ⟨le_min hL (by norm_num), min_le_left _ _, fun seconds hseconds => ?_⟩
    cases hseconds.symm.trans ht
    exact min_le_right _ _
  obtain ⟨err, table, log, hlasts⟩ : ∃ err table' log', Lasts py lambdaTimeout
      ((workflow py).init (plainInput fields) fun _ => none) ⟨.failed .sagaFailed err, table', log'⟩
      (37 * min lambdaTimeout 30 + 18 * min lambdaTimeout 60 + 425) := longest_lasts h ha hb
  obtain ⟨run, m, hm⟩ := Transition.MaximalRun.exists_through (hlasts 0)
  obtain ⟨⟨n, hstuck, hle⟩, _⟩ := hnever _ _ run
  have hended : Transition.Stuck (ClockedStep py lambdaTimeout) (run.state m) := by
    rw [hm]
    exact clocked_stuck (Workflow.stuck_of_ended nofun)
  rw [run.stuck_unique hstuck hended, hm] at hle
  have htotal : 37 * min lambdaTimeout 30 + 18 * min lambdaTimeout 60 + 425 ≤ (900 : ℚ) := by
    simpa [machine] using hle
  rcases min_cases lambdaTimeout 30 with ⟨h30, _⟩ | ⟨h30, hlt⟩
  · rcases min_cases lambdaTimeout 60 with ⟨h60, _⟩ | ⟨h60, hlt⟩
    · linarith
    · linarith
  · have hnonneg : 0 ≤ min lambdaTimeout 60 := le_min hL (by norm_num)
    linarith

/-- Every execution ends within the timeout of the state machine, whatever fails in it, if
    and only if the functions' own timeout is at most eight seconds and seven elevenths. The
    longest executions use up the retries of the ASL, with attempts that are lost and
    reported as `SagaTransientError`. -/
theorem neverCut_iff (hadmitted : 3 ≤ lambdaTimeout ∧ lambdaTimeout ≤ 120)
    (haccepted : ∃ orderId fields, Accepted py orderId fields) :
    NeverCut py lambdaTimeout ↔ lambdaTimeout ≤ 95 / 11 := by
  obtain ⟨orderId, fields, haccepted⟩ := haccepted
  have hL : 0 ≤ lambdaTimeout := by linarith [hadmitted.1]
  exact ⟨le_of_neverCut haccepted hL, neverCut_of_le hL⟩

/-- The order of the sample input. -/
theorem sampleOrder_accepted : ∃ fields, Accepted .sample "ord-1001" fields := by
  obtain ⟨fields, _, haccepted⟩ := (flakyInput_order .createOrder).order
  exact ⟨fields, haccepted⟩

theorem neverCut_iff_default : NeverCut .sample 15 ↔ (15 : ℚ) ≤ 95 / 11 :=
  neverCut_iff (by norm_num) ⟨_, sampleOrder_accepted⟩

/-- With the default timeout of the functions, an execution can be cut. -/
theorem neverCut_counterexample :
    ¬ ∀ (py : Python) (lambdaTimeout : ℚ), 3 ≤ lambdaTimeout ∧ lambdaTimeout ≤ 120 →
      NeverCut py lambdaTimeout := by
  intro h
  obtain ⟨fields, haccepted⟩ := sampleOrder_accepted
  have hle : (15 : ℚ) ≤ 95 / 11 :=
    le_of_neverCut haccepted (by norm_num) (h .sample 15 (by norm_num))
  norm_num at hle

end OrderSaga
