-- SUMMARY: The wait and poll loop of an execution without faults: how many polls it takes, how long each wait is, and where it leads.
import ServerlessPatterns.LongRunning.Lifecycle

/-!
# The wait and poll loop

Without faults the counter in the table, the attempt number in the state data and the
round of the loop are the same number. This settles when the loop is left and how long
each wait is, as long as reads are strongly consistent. A read that misses the new record
ends the loop.
-/

namespace LongRunning

open Asl Program

/-- An input whose job id and payload can be stored, with the effective values of the
    two fields that drive the simulation. -/
structure JobInput (fields : List (String × Json)) (n : Int) (fail : Bool) : Prop where
  succeedAfter : (fields.lookup "succeed_after_attempts").getD (.num (.int 3)) = .num (.int n)
  failJob : ((fields.lookup "fail_job").getD (.bool false)).truthy = fail
  jobId : ∀ v, fields.lookup "job_id" = some v → v.truthy = true → ∃ k, v = .str k
  payload : ∀ v, fields.lookup "payload" = some v → v.hasFloat = false

/-- How many polls an execution makes. -/
def pollsOf (n : Int) (fail : Bool) (maxAttempts : Int) : Nat :=
  if fail then 1 else (min (max 1 n) maxAttempts).toNat

/-- Where the loop leads. -/
def exitOf (n : Int) (fail : Bool) (maxAttempts : Int) : StateName :=
  if fail then .jobFailed else if max 1 n ≤ maxAttempts then .requestSignoff else .jobTimedOut

/-- The execution is at a task. -/
def At (s : StateName) (c : Config) : Prop := ∃ data left, c.execution = .running s data left

/-- The execution waits for this long. -/
def Waits (seconds : Int) (c : Config) : Prop :=
  ∃ data left s, c.execution = .running .waitForJob data left ∧
    secondsAt ["job", "next_poll_seconds"] data = some s ∧ (s : Int) = seconds

/-- The execution has arrived at a state, or failed there when it is a `Fail` state. -/
def Arrived (s : StateName) (c : Config) : Prop := ∃ data, c.execution = machine.enter s data

/-- No attempt is given up. -/
def Faultless (inv : Attempted) : Prop := inv.outcome.isLost = false

variable {py : Python} {env : Env} {k : String} {n : Int} {fail : Bool} {r : JobRecord}
  {fields : List (String × Json)} {w w' : World} {log : List Attempted}
  {calls : List (Program.Event Op Ans)} {outcome : Outcome Exc Json} {c : Config}

/-! ## The submission -/

theorem JobInput.simulation (h : JobInput fields n fail) :
    simulation py (.obj fields) = .ok (max 1 n, fail) := by
  have hclamp : (if n < 1 then 1 else n) = max 1 n := by split_ifs <;> omega
  simp only [LongRunning.simulation, Python.getD_obj, h.succeedAfter, Bind.bind, Except.bind,
    Python.int, Pure.pure, Except.pure, h.failJob, hclamp]

theorem createJob_returns {reads : Reads} (hinput : JobInput fields n fail) (hne : k ≠ "")
    (h : Attempt (exec py reads) (createJob py env (.obj fields) (.str k)) w calls outcome w')
    (hlost : outcome ≠ .lost) :
    outcome = .returned (jobReport (.str k) statusRunning 0 false 0 (backoffSeconds py env 0)) ∧
      Shows k (.fresh (max 1 n) fail) w'.table := by
  have hsimulation : LongRunning.simulation py ((Json.obj fields).orElse (.obj [])) =
      .ok (max 1 n, fail) := by
    rw [Json.orElse_obj]
    exact hinput.simulation
  have hpayload : Python.get ((Json.obj fields).orElse (.obj [])) "payload" =
      .ok ((fields.lookup "payload").getD .null) := by
    rw [Json.orElse_obj, Python.get_obj]
  have hfloat : ((fields.lookup "payload").getD .null).hasFloat = false := by
    cases hlookup : fields.lookup "payload" with
    | none => rfl
    | some v => exact hinput.payload v hlookup
  have hmeets : (createJob py env (.obj fields) (.str k)).Meets (fun _ => True) Sendable
      (fun _ => False) fun _ => True := createJob_meets hne hsimulation hpayload hfloat
  have hnever := (hmeets.calls h.calls (h.effects.answered fun _ _ _ _ => sendable_of_exec)).2.2
  cases houtcome : outcome with
  | lost => exact absurd houtcome hlost
  | raised e => exact (hnever e houtcome).elim
  | returned report =>
      cases createJob_attempt (rfl : Json.str k = .str k) h with
      | unwritten hnot => exact absurd houtcome (hnot report)
      | @created _ jobId _ _ _ _ _ hid hsim hcreate hreturned =>
          subst hid
          cases hsimulation.symm.trans hsim
          obtain ⟨rfl, rfl⟩ := hreturned report houtcome
          refine ⟨rfl, ?_⟩
          rcases exec_create hcreate with ⟨e, herror, _⟩ | ⟨k', item, hk, _, _, rfl, hitem⟩
          · cases herror
          · cases hk
            exact ⟨item, Table.write_self, hitem⟩

/-- The submission of a proper input returns, and leaves a new job. -/
theorem submit_returns {reads : Reads} (hinput : JobInput fields n fail)
    (h : Attempt (exec py reads) (submitJob py env (.obj fields)) w calls outcome w')
    (hlost : outcome ≠ .lost) :
    ∃ k, k ≠ "" ∧
      outcome = .returned (jobReport (.str k) statusRunning 0 false 0 (backoffSeconds py env 0)) ∧
      Shows k (.fresh (max 1 n) fail) w'.table := by
  rw [submitJob_eq, Json.orElse_obj, Python.get_obj, ofExcept_ok, ret_bind] at h
  split_ifs at h with htruthy
  · obtain ⟨k, hne, hgiven⟩ := Json.given_str hinput.jobId htruthy
    rw [hgiven] at h
    exact ⟨k, hne, createJob_returns hinput hne h hlost⟩
  · obtain ⟨hcalls, heffects⟩ := h
    rcases calls_call.mp hcalls with ⟨_, hstopped⟩ | ⟨id, rest, rfl, hrest⟩
    · exact absurd hstopped hlost
    · obtain ⟨w₁, hid, hafter⟩ := effects_cons.mp heffects
      have hne : id ≠ "" := sendable_of_exec hid
      obtain ⟨rfl, _⟩ := hid
      exact ⟨id, hne, createJob_returns hinput hne ⟨hrest, hafter⟩ hlost⟩

/-! ## A round of the loop -/

/-- Round `j` of the loop begins. -/
inductive LoopAt (py : Python) (env : Env) (k : String) (n : Int) (fail : Bool) (j : Nat) :
    Config → Prop where
  | intro {w : World} {log : List Attempted} {left : List Nat} {r : JobRecord} {p : Int} (hne : k ≠ "")
      (hshows : Shows k r w.table) (hn : r.succeedAfter = max 1 n) (hfail : r.failJob = fail)
      (hattempts : r.attempts = j) (hcount : completedPolls log = j) :
      LoopAt py env k n fail j ⟨.running .waitForJob
        (carrying (jobReport (.str k) statusRunning j false p (backoffSeconds py env j))) left, w, log⟩

theorem backoffSeconds_nat {j : Nat} :
    backoffSeconds py env j = min (env.cap py) (env.base py * 2 ^ j) := by
  simp [backoffSeconds]

theorem backoffSeconds_pos (hbase : 1 ≤ env.base py) (hcap : 1 ≤ env.cap py) {j : Nat} :
    0 ≤ backoffSeconds py env j := by
  rw [backoffSeconds_nat]
  have hpow : (0 : Int) ≤ 2 ^ j := by positivity
  have hprod : 0 ≤ env.base py * 2 ^ j := Int.mul_nonneg (by omega) hpow
  omega

/-- The seconds that a report asks to wait for. -/
theorem secondsAt_report {jobId status : Json} {attempt progress next : Int} {exhausted : Bool}
    (h : 0 ≤ next) :
    secondsAt ["job", "next_poll_seconds"]
      (carrying (jobReport jobId status attempt exhausted progress next)) = some next.toNat := by
  have hread : (carrying (jobReport jobId status attempt exhausted progress next)).get
      ["job", "next_poll_seconds"] = some (.num (.int next)) := rfl
  simp only [secondsAt, hread, if_pos h]

theorem LoopAt.waits (hbase : 1 ≤ env.base py) (hcap : 1 ≤ env.cap py) {j : Nat}
    (h : LoopAt py env k n fail j c) : Waits (min (env.cap py) (env.base py * 2 ^ j)) c := by
  cases h with
  | intro =>
      have hnonneg : 0 ≤ backoffSeconds py env j := backoffSeconds_pos hbase hcap
      refine ⟨_, _, _, rfl, secondsAt_report hnonneg, ?_⟩
      rw [Int.toNat_of_nonneg hnonneg, backoffSeconds_nat]

/-- The poll of round `j` has returned. -/
inductive PolledAt (py : Python) (env : Env) (k : String) (n : Int) (fail : Bool) (j : Nat) :
    Config → Prop where
  | intro {w : World} {log : List Attempted} {left : List Nat} {r : JobRecord} {p : Int} (hne : k ≠ "")
      (hshows : Shows k r w.table) (hn : r.succeedAfter = max 1 n) (hfail : r.failJob = fail)
      (hattempts : r.attempts = j) (hcount : completedPolls log = j) :
      PolledAt py env k n fail j ⟨.running .evaluateJob
        (carrying (pollReport py env k (max 1 n) fail j p)) left, w, log⟩

abbrev FaultlessStep (py : Python) (env : Env) : Config → Config → Prop :=
  Step py env .current Faultless

/-- The poll of a round without faults returns, unless the job has succeeded before. -/
theorem poll_step {j : Nat} (hj : (j + 1 : Int) ≤ max 1 n) {r : JobRecord} {p next : Int}
    {left : List Nat} (hne : k ≠ "") (hshows : Shows k r w.table) (hn : r.succeedAfter = max 1 n)
    (hfail : r.failJob = fail) (hattempts : r.attempts = j) (hcount : completedPolls log = j)
    {c' : Config}
    (hstep : FaultlessStep py env
      ⟨.running .pollJob (carrying (jobReport (.str k) statusRunning j false p next)) left, w, log⟩ c') :
    PolledAt py env k n fail (j + 1) c' := by
  obtain ⟨calls, outcome, w', execution, hattempt, hallowed, rfl, hend⟩ :=
    job_step (rfl : machine.states .pollJob = .task (jobTask .pollJob .evaluateJob)) hstep
  have hlost : outcome ≠ .lost := by
    rintro rfl
    cases hallowed
  have hconsistent : Consistent k (max 1 n) fail (Reads.current.visible w) := by
    intro t hmem
    rw [List.mem_singleton.mp hmem]
    exact .inr ⟨r, hshows, hn, hfail⟩
  obtain ⟨progress, hprogress⟩ : ∃ p, progressAt py (max 1 n) fail (r.attempts + 1) = .ok p :=
    progressAt_ok (by omega) (by omega)
  cases (poll_attempt jobIdOf_carrying hne hshows hconsistent hattempt : Polled py env ..) with
  | uncounted hnot =>
      rcases hnot with hstopped | ⟨_, t, hmem, hnone⟩
      · exact absurd hstopped hlost
      · obtain ⟨item, hitem, _⟩ := hshows
        rw [List.mem_singleton.mp hmem, hitem] at hnone
        cases hnone
  | counted hitem hnot =>
      rcases hnot with hstopped | ⟨e, _, herror⟩
      · exact absurd hstopped hlost
      · rw [hprogress] at herror
        cases herror
  | recorded hp hitem hitem' hdone =>
      obtain rfl := hdone.resolve_left hlost
      rcases hend with ⟨report, hreturned, rfl⟩ | ⟨hnot, _⟩
      · cases hreturned
        have hnumber : r.attempts + 1 = ((j + 1 : Nat) : Int) := by
          rw [hattempts]
          push_cast
          rfl
        rw [hnumber]
        refine .intro hne ⟨_, Table.write_self, hitem'⟩ hn hfail hnumber ?_
        rw [completedPolls_append rfl rfl, hcount]
      · exact absurd rfl (hnot _)

/-! ## The rounds -/

theorem pollsOf_le (h : 1 ≤ env.maxAttempts py) {j : Nat} (hj : j < pollsOf n fail (env.maxAttempts py)) :
    (j + 1 : Int) ≤ max 1 n ∧ (fail = true → j = 0) ∧ (fail = false → (j + 1 : Int) ≤ env.maxAttempts py) := by
  unfold pollsOf at hj
  cases fail with
  | true =>
      simp only [if_true] at hj
      exact ⟨by omega, fun _ => by omega, nofun⟩
  | false =>
      simp only [Bool.false_eq_true, if_false] at hj
      exact ⟨by omega, nofun, fun _ => by omega⟩

/-- After its last poll the loop is left, and after any other it goes on. -/
theorem evaluated_step (hM : 1 ≤ env.maxAttempts py) {j : Nat}
    (hj : j < pollsOf n fail (env.maxAttempts py)) {c' : Config} (h : PolledAt py env k n fail (j + 1) c)
    (hstep : FaultlessStep py env c c') :
    completedPolls c'.log = j + 1 ∧
      (j + 1 < pollsOf n fail (env.maxAttempts py) → LoopAt py env k n fail (j + 1) c') ∧
      (j + 1 = pollsOf n fail (env.maxAttempts py) →
        Arrived (exitOf n fail (env.maxAttempts py)) c') := by
  obtain ⟨hle, hfirst, hbudget⟩ := pollsOf_le hM hj
  cases h with
  | intro hne hshows hn hfail hattempts hcount =>
      rcases evaluate_step hstep with ⟨next, hchoose, rfl⟩ | ⟨hnone, _⟩
      · rw [choose_poll, Option.some.injEq] at hchoose
        refine ⟨hcount, fun hmore => ?_, fun hlast => ?_⟩
        · obtain ⟨hle', hfirst', hbudget'⟩ := pollsOf_le hM hmore
          have hsound : fail = false := Bool.eq_false_iff.mpr fun h => absurd (hfirst' h) (by omega)
          have hbefore : ¬ max 1 n ≤ ((j + 1 : Nat) : Int) := by omega
          have hwithin : ¬ env.maxAttempts py ≤ ((j + 1 : Nat) : Int) := by
            have := hbudget' hsound
            omega
          rw [if_neg (by simp [hsound]), if_neg hbefore, if_neg hwithin] at hchoose
          subst hchoose
          rw [pollReport_running hsound hbefore hwithin]
          exact .intro hne hshows hn hfail hattempts hcount
        · have hnext : next = exitOf n fail (env.maxAttempts py) := by
            rw [← hchoose]
            unfold exitOf pollsOf at *
            cases fail with
            | true => rfl
            | false =>
                simp only [Bool.false_eq_true, if_false] at hlast ⊢
                by_cases hwithin : max 1 n ≤ env.maxAttempts py
                · rw [if_pos hwithin, if_pos (by omega)]
                · rw [if_neg hwithin, if_neg (by omega), if_pos (by omega)]
          rw [hnext]
          exact ⟨_, rfl⟩
      · rw [choose_poll] at hnone
        cases hnone

/-- What a run without faults does on its way through the loop. -/
structure LoopEnds (polls : Nat) (exit : StateName) (base cap : Int) (state : Nat → Config) : Prop where
  /-- Before its `j + 1`-st poll the execution waits for this long. -/
  waiting : ∀ j < polls, Waits (min cap (base * 2 ^ j)) (state (3 * j + 1))
  polling : ∀ j < polls, At .pollJob (state (3 * j + 2))
  evaluating : ∀ j < polls, At .evaluateJob (state (3 * j + 3))
  leaves : Arrived exit (state (3 * polls + 1))
  completed : completedPolls (state (3 * polls + 1)).log = polls

section

variable {input : Json} {w₀ : World}

/-- A task can always be tried once more. -/
theorem step_of_task (run : Transition.MaximalRun (FaultlessStep py env)
      ((workflow py env .current).init input w₀)) {i : Nat} {s : StateName}
    {t : Task StateName Function} {data : Json} {left : List Nat}
    (hstate : machine.states s = .task t) (hat : (run.state i).execution = .running s data left) :
    FaultlessStep py env (run.state i) (run.state (i + 1)) := by
  apply (run.next i).resolve_right
  rintro ⟨hstuck, _⟩
  generalize run.state i = c at hat hstuck
  obtain ⟨execution, world, log⟩ := c
  cases hat
  have hgo : ∀ s event (p : Handler Json) w, Faultless
      ⟨s, event, (p.run (answer py) Workflow.Fate.smooth.cut w).1,
        (p.run (answer py) Workflow.Fate.smooth.cut w).2.1⟩ := by
    intro s event p w
    cases houtcome : (p.run (answer py) none w).2.1 with
    | lost => exact absurd houtcome (run_none_ne_lost p w)
    | _ => simp [Faultless, Workflow.Fate.smooth, houtcome, Outcome.isLost]
  obtain ⟨c', hstep⟩ : ∃ c', FaultlessStep py env ⟨.running s data left, world, log⟩ c' :=
    Workflow.exists_step answer_exec .smooth hgo hstate data left world log
  exact hstuck c' hstep

/-- A state that only routes is always left. -/
theorem step_of_route (run : Transition.MaximalRun (FaultlessStep py env)
      ((workflow py env .current).init input w₀)) {i : Nat} {s next : StateName} {data : Json}
    {left : List Nat} (hroute : (machine.states s).route data = some (some next))
    (hat : (run.state i).execution = .running s data left) :
    FaultlessStep py env (run.state i) (run.state (i + 1)) := by
  apply (run.next i).resolve_right
  rintro ⟨hstuck, _⟩
  generalize run.state i = c at hat hstuck
  obtain ⟨execution, world, log⟩ := c
  cases hat
  exact hstuck _ (.route hroute)

/-- What was polled is evaluated. -/
theorem step_of_polled (run : Transition.MaximalRun (FaultlessStep py env)
      ((workflow py env .current).init input w₀)) {i j : Nat}
    (h : PolledAt py env k n fail j (run.state i)) :
    FaultlessStep py env (run.state i) (run.state (i + 1)) := by
  generalize hc : run.state i = c at h
  cases h with
  | @intro w log left r p =>
      have hroute : (machine.states .evaluateJob).route
          (carrying (pollReport py env k (max 1 n) fail j p)) = some (some _) :=
        congrArg some choose_poll
      rw [← hc]
      exact step_of_route run hroute (by rw [hc])

/-- The first round begins after the submission. -/
theorem loop_begins (hinput : JobInput fields n fail)
    (run : Transition.MaximalRun (FaultlessStep py env)
      ((workflow py env .current).init (.obj fields) w₀)) :
    ∃ k, LoopAt py env k n fail 0 (run.state 1) := by
  have hstart : (run.state 0).execution = .running .submitJob (.obj fields) submitJobTask.freshRetries := by
    rw [run.start]
    rfl
  have hstep := step_of_task run (rfl : machine.states .submitJob = .task submitJobTask) hstart
  rw [run.start] at hstep
  obtain ⟨calls, outcome, w', execution, hattempt, hallowed, hc', hend⟩ :=
    job_step (rfl : machine.states .submitJob = .task (jobTask .submitJob .waitForJob)) hstep
  have hlost : outcome ≠ .lost := by
    rintro rfl
    cases hallowed
  obtain ⟨k, hne, rfl, hshows⟩ := submit_returns hinput hattempt hlost
  rcases hend with ⟨report, hreturned, rfl⟩ | ⟨hnot, _⟩
  · cases hreturned
    rw [hc']
    exact ⟨k, .intro hne hshows rfl rfl rfl (completedPolls_append_other (by simp))⟩
  · exact absurd rfl (hnot _)

/-- A round: the wait, the poll and the choice. -/
theorem loop_round (hbase : 1 ≤ env.base py) (hcap : 1 ≤ env.cap py) (hM : 1 ≤ env.maxAttempts py)
    (run : Transition.MaximalRun (FaultlessStep py env) ((workflow py env .current).init input w₀))
    {i j : Nat} (hj : j < pollsOf n fail (env.maxAttempts py))
    (h : LoopAt py env k n fail j (run.state i)) :
    At .pollJob (run.state (i + 1)) ∧ PolledAt py env k n fail (j + 1) (run.state (i + 2)) ∧
      FaultlessStep py env (run.state (i + 2)) (run.state (i + 3)) := by
  obtain ⟨hle, hfirst, _⟩ := pollsOf_le hM hj
  have hwaits := h.waits hbase hcap
  generalize hc : run.state i = c at h hwaits
  obtain ⟨data, left, seconds, hrunning, hseconds, _⟩ := hwaits
  have hroute : (machine.states .waitForJob).route data = some (some .pollJob) := by
    simp only [machine, State.route, hseconds, Option.map_some]
  have hwait := step_of_route run hroute (hc ▸ hrunning)
  rw [hc] at hwait
  cases h with
  | @intro w log left r p hne hshows hn hfail hattempts hcount =>
      cases hrunning
      rcases wait_step hwait with ⟨_, _, hpoll⟩ | ⟨hnone, _⟩
      · have hat : (run.state (i + 1)).execution = .running .pollJob
            (carrying (jobReport (.str k) statusRunning j false p (backoffSeconds py env j)))
            pollJobTask.freshRetries := by rw [hpoll]
        have hstep := step_of_task run (rfl : machine.states .pollJob = .task pollJobTask) hat
        rw [hpoll] at hstep
        have hpolled : PolledAt py env k n fail (j + 1) (run.state (i + 2)) :=
          poll_step hle hne hshows hn hfail hattempts hcount hstep
        exact ⟨⟨_, _, hat⟩, hpolled, step_of_polled run hpolled⟩
      · rw [hseconds] at hnone
        cases hnone

/-- A run without faults comes to the beginning of every round. -/
theorem loop_reaches (hbase : 1 ≤ env.base py) (hcap : 1 ≤ env.cap py) (hM : 1 ≤ env.maxAttempts py)
    (hinput : JobInput fields n fail)
    (run : Transition.MaximalRun (FaultlessStep py env)
      ((workflow py env .current).init (.obj fields) w₀)) :
    ∃ k, ∀ j < pollsOf n fail (env.maxAttempts py), LoopAt py env k n fail j (run.state (3 * j + 1)) := by
  obtain ⟨k, hbegin⟩ := loop_begins hinput run
  refine ⟨k, fun j => ?_⟩
  induction j with
  | zero => exact fun _ => hbegin
  | succ j ih =>
      intro hj
      have hbefore : j < pollsOf n fail (env.maxAttempts py) := by omega
      obtain ⟨_, hpolled, hstep⟩ := loop_round hbase hcap hM run hbefore (ih hbefore)
      exact (evaluated_step hM hbefore hpolled hstep).2.1 hj

/-- There is at least one poll. -/
theorem pollsOf_pos (hM : 1 ≤ env.maxAttempts py) : 0 < pollsOf n fail (env.maxAttempts py) := by
  unfold pollsOf
  cases fail with
  | true => exact Nat.one_pos
  | false =>
      simp only [Bool.false_eq_true, if_false]
      omega

/-- Every run without faults goes through the loop as often as it should, waits as long
    as it should before each poll, and leaves it to where it should. Reads are strongly
    consistent here, which `JobStore.get` does not ask for. -/
theorem loop_ends (hbase : 1 ≤ env.base py) (hcap : 1 ≤ env.cap py) (hM : 1 ≤ env.maxAttempts py)
    (hinput : JobInput fields n fail)
    (run : Transition.MaximalRun (FaultlessStep py env)
      ((workflow py env .current).init (.obj fields) w₀)) :
    LoopEnds (pollsOf n fail (env.maxAttempts py)) (exitOf n fail (env.maxAttempts py)) (env.base py)
      (env.cap py) run.state := by
  obtain ⟨k, hrounds⟩ := loop_reaches hbase hcap hM hinput run
  have hround := fun j hj => loop_round hbase hcap hM run hj (hrounds j hj)
  obtain ⟨last, hlast⟩ : ∃ last, pollsOf n fail (env.maxAttempts py) = last + 1 :=
    ⟨_, (Nat.succ_pred_eq_of_pos (pollsOf_pos hM)).symm⟩
  have hbefore : last < pollsOf n fail (env.maxAttempts py) := by omega
  obtain ⟨_, hpolled, hstep⟩ := hround last hbefore
  obtain ⟨hcompleted, _, hleaves⟩ := evaluated_step hM hbefore hpolled hstep
  refine ⟨fun j hj => (hrounds j hj).waits hbase hcap, fun j hj => (hround j hj).1,
    fun j hj => ?_, ?_, ?_⟩
  · obtain ⟨_, hpolled, _⟩ := hround j hj
    have hnumber : run.state (3 * j + 1 + 2) = run.state (3 * j + 3) := rfl
    rw [hnumber] at hpolled
    generalize run.state (3 * j + 3) = c at hpolled ⊢
    cases hpolled with
    | intro => exact ⟨_, _, rfl⟩
  · rw [hlast]
    exact hleaves hlast.symm
  · rw [hlast]
    exact hcompleted

end

/-! ## Three polls -/

/-- Nothing fails, and the gate is resumed at once. -/
def promptSignoff : Workflow.Fate where
  context := .obj [("Task", .obj [("Token", .str "token-1")])]
  cut := none
  err := ⟨"", ""⟩
  callback := .ok (.obj [("approved_by", .str "ops")])

/-- A job that succeeds on its third poll. -/
def threePolls : Nat → Config :=
  (workflow .sample sampleEnv .current).trajectory (answer .sample) (fun _ => promptSignoff)
    ((workflow .sample sampleEnv .current).init (sampleInput 3) emptyWorld)

theorem threePolls_ends :
    (workflow .sample sampleEnv .current).advance (answer .sample) promptSignoff (threePolls 12) =
      none :=
  Option.isNone_iff_eq_none.mp (by decide +kernel)

theorem threePolls_faultless :
    ∀ i < 12, ∀ inv ∈ (threePolls (i + 1)).log, inv.outcome.isLost = false := by
  decide +kernel

theorem sampleInput_proper : JobInput [("job_id", .str "report-987"),
    ("succeed_after_attempts", .num (.int 3)), ("fail_job", .bool false)] 3 false where
  succeedAfter := rfl
  failJob := rfl
  jobId v hlookup _ := ⟨"report-987", (Option.some.inj hlookup).symm⟩
  payload v hlookup := by cases hlookup

theorem loop_ends_threePolls : LoopEnds 3 .requestSignoff 30 900 threePolls :=
  loop_ends (by decide) (by decide) (by decide) sampleInput_proper
    (Workflow.scheduled (answer .sample) answer_exec (fun _ => promptSignoff)
      ((workflow .sample sampleEnv .current).init (sampleInput 3) emptyWorld) 12 threePolls_faultless
      threePolls_ends)

/-! ## A stale read -/

/-- Each read is answered from the table as it was at first. -/
def staleAnswer (py : Python) : (op : Op) → World → Ans op × World
  | .get jobId, w => (JobStore.get jobId (w.history.getLast (List.cons_ne_nil _ _)), w)
  | op, w => answer py op w

theorem staleAnswer_exec {py : Python} (op : Op) (w : World) :
    exec py .eventual op w (staleAnswer py op w).1 (staleAnswer py op w).2 := by
  cases op with
  | get jobId => exact ⟨rfl, _, List.getLast_mem (List.cons_ne_nil _ _), rfl⟩
  | _ => exact answer_exec _ w

/-- The first poll does not find the job that was just submitted. -/
def stalePoll : Nat → Config :=
  (workflow .sample sampleEnv .eventual).trajectory (staleAnswer .sample) (fun _ => promptSignoff)
    ((workflow .sample sampleEnv .eventual).init (sampleInput 3) emptyWorld)

theorem stalePoll_ends :
    (workflow .sample sampleEnv .eventual).advance (staleAnswer .sample) promptSignoff (stalePoll 3) =
      none :=
  Option.isNone_iff_eq_none.mp (by decide +kernel)

theorem stalePoll_faultless :
    ∀ i < 3, ∀ inv ∈ (stalePoll (i + 1)).log, inv.outcome.isLost = false := by
  decide +kernel

/-- With eventually consistent reads, which are those of the source, the loop may end
    before its first poll is completed. -/
theorem loop_ends_counterexample :
    ¬ ∀ run : Transition.MaximalRun (Step .sample sampleEnv .eventual Faultless)
        ((workflow .sample sampleEnv .eventual).init (sampleInput 3) emptyWorld),
      LoopEnds 3 .requestSignoff 30 900 run.state := by
  intro hclaim
  have hends := hclaim (Workflow.scheduled (staleAnswer .sample) staleAnswer_exec
    (fun _ => promptSignoff) ((workflow .sample sampleEnv .eventual).init (sampleInput 3) emptyWorld) 3
    stalePoll_faultless stalePoll_ends)
  obtain ⟨data, left, hrunning⟩ := hends.evaluating 0 (by decide)
  have hfailed : (stalePoll 3).execution = .failed .jobFailed ⟨"JobFailed",
      "The long-running job failed during submission, polling, or processing."⟩ := by
    rfl
  cases hfailed.symm.trans hrunning

end LongRunning
