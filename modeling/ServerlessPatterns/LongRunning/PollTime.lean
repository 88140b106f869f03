-- SUMMARY: For which configurations the poll budget and the sign-off window fit into the timeout of the state machine.
import ServerlessPatterns.Library.Backoff
import ServerlessPatterns.Library.Configuration
import ServerlessPatterns.Library.Timing
import ServerlessPatterns.LongRunning.PollLoop

/-!
# The time of the poll loop

The waits of an execution are the only time that is counted here. Attempts take none
and are not given up. The variables of the loop are validated one by one, but the
timeout of the machine limits their sum.
-/

namespace LongRunning

open Asl Program Configuration

/-- The Terraform variables of the poll loop, within their validations. -/
structure Variables where
  pollIntervalBaseSeconds : ℚ
  pollIntervalMaxSeconds : ℚ
  maxPollAttempts : ℚ
  jobStateTtlDays : ℚ
  baseAdmitted : 1 ≤ pollIntervalBaseSeconds ∧ pollIntervalBaseSeconds ≤ 3600
  maxAdmitted : 1 ≤ pollIntervalMaxSeconds ∧ pollIntervalMaxSeconds ≤ 86400
  attemptsAdmitted : 1 ≤ maxPollAttempts ∧ maxPollAttempts ≤ 1000
  ttlAdmitted : 0 ≤ jobStateTtlDays ∧ jobStateTtlDays ≤ 3650

namespace Variables

/-- The environment of the functions. -/
def env (vars : Variables) (tostring : ℚ → String) : Env where
  pollIntervalBaseSeconds := some (tostring vars.pollIntervalBaseSeconds)
  pollIntervalMaxSeconds := some (tostring vars.pollIntervalMaxSeconds)
  maxPollAttempts := some (tostring vars.maxPollAttempts)
  jobStateTtlDays := some (tostring vars.jobStateTtlDays)

/-- The base as the functions read it. -/
def base (vars : Variables) : Nat := readBack 30 vars.pollIntervalBaseSeconds

/-- The maximum as the functions read it. -/
def cap (vars : Variables) : Nat := readBack 900 vars.pollIntervalMaxSeconds

/-- The poll budget as the functions read it. -/
def budget (vars : Variables) : Nat := readBack 20 vars.maxPollAttempts

end Variables

abbrev Clocked := Workflow.Clocked StateName Op Ans World

/-- Attempts at tasks take no time. -/
def Instant (_ : Task StateName Function) (d : ℚ) : Prop := d = 0

abbrev ClockedStep (py : Python) (env : Env) : Clocked → Clocked → Prop :=
  Workflow.ClockedStep (workflow py env .current) Faultless Instant

abbrev ClockedRun (py : Python) (env : Env) (input : Json) (w : World) : Type :=
  Transition.MaximalRun (ClockedStep py env) ⟨(workflow py env .current).init input w, 0⟩

/-- How long the sign-off may take. -/
def signoffWindow : Nat := requestSignoffTask.timeoutSeconds.getD 0

/-- The execution comes to a state with so much time left that a sign-off window still
    fits in before the timeout of the machine. -/
def ArrivesInTime (s : StateName) (state : Nat → Clocked) : Prop :=
  ∃ i, Arrived s (state i).config ∧ (∀ j < i, ¬ Arrived s (state j).config) ∧
    (state i).elapsed + signoffWindow ≤ machine.timeoutSeconds

/-- A job that is still running after its last poll ends in time as one whose budget is
    exhausted, and a job that succeeds on its last poll comes in time to its sign-off. -/
def BudgetFits (py : Python) (env : Env) : Prop :=
  ∀ (fields : List (String × Json)) (n : Int) (w : World), JobInput fields n false →
    ∀ run : ClockedRun py env (.obj fields) w,
      (env.maxAttempts py < max 1 n → ArrivesInTime .jobTimedOut run.state) ∧
      (max 1 n = env.maxAttempts py → ArrivesInTime .requestSignoff run.state)

variable {py : Python} {env : Env} {k : String} {n : Int} {fail : Bool}
  {fields : List (String × Json)} {w : World} {c c' : Clocked}

theorem instant_takes (t : Task StateName Function) : ∃ d, Instant t d := ⟨0, rfl⟩

/-! ## A round of the loop -/

theorem LoopAt.elapsed {j : Nat} (hbase : 1 ≤ env.base py) (hcap : 1 ≤ env.cap py)
    (h : LoopAt py env k n fail j c.config) (hstep : ClockedStep py env c c') :
    c'.elapsed = c.elapsed + (min (env.cap py) (env.base py * 2 ^ j) : Int) := by
  obtain ⟨data, left, seconds, hat, hseconds, hwait⟩ := h.waits hbase hcap
  have hwaiting : machine.waiting (.running .waitForJob data left) = ((seconds : Int) : ℚ) := by
    simp [Machine.waiting, machine, hseconds]
  rw [hstep.elapsed_move hat fun t htask => (by cases htask)]
  change c.elapsed + machine.waiting _ = _
  rw [hwaiting, hwait]

theorem PolledAt.at {j : Nat} {c : Config} (h : PolledAt py env k n fail j c) : At .evaluateJob c := by
  cases h with
  | intro => exact ⟨_, _, rfl⟩

theorem At.ne {s s' : StateName} {c c' : Config} (h : At s c) (h' : At s' c') (hne : s ≠ s') :
    c'.execution ≠ c.execution := by
  obtain ⟨data, left, hat⟩ := h
  obtain ⟨data', left', hat'⟩ := h'
  rw [hat, hat']
  intro heq
  injection heq with heq
  exact hne heq.symm

section

variable {input : Json}

/-- A poll and the evaluation after it take no time. -/
theorem elapsed_round (hbase : 1 ≤ env.base py) (hcap : 1 ≤ env.cap py)
    (hM : 1 ≤ env.maxAttempts py) (run : ClockedRun py env input w) {i j : Nat}
    (hj : j < pollsOf n fail (env.maxAttempts py))
    (h : LoopAt py env k n fail j (run.state i).config) :
    (run.state (i + 3)).elapsed =
      (run.state i).elapsed + (min (env.cap py) (env.base py * 2 ^ j) : Int) := by
  obtain ⟨hpoll, hpolled, hstep⟩ :=
    loop_round hbase hcap hM (Workflow.unclocked instant_takes run) hj h
  have hwaits : At .waitForJob (run.state i).config := by
    obtain ⟨data, left, _, hat, _⟩ := h.waits hbase hcap
    exact ⟨data, left, hat⟩
  have hevaluate : At .evaluateJob (run.state (i + 2)).config := hpolled.at
  have hfirst : (run.state (i + 1)).elapsed =
      (run.state i).elapsed + (min (env.cap py) (env.base py * 2 ^ j) : Int) := by
    apply h.elapsed hbase hcap
    apply run.step_of_ne
    intro heq
    exact hwaits.ne hpoll (by decide) (congrArg (fun c => c.config.execution) heq)
  have hsecond : (run.state (i + 2)).elapsed = (run.state (i + 1)).elapsed := by
    have hclocked : ClockedStep py env (run.state (i + 1)) (run.state (i + 2)) := by
      apply run.step_of_ne
      intro heq
      exact hpoll.ne hevaluate (by decide) (congrArg (fun c => c.config.execution) heq)
    obtain ⟨data, left, hat⟩ := hpoll
    obtain ⟨data', left', hat'⟩ := hevaluate
    obtain ⟨d, rfl, helapsed⟩ := hclocked.elapsed_attempt hat
      (rfl : machine.states .pollJob = .task pollJobTask) (fun context => Option.some_ne_none data)
      fun left' hsame => by cases hat'.symm.trans hsame
    rw [helapsed, add_zero]
  have hthird : (run.state (i + 3)).elapsed = (run.state (i + 2)).elapsed := by
    have hclocked := Workflow.clockedStep_of_step instant_takes run hstep
    obtain ⟨data, left, hat⟩ := hevaluate
    rw [hclocked.elapsed_move hat fun t htask => by cases htask]
    exact add_zero _
  rw [hthird, hsecond, hfirst]

end

/-! ## The time in the loop -/

theorem submit_instant (run : ClockedRun py env (.obj fields) w) {n : Int} {fail : Bool}
    (hinput : JobInput fields n fail) : (run.state 1).elapsed = 0 := by
  obtain ⟨k, hbegin⟩ := loop_begins hinput (Workflow.unclocked instant_takes run)
  have hstart : (run.state 0).config.execution =
      .running .submitJob (.obj fields) submitJobTask.freshRetries := by
    rw [run.start]
    rfl
  generalize hc : (Workflow.unclocked instant_takes run).state 1 = c at hbegin
  cases hbegin with
  | @intro _ _ left _ _ =>
      have hnext : (run.state 1).config.execution = .running .waitForJob _ left :=
        congrArg Workflow.Config.execution hc
      have hclocked : ClockedStep py env (run.state 0) (run.state 1) := by
        apply run.step_of_ne
        intro heq
        have hsame := congrArg (fun c => c.config.execution) heq
        rw [hstart, hnext] at hsame
        cases hsame
      obtain ⟨d, rfl, helapsed⟩ := hclocked.elapsed_attempt hstart
        (rfl : machine.states .submitJob = .task submitJobTask)
        (fun context => Option.some_ne_none (Json.obj fields))
        fun left' hsame => by cases hnext.symm.trans hsame
      rw [helapsed, run.start]
      exact add_zero _

/-- The execution has not left the loop yet. -/
def InLoop (c : Config) : Prop :=
  ∃ s ∈ [StateName.submitJob, .waitForJob, .pollJob, .evaluateJob], At s c

theorem InLoop.not_arrived {c : Config} {exit : StateName} (h : InLoop c)
    (hexit : exit = .jobTimedOut ∨ exit = .requestSignoff) : ¬ Arrived exit c := by
  obtain ⟨s, hs, data, left, hat⟩ := h
  rintro ⟨data', harrived⟩
  rw [hat] at harrived
  rcases hexit with rfl | rfl
  · cases harrived
  · cases harrived
    simp at hs

/-- A run whose loop leads to a certain state: when it is there, and how long it has
    waited by then. -/
structure Leaves (base cap polls : Nat) (exit : StateName) (state : Nat → Clocked) : Prop where
  arrived : Arrived exit (state (3 * polls + 1)).config
  before : ∀ i < 3 * polls + 1, InLoop (state i).config
  elapsed : (state (3 * polls + 1)).elapsed = Backoff.total base cap polls

/-- The first arrival is at the end of the loop. -/
theorem Leaves.inTime {base cap polls : Nat} {exit : StateName} {state : Nat → Clocked}
    (h : Leaves base cap polls exit state) (hexit : exit = .jobTimedOut ∨ exit = .requestSignoff) :
    ArrivesInTime exit state ↔ Backoff.total base cap polls + 86400 ≤ 604800 := by
  have hbefore : ∀ i < 3 * polls + 1, ¬ Arrived exit (state i).config :=
    fun i hi => (h.before i hi).not_arrived hexit
  have htime : (state (3 * polls + 1)).elapsed + signoffWindow ≤ machine.timeoutSeconds ↔
      Backoff.total base cap polls + 86400 ≤ 604800 := by
    rw [h.elapsed]
    change (Backoff.total base cap polls : ℚ) + (86400 : Nat) ≤ (604800 : Nat) ↔ _
    norm_cast
  constructor
  · rintro ⟨i, harrived, hfirst, hintime⟩
    rcases Nat.lt_trichotomy i (3 * polls + 1) with hlt | rfl | hgt
    · exact absurd harrived (hbefore i hlt)
    · exact htime.mp hintime
    · exact absurd h.arrived (hfirst _ hgt)
  · exact fun hle => ⟨_, h.arrived, hbefore, htime.mpr hle⟩

theorem loop_leaves {base cap : Nat} (hbase : env.base py = base) (hcap : env.cap py = cap)
    (hbasePos : 0 < base) (hcapPos : 0 < cap) (hM : 1 ≤ env.maxAttempts py)
    (hinput : JobInput fields n fail) (run : ClockedRun py env (.obj fields) w) :
    Leaves base cap (pollsOf n fail (env.maxAttempts py)) (exitOf n fail (env.maxAttempts py))
      run.state := by
  have hbase' : 1 ≤ env.base py := by omega
  have hcap' : 1 ≤ env.cap py := by omega
  obtain ⟨k, hrounds⟩ :=
    loop_reaches hbase' hcap' hM hinput (Workflow.unclocked instant_takes run)
  have hround := fun j hj => loop_round hbase' hcap' hM (Workflow.unclocked instant_takes run) hj
    (hrounds j hj)
  have helapsed : ∀ j ≤ pollsOf n fail (env.maxAttempts py),
      (run.state (3 * j + 1)).elapsed = Backoff.total base cap j := by
    intro j
    induction j with
    | zero =>
        intro _
        rw [submit_instant run hinput]
        simp [Backoff.total]
    | succ j ih =>
        intro hj
        have hwait : ((min (env.cap py) (env.base py * 2 ^ j) : Int) : ℚ) = Backoff.delay base cap j := by
          rw [hbase, hcap, Backoff.delay]
          push_cast
          rfl
        have htotal : Backoff.total base cap (j + 1) =
            Backoff.total base cap j + Backoff.delay base cap j := Finset.sum_range_succ ..
        have hnext := elapsed_round hbase' hcap' hM run hj (hrounds j hj)
        rw [ih (by omega), hwait] at hnext
        rw [htotal, Nat.cast_add]
        exact hnext
  have hbefore : ∀ i < 3 * pollsOf n fail (env.maxAttempts py) + 1, InLoop (run.state i).config := by
    intro i hi
    cases i with
    | zero =>
        refine ⟨.submitJob, by simp, .obj fields, submitJobTask.freshRetries, ?_⟩
        rw [run.start]
        rfl
    | succ i =>
        -- Three steps are a round of the loop.
        have hj : i / 3 < pollsOf n fail (env.maxAttempts py) := by omega
        have hsplit : i + 1 = 3 * (i / 3) + 1 + i % 3 := by omega
        have hthree : i % 3 < 3 := Nat.mod_lt _ (by decide)
        obtain ⟨hpoll, hpolled, _⟩ := hround _ hj
        rw [hsplit]
        interval_cases i % 3
        · obtain ⟨data, left, _, hat, _⟩ := (hrounds _ hj).waits hbase' hcap'
          exact ⟨.waitForJob, by simp, data, left, hat⟩
        · exact ⟨.pollJob, by simp, hpoll⟩
        · exact ⟨.evaluateJob, by simp, hpolled.at⟩
  obtain ⟨last, hlast⟩ : ∃ last, pollsOf n fail (env.maxAttempts py) = last + 1 :=
    ⟨_, (Nat.succ_pred_eq_of_pos (pollsOf_pos hM)).symm⟩
  have hlt : last < pollsOf n fail (env.maxAttempts py) := by omega
  obtain ⟨_, hpolled, hstep⟩ := hround last hlt
  have harrived := (evaluated_step hM hlt hpolled hstep).2.2 hlast.symm
  refine ⟨?_, hbefore, helapsed _ le_rfl⟩
  rw [hlast]
  exact harrived

/-! ## The configurations whose budget fits -/

/-- A job with a constant id that succeeds on a certain poll. -/
theorem jobInput_after (n : Int) : JobInput [("job_id", .str "report-987"),
    ("succeed_after_attempts", .num (.int n))] n false where
  succeedAfter := rfl
  failJob := rfl
  jobId v hlookup _ := ⟨"report-987", (Option.some.inj hlookup).symm⟩
  payload v hlookup := by cases hlookup

namespace Variables

variable {tostring : ℚ → String} {vars : Variables}

theorem env_base (hnumerals : Numerals py tostring) : (vars.env tostring).base py = vars.base :=
  hnumerals.readBack vars.baseAdmitted.1

theorem env_cap (hnumerals : Numerals py tostring) : (vars.env tostring).cap py = vars.cap :=
  hnumerals.readBack vars.maxAdmitted.1

theorem env_maxAttempts (hnumerals : Numerals py tostring) :
    (vars.env tostring).maxAttempts py = vars.budget :=
  hnumerals.readBack vars.attemptsAdmitted.1

theorem base_pos : 0 < vars.base := readBack_pos (by decide) vars.baseAdmitted.1

theorem cap_pos : 0 < vars.cap := readBack_pos (by decide) vars.maxAdmitted.1

theorem budget_pos : 0 < vars.budget := readBack_pos (by decide) vars.attemptsAdmitted.1

end Variables

variable {tostring : ℚ → String} {vars : Variables}

/-- A job that uses up the budget leaves the loop after as many polls, and at a state
    that depends on its last poll. -/
theorem leaves_after_budget (hnumerals : Numerals py tostring) (hn : vars.budget ≤ max 1 n)
    (hinput : JobInput fields n false) (run : ClockedRun py (vars.env tostring) (.obj fields) w) :
    Leaves vars.base vars.cap vars.budget
      (if max 1 n ≤ vars.budget then .requestSignoff else .jobTimedOut) run.state := by
  have hpos : 0 < vars.budget := Variables.budget_pos
  have hM : 1 ≤ (vars.env tostring).maxAttempts py := by
    rw [Variables.env_maxAttempts hnumerals]
    exact_mod_cast hpos
  have hleaves := loop_leaves (Variables.env_base hnumerals) (Variables.env_cap hnumerals)
    Variables.base_pos Variables.cap_pos hM hinput run
  rw [Variables.env_maxAttempts hnumerals] at hleaves
  have hpolls : pollsOf n false vars.budget = vars.budget := by
    simp only [pollsOf, Bool.false_eq_true, if_false]
    omega
  rw [hpolls] at hleaves
  exact hleaves

theorem budgetFits_iff_total (hnumerals : Numerals py tostring) :
    BudgetFits py (vars.env tostring) ↔
      Backoff.total vars.base vars.cap vars.budget + 86400 ≤ 604800 := by
  constructor
  · intro hfits
    have hinput := jobInput_after ((vars.budget : Int) + 1)
    obtain ⟨run⟩ := Transition.MaximalRun.nonempty (ClockedStep py (vars.env tostring))
      ⟨(workflow py (vars.env tostring) .current).init (.obj _) emptyWorld, 0⟩
    have hleaves := leaves_after_budget hnumerals (by omega) hinput run
    rw [if_neg (by omega)] at hleaves
    apply (hleaves.inTime (.inl rfl)).mp
    apply (hfits _ _ _ hinput run).1
    rw [Variables.env_maxAttempts hnumerals]
    omega
  · intro hle fields n w hinput run
    rw [Variables.env_maxAttempts hnumerals]
    refine ⟨fun hmore => ?_, fun hlast => ?_⟩
    · have hleaves := leaves_after_budget hnumerals hmore.le hinput run
      rw [if_neg (by omega)] at hleaves
      exact (hleaves.inTime (.inl rfl)).mpr hle
    · have hleaves := leaves_after_budget hnumerals hlast.ge hinput run
      rw [if_pos hlast.le] at hleaves
      exact (hleaves.inTime (.inr rfl)).mpr hle

/-- When the reads of the jobs are strongly consistent, the poll budget and the sign-off
    window fit into the timeout of the machine if and only if the waits leave a day of its
    week: the base is doubled up to the maximum, and the maximum is kept for the polls that
    are left. -/
theorem budgetFits_iff (hnumerals : Numerals py tostring) :
    BudgetFits py (vars.env tostring) ↔
      vars.base * (2 ^ min vars.budget (Backoff.doublings vars.base vars.cap) - 1) +
          (vars.budget - min vars.budget (Backoff.doublings vars.base vars.cap)) * vars.cap +
        86400 ≤ 604800 := by
  rw [budgetFits_iff_total hnumerals, Backoff.total_eq Variables.base_pos]

/-- The defaults of all variables. -/
def defaults : Variables where
  pollIntervalBaseSeconds := (30 : Nat)
  pollIntervalMaxSeconds := (900 : Nat)
  maxPollAttempts := (20 : Nat)
  jobStateTtlDays := (30 : Nat)
  baseAdmitted := by norm_num
  maxAdmitted := by norm_num
  attemptsAdmitted := by norm_num
  ttlAdmitted := by norm_num

theorem budgetFits_iff_defaults : BudgetFits decimal (defaults.env sampleTostring) := by
  apply (budgetFits_iff numerals_decimal).mpr
  have hbase : defaults.base = 30 := readBack_natCast
  have hcap : defaults.cap = 900 := readBack_natCast
  have hbudget : defaults.budget = 20 := readBack_natCast
  rw [hbase, hcap, hbudget]
  decide +kernel

/-- A poll an hour at first, later one a day, for a thousand polls. -/
def dailyPolls : Variables where
  pollIntervalBaseSeconds := (3600 : Nat)
  pollIntervalMaxSeconds := (86400 : Nat)
  maxPollAttempts := (1000 : Nat)
  jobStateTtlDays := (30 : Nat)
  baseAdmitted := by norm_num
  maxAdmitted := by norm_num
  attemptsAdmitted := by norm_num
  ttlAdmitted := by norm_num

theorem budgetFits_counterexample : ¬ BudgetFits decimal (dailyPolls.env sampleTostring) := by
  have hbase : dailyPolls.base = 3600 := readBack_natCast
  have hcap : dailyPolls.cap = 86400 := readBack_natCast
  have hbudget : dailyPolls.budget = 1000 := readBack_natCast
  rw [budgetFits_iff_total numerals_decimal, hbase, hcap, hbudget]
  decide +kernel

end LongRunning
