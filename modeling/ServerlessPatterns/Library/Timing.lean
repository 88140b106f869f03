-- SUMMARY: Workflows with a clock: how long attempts, retries and waits take, and how much longer an execution can go on.
import Mathlib.Tactic.Linarith
import Mathlib.Tactic.Positivity
import Mathlib.Tactic.Ring
import ServerlessPatterns.Library.Workflow

/-!
# Workflows with a clock

Time passes in attempts, in the pauses before retries and in `Wait` states. How long an
attempt may take is a parameter. The execution is not cut short here, so that the time
it would take can be compared with the one it is given.
-/

open Asl

namespace Asl

variable {σ ρ : Type}

/-- The pause before the next retry when this many are left: the interval, times the
    backoff rate for each retry before it. -/
def Retrier.pause (r : Retrier) (left : Nat) : ℚ :=
  r.intervalSeconds * r.backoffRate ^ (r.maxAttempts - left)

/-- The pauses of all retries that are left. -/
def Retrier.pauses (r : Retrier) : Nat → ℚ
  | 0 => 0
  | left + 1 => r.pause (left + 1) + r.pauses left

/-- The pauses of all retries that are left of some retriers. -/
def pausesLeft : List Retrier → List Nat → ℚ
  | r :: retriers, n :: left => r.pauses n + pausesLeft retriers left
  | _, _ => 0

/-- The longest that a task can go on with these retries left, when no attempt takes
    longer than `most`. -/
def Task.longest (t : Task σ ρ) (most : ℚ) (left : List Nat) : ℚ :=
  (left.sum + 1) * most + pausesLeft t.retry left

/-- The pause after an attempt, if there is a retry. -/
def Task.pause (t : Task σ ρ) (left : List Nat) : Except TaskError Json → ℚ
  | .ok _ => 0
  | .error err =>
    match t.retry.findIdx? fun r => catches r.errorEquals err with
    | none => 0
    | some i => if 0 < left.getD i 0 then t.retry[i]?.elim 0 fun r => r.pause (left.getD i 0) else 0

/-- What the execution waits for before it leaves its state by itself. -/
def Machine.waiting (m : Machine σ ρ) : Execution σ → ℚ
  | .running s data _ =>
    match m.states s with
    | .wait path _ => (secondsAt path data).getD 0
    | _ => 0
  | _ => 0

theorem Retrier.pauses_nonneg {r : Retrier} (h : 0 ≤ r.backoffRate) (n : Nat) : 0 ≤ r.pauses n := by
  induction n with
  | zero => exact le_refl 0
  | succ n ih =>
      have hpause : 0 ≤ r.pause (n + 1) := by
        unfold Retrier.pause
        positivity
      exact add_nonneg hpause ih

theorem pausesLeft_nonneg {retriers : List Retrier} (h : ∀ r ∈ retriers, 0 ≤ r.backoffRate)
    (left : List Nat) : 0 ≤ pausesLeft retriers left := by
  induction retriers generalizing left with
  | nil => exact le_refl 0
  | cons r retriers ih =>
      cases left with
      | nil => exact le_refl 0
      | cons n left =>
          exact add_nonneg (r.pauses_nonneg (h r List.mem_cons_self) n)
            (ih (fun r' hr' => h r' (List.mem_cons_of_mem _ hr')) left)

/-- A retry uses up its own pause. -/
theorem pausesLeft_modify {retriers : List Retrier} {left : List Nat} {i : Nat} {r : Retrier}
    (hr : retriers[i]? = some r) (hleft : 0 < left.getD i 0) :
    r.pause (left.getD i 0) + pausesLeft retriers (left.modify i (· - 1)) = pausesLeft retriers left := by
  induction retriers generalizing left i with
  | nil => cases hr
  | cons r' retriers ih =>
      cases left with
      | nil => simp at hleft
      | cons n left =>
          cases i with
          | zero =>
              obtain rfl : r' = r := by simpa using hr
              obtain ⟨n, rfl⟩ : ∃ k, n = k + 1 := Nat.exists_eq_succ_of_ne_zero hleft.ne'
              rw [List.getD_cons_zero, List.modify_zero_cons, Nat.add_sub_cancel]
              simp only [pausesLeft, Retrier.pauses]
              ring
          | succ i =>
              rw [List.getD_cons_succ] at hleft
              have hrest := ih (by simpa using hr) hleft
              rw [List.getD_cons_succ, List.modify_succ_cons]
              simp only [pausesLeft]
              linarith

/-- An error is followed by a retry and its pause, or by the catchers at once. -/
theorem Machine.fault_pause (m : Machine σ ρ) (s : σ) (t : Task σ ρ) (data : Json)
    (left : List Nat) (err : TaskError) :
    (∃ i r, t.retry[i]? = some r ∧ 0 < left.getD i 0 ∧
      t.pause left (.error err) = r.pause (left.getD i 0) ∧
      m.fault s t data left err = .running s data (left.modify i (· - 1))) ∨
    (t.pause left (.error err) = 0 ∧ m.fault s t data left err = m.caught s t data err) := by
  simp only [Task.pause, Machine.fault]
  cases hidx : t.retry.findIdx? fun r => catches r.errorEquals err with
  | none => exact .inr ⟨rfl, rfl⟩
  | some i =>
      obtain ⟨hlt, _⟩ := List.findIdx?_eq_some_iff_getElem.mp hidx
      have hget : t.retry[i]? = some t.retry[i] := List.getElem?_eq_getElem hlt
      by_cases hleft : 0 < left.getD i 0
      · exact .inl ⟨i, _, hget, hleft, by simp only [if_pos hleft, hget, Option.elim_some],
          if_pos hleft⟩
      · exact .inr ⟨if_neg hleft, if_neg hleft⟩

end Asl

namespace Workflow

variable {σ ρ Op W : Type} {Ans : Op → Type}

/-- A configuration, and the time since the start of the execution. -/
structure Clocked (σ Op : Type) (Ans : Op → Type) (W : Type) where
  config : Config σ Op Ans W
  elapsed : ℚ

/-- The steps of a workflow with the time they take. `takes t d`: an attempt at the task
    may take the time `d`. -/
inductive ClockedStep (wf : Workflow σ ρ Op Ans W) (allowed : Invocation σ Op Ans → Prop)
    (takes : Task σ ρ → ℚ → Prop) : Clocked σ Op Ans W → Clocked σ Op Ans W → Prop where
  | attempt {s t context data left world log event calls outcome world' report elapsed d}
      (hstate : wf.machine.states s = .task t)
      (hevent : t.event context data = some event)
      (hattempt : Program.Attempt wf.exec (wf.handler t.resource event) world calls outcome world')
      (hallowed : allowed ⟨s, event, calls, outcome⟩)
      (hreport : Reported t outcome report)
      (htakes : takes t d) :
      ClockedStep wf allowed takes ⟨⟨.running s data left, world, log⟩, elapsed⟩
        ⟨⟨wf.machine.resume s t context data left report, world',
          log ++ [⟨s, event, calls, outcome⟩]⟩, elapsed + (d + t.pause left report)⟩
  | move {c c' : Config σ Op Ans W} {elapsed} (hstep : Step wf allowed c c') (hlog : c'.log = c.log) :
      ClockedStep wf allowed takes ⟨c, elapsed⟩ ⟨c', elapsed + wf.machine.waiting c.execution⟩

variable {wf : Workflow σ ρ Op Ans W} {allowed : Invocation σ Op Ans → Prop}
  {takes : Task σ ρ → ℚ → Prop}

theorem ClockedStep.step {c c' : Clocked σ Op Ans W} (h : ClockedStep wf allowed takes c c') :
    Step wf allowed c.config c'.config := by
  cases h with
  | attempt hstate hevent hattempt hallowed hreport _ =>
      exact .attempt hstate hevent hattempt hallowed hreport
  | move hstep _ => exact hstep

/-- Every step takes some time, when attempts can. -/
theorem exists_clockedStep (htakes : ∀ t, ∃ d, takes t d) {c c' : Config σ Op Ans W} (elapsed : ℚ)
    (h : Step wf allowed c c') : ∃ c'', ClockedStep wf allowed takes ⟨c, elapsed⟩ c'' := by
  cases h with
  | @attempt _ t _ _ _ _ _ _ _ _ _ _ hstate hevent hattempt hallowed hreport =>
      obtain ⟨d, hd⟩ := htakes t
      exact ⟨_, .attempt hstate hevent hattempt hallowed hreport hd⟩
  | pass hstate hput => exact ⟨_, .move (.pass hstate hput) rfl⟩
  | passError hstate hput => exact ⟨_, .move (.passError hstate hput) rfl⟩
  | route hroute => exact ⟨_, .move (.route hroute) rfl⟩
  | routeError hroute => exact ⟨_, .move (.routeError hroute) rfl⟩
  | eventError hstate hevent => exact ⟨_, .move (.eventError hstate hevent) rfl⟩

/-- A run with the clock left out. -/
def unclocked (htakes : ∀ t, ∃ d, takes t d) {c : Clocked σ Op Ans W}
    (run : Transition.MaximalRun (ClockedStep wf allowed takes) c) :
    Transition.MaximalRun (Step wf allowed) c.config where
  state i := (run.state i).config
  start := by rw [run.start]
  next i := by
    rcases run.next i with hstep | ⟨hstuck, heq⟩
    · exact .inl hstep.step
    · refine .inr ⟨fun c' hstep => ?_, by rw [heq]⟩
      obtain ⟨c'', hclocked⟩ := exists_clockedStep htakes (run.state i).elapsed hstep
      exact hstuck c'' hclocked

/-- A run goes on while its workflow can. -/
theorem clockedStep_of_step (htakes : ∀ t, ∃ d, takes t d) {c : Clocked σ Op Ans W}
    (run : Transition.MaximalRun (ClockedStep wf allowed takes) c) {i : Nat} {c' : Config σ Op Ans W}
    (h : Step wf allowed (run.state i).config c') :
    ClockedStep wf allowed takes (run.state i) (run.state (i + 1)) := by
  apply (run.next i).resolve_right
  rintro ⟨hstuck, _⟩
  obtain ⟨c'', hclocked⟩ := exists_clockedStep htakes (run.state i).elapsed h
  exact hstuck c'' hclocked

/-- Outside of tasks a step takes as long as the execution waits. -/
theorem ClockedStep.elapsed_move {c c' : Clocked σ Op Ans W} {s : σ} {data : Json} {left : List Nat}
    (h : ClockedStep wf allowed takes c c') (hat : c.config.execution = .running s data left)
    (hstate : ∀ t, wf.machine.states s ≠ .task t) :
    c'.elapsed = c.elapsed + wf.machine.waiting (.running s data left) := by
  cases h with
  | attempt htask =>
      cases hat
      exact absurd htask (hstate _)
  | move hstep _ =>
      dsimp only at hat
      rw [← hat]

/-- An attempt that leads out of its state takes its own time only. -/
theorem ClockedStep.elapsed_attempt {c c' : Clocked σ Op Ans W} {s : σ} {t : Task σ ρ} {data : Json}
    {left : List Nat} (h : ClockedStep wf allowed takes c c')
    (hat : c.config.execution = .running s data left) (hstate : wf.machine.states s = .task t)
    (hevent : ∀ context, t.event context data ≠ none)
    (hleaves : ∀ left', c'.config.execution ≠ .running s data left') :
    ∃ d, takes t d ∧ c'.elapsed = c.elapsed + d := by
  cases h with
  | @attempt _ _ _ _ _ _ _ _ _ _ _ report _ d htask _ _ _ _ htakes =>
      cases hat
      cases hstate.symm.trans htask
      refine ⟨d, htakes, ?_⟩
      have hpause : t.pause left report = 0 := by
        cases report with
        | ok result => rfl
        | error err =>
            rcases wf.machine.fault_pause s t data left err with ⟨i, r, _, _, _, hretry⟩ | ⟨hzero, _⟩
            · exact absurd hretry (hleaves _)
            · exact hzero
      rw [hpause, add_zero]
  | @move c c' _ hstep hlog =>
      obtain ⟨execution, world, log⟩ := c
      cases hat
      obtain ⟨context, ⟨hnone, _⟩ | ⟨event, calls, outcome, world', report, _, _, _, _, rfl⟩⟩ :=
        hstep.task hstate
      · exact absurd hnone (hevent context)
      · simp at hlog

/-! ## Bounds -/

/-- No execution that enters `s` goes on for longer than `longest s`, when no attempt at a
    task `t` takes longer than `most t`. -/
structure Bounded (m : Machine σ ρ) (most : Task σ ρ → ℚ) (longest : σ → ℚ) : Prop where
  nonneg : ∀ s, 0 ≤ longest s
  pass : ∀ s result path next, m.states s = .pass result path next → longest next ≤ longest s
  route : ∀ s s' data left, (m.states s).route data = some (some s') →
    m.waiting (.running s data left) + longest s' ≤ longest s
  attempt : ∀ s t, m.states s = .task t → 0 ≤ most t
  rates : ∀ s t, m.states s = .task t → ∀ r ∈ t.retry, 0 ≤ r.backoffRate
  task : ∀ s t, m.states s = .task t → t.longest (most t) t.freshRetries ≤ longest s
  next : ∀ s t, m.states s = .task t → ∀ s' ∈ t.next,
    t.longest (most t) t.freshRetries + longest s' ≤ longest s
  catcher : ∀ s t, m.states s = .task t → ∀ c ∈ t.catchers,
    t.longest (most t) t.freshRetries + longest c.next ≤ longest s

/-- How much longer an execution can go on. -/
def timeLeft (m : Machine σ ρ) (most : Task σ ρ → ℚ) (longest : σ → ℚ) : Execution σ → ℚ
  | .running s _ left =>
    match m.states s with
    | .task t => t.longest (most t) left + (longest s - t.longest (most t) t.freshRetries)
    | _ => longest s
  | _ => 0

section

variable {m : Machine σ ρ} {most : Task σ ρ → ℚ} {longest : σ → ℚ} {s : σ} {t : Task σ ρ}
  {left : List Nat}

@[simp] theorem timeLeft_succeeded {data : Json} :
    timeLeft m most longest (.succeeded s data) = 0 := rfl

@[simp] theorem timeLeft_failed {err : TaskError} : timeLeft m most longest (.failed s err) = 0 := rfl

@[simp] theorem timeLeft_runtimeError : timeLeft m most longest (.runtimeError s) = 0 := rfl

theorem Bounded.enter (h : Bounded m most longest) (s : σ) (data : Json) :
    timeLeft m most longest (m.enter s data) ≤ longest s := by
  unfold Machine.enter
  cases hs : m.states s with
  | task t =>
      simp only [timeLeft, hs]
      linarith
  | succeed => exact h.nonneg s
  | fail error cause => exact h.nonneg s
  | _ => simp only [timeLeft, hs, le_refl]

/-- At least one more attempt is accounted for. -/
theorem Bounded.most_le (h : Bounded m most longest) (hstate : m.states s = .task t) :
    most t ≤ t.longest (most t) left := by
  have hpauses := pausesLeft_nonneg (h.rates s t hstate) left
  have hmost := h.attempt s t hstate
  have hsum : 0 ≤ (left.sum : ℚ) * most t := by positivity
  unfold Task.longest
  linarith

/-- A retry is accounted for by what it uses up. -/
theorem Bounded.retry_le (h : Bounded m most longest) (hstate : m.states s = .task t) {i : Nat}
    {r : Retrier} (hr : t.retry[i]? = some r) (hleft : 0 < left.getD i 0) :
    most t + r.pause (left.getD i 0) + t.longest (most t) (left.modify i (· - 1)) ≤
      t.longest (most t) left := by
  have hpauses := pausesLeft_modify hr hleft
  have hmost := h.attempt s t hstate
  have hlt : (left.modify i (· - 1)).sum + 1 ≤ left.sum := sum_modify_lt hleft
  have hcast : ((left.modify i (· - 1)).sum : ℚ) + 1 ≤ left.sum := by exact_mod_cast hlt
  have hscaled := mul_le_mul_of_nonneg_right hcast hmost
  unfold Task.longest
  linarith

theorem Bounded.timeLeft_nonneg (h : Bounded m most longest) (e : Execution σ) :
    0 ≤ timeLeft m most longest e := by
  cases e with
  | running s data left =>
      cases hs : m.states s with
      | task t =>
          have hmore : most t ≤ t.longest (most t) left := h.most_le hs
          have hmost := h.attempt s t hs
          have htask := h.task s t hs
          simp only [timeLeft, hs]
          linarith
      | _ =>
          simp only [timeLeft, hs]
          exact h.nonneg s
  | _ => exact le_refl 0

end

theorem timeLeft_apart {m : Machine σ ρ} {most : Task σ ρ → ℚ} {longest : σ → ℚ} {s : σ} {data : Json}
    {left : List Nat} (h : ∀ t, m.states s ≠ .task t) :
    timeLeft m most longest (.running s data left) = longest s := by
  cases hs : m.states s with
  | task t => exact absurd hs (h t)
  | _ => simp only [timeLeft, hs]

theorem waiting_apart {m : Machine σ ρ} {s : σ} {data : Json} {left : List Nat}
    (h : ∀ path next, m.states s ≠ .wait path next) : m.waiting (.running s data left) = 0 := by
  cases hs : m.states s with
  | wait path next => exact absurd hs (h path next)
  | _ => simp only [Machine.waiting, hs]

/-- A wait is taken off the time that is left. -/
theorem Bounded.elapsed_move {most : Task σ ρ → ℚ} {longest : σ → ℚ}
    (h : Bounded wf.machine most longest) {c c' : Config σ Op Ans W} (hstep : Step wf allowed c c')
    (hlog : c'.log = c.log) :
    wf.machine.waiting c.execution + timeLeft wf.machine most longest c'.execution ≤
      timeLeft wf.machine most longest c.execution := by
  cases hstep with
  | @pass s _ _ next data left _ _ data' hstate hput =>
      have henter := h.enter next data'
      have hrest := h.pass _ _ _ _ hstate
      rw [waiting_apart (by simp [hstate]), timeLeft_apart (by simp [hstate])]
      linarith
  | @passError s _ _ _ _ _ _ _ hstate hput =>
      have hs := h.nonneg s
      rw [waiting_apart (by simp [hstate]), timeLeft_apart (by simp [hstate]), timeLeft_runtimeError]
      linarith
  | @route s s' data left _ _ hroute =>
      have henter := h.enter s' data
      have hrest := h.route s s' data left hroute
      rw [timeLeft_apart (by rintro t hs; rw [hs] at hroute; cases hroute)]
      linarith
  | @routeError s data left _ _ hroute =>
      have hs := h.nonneg s
      have hwaiting : wf.machine.waiting (.running s data left) = 0 := by
        cases hstate : wf.machine.states s with
        | wait path next =>
            rw [hstate] at hroute
            cases hseconds : secondsAt path data with
            | none => simp [Machine.waiting, hstate, hseconds]
            | some seconds => simp [State.route, hseconds] at hroute
        | _ => exact waiting_apart (by simp [hstate])
      rw [hwaiting, timeLeft_runtimeError,
        timeLeft_apart (by rintro t hs; rw [hs] at hroute; cases hroute)]
      linarith
  | @eventError s _ _ data left _ _ hstate hevent =>
      have hleft := h.timeLeft_nonneg (.running s data left)
      rw [waiting_apart (by simp [hstate]), timeLeft_runtimeError]
      linarith
  | attempt => simp at hlog

/-- Time that passes is taken off the time that is left. -/
theorem Bounded.elapsed_step {most : Task σ ρ → ℚ} {longest : σ → ℚ}
    (h : Bounded wf.machine most longest) (hmost : ∀ t d, takes t d → d ≤ most t)
    {c c' : Clocked σ Op Ans W} (hstep : ClockedStep wf allowed takes c c') :
    c'.elapsed + timeLeft wf.machine most longest c'.config.execution ≤
      c.elapsed + timeLeft wf.machine most longest c.config.execution := by
  cases hstep with
  | @attempt s t context data left _ _ _ _ _ _ report elapsed d hstate _ _ _ _ htakes =>
      have hd := hmost t d htakes
      have hone : most t ≤ t.longest (most t) left := h.most_le hstate
      have hleft : timeLeft wf.machine most longest (.running s data left) =
          t.longest (most t) left + (longest s - t.longest (most t) t.freshRetries) := by
        simp only [timeLeft, hstate]
      have hfresh := h.task s t hstate
      dsimp only
      rw [hleft]
      cases report with
      | ok result =>
          rw [Machine.resume, Task.pause]
          rcases wf.machine.complete_cases s t context data result with
            ⟨_, heq⟩ | ⟨data', _, ⟨_, heq⟩ | ⟨s', hnext, heq⟩⟩
          · rw [heq, timeLeft_runtimeError]
            linarith
          · rw [heq, timeLeft_succeeded]
            linarith
          · rw [heq]
            have henter := h.enter s' data'
            have hrest := h.next s t hstate s' hnext
            linarith
      | error err =>
          rw [Machine.resume]
          rcases wf.machine.fault_pause s t data left err with
            ⟨i, r, hr, hi, hpause, heq⟩ | ⟨hpause, heq⟩
          · rw [heq, hpause]
            have hretry := h.retry_le hstate hr hi
            simp only [timeLeft, hstate]
            linarith
          · rw [heq, hpause]
            rcases wf.machine.caught_cases s t data err with ⟨c, hc, _, data', _, heq'⟩ | ⟨err', heq'⟩
            · rw [heq']
              have henter := h.enter c.next data'
              have hrest := h.catcher s t hstate c hc
              linarith
            · rw [heq', timeLeft_failed]
              linarith
  | move hmove hlog =>
      have := h.elapsed_move hmove hlog
      dsimp only
      linarith

/-- No execution goes on for longer than its first state is given. -/
theorem Bounded.elapsed_le {most : Task σ ρ → ℚ} {longest : σ → ℚ}
    (h : Bounded wf.machine most longest) (hmost : ∀ t d, takes t d → d ≤ most t) {input : Json}
    {world : W} {c : Clocked σ Op Ans W}
    (hreach : Relation.ReflTransGen (ClockedStep wf allowed takes) ⟨wf.init input world, 0⟩ c) :
    c.elapsed ≤ longest wf.machine.startAt := by
  have hinvariant : c.elapsed + timeLeft wf.machine most longest c.config.execution ≤
      longest wf.machine.startAt := by
    refine Transition.invariant (P := fun c => c.elapsed +
      timeLeft wf.machine most longest c.config.execution ≤ longest wf.machine.startAt) hreach ?_ ?_
    · simpa [init, Machine.start] using h.enter wf.machine.startAt input
    · exact fun c c' hle hstep => (h.elapsed_step hmost hstep).trans hle
  have hleft := h.timeLeft_nonneg c.config.execution
  linarith

/-! ## Durations -/

/-- It can take the time `d` to get from one configuration to another. -/
def Lasts (wf : Workflow σ ρ Op Ans W) (allowed : Invocation σ Op Ans → Prop)
    (takes : Task σ ρ → ℚ → Prop) (c c' : Config σ Op Ans W) (d : ℚ) : Prop :=
  ∀ elapsed, Relation.ReflTransGen (ClockedStep wf allowed takes) ⟨c, elapsed⟩ ⟨c', elapsed + d⟩

theorem Lasts.refl {c : Config σ Op Ans W} : Lasts wf allowed takes c c 0 := by
  intro elapsed
  rw [add_zero]

theorem Lasts.trans {c c' c'' : Config σ Op Ans W} {d d' : ℚ} (h : Lasts wf allowed takes c c' d)
    (h' : Lasts wf allowed takes c' c'' d') : Lasts wf allowed takes c c'' (d + d') := by
  intro elapsed
  rw [← add_assoc]
  exact (h elapsed).trans (h' (elapsed + d))

theorem Lasts.attempt {s : σ} {t : Task σ ρ} {context data event : Json} {left : List Nat} {world world' : W}
    {log : List (Invocation σ Op Ans)} {calls : List (Program.Event Op Ans)}
    {outcome : Program.Outcome Exc Json} {report : Except TaskError Json} {d : ℚ}
    (hstate : wf.machine.states s = .task t) (hevent : t.event context data = some event)
    (hattempt : Program.Attempt wf.exec (wf.handler t.resource event) world calls outcome world')
    (hallowed : allowed ⟨s, event, calls, outcome⟩) (hreport : Reported t outcome report)
    (htakes : takes t d) : Lasts wf allowed takes ⟨.running s data left, world, log⟩
      ⟨wf.machine.resume s t context data left report, world', log ++ [⟨s, event, calls, outcome⟩]⟩
      (d + t.pause left report) :=
  fun _ => .single (.attempt hstate hevent hattempt hallowed hreport htakes)

/-- Attempts that are given up with the same error use up the retries of its retrier. -/
theorem exhausts {s : σ} {t : Task σ ρ} {context data event : Json} {world : W} {d : ℚ} {err : TaskError}
    {i : Nat} {r : Retrier} (hstate : wf.machine.states s = .task t)
    (hevent : t.event context data = some event) (hallowed : allowed ⟨s, event, [], .lost⟩)
    (htakes : takes t d) (hidx : (t.retry.findIdx? fun r => catches r.errorEquals err) = some i)
    (hr : t.retry[i]? = some r) {n : Nat} {left : List Nat} (hn : left[i]? = some n)
    (log : List (Invocation σ Op Ans)) :
    ∃ log', Lasts wf allowed takes ⟨.running s data left, world, log⟩
      ⟨.running s data (left.set i 0), world, log'⟩ (n * d + r.pauses n) := by
  induction n generalizing left log with
  | zero =>
      have hsame : left.set i 0 = left := by
        obtain ⟨hlt, hget⟩ := List.getElem?_eq_some_iff.mp hn
        rw [← hget, List.set_getElem_self]
      rw [hsame]
      refine ⟨log, ?_⟩
      simpa [Retrier.pauses] using (Lasts.refl : Lasts wf allowed takes _ _ 0)
  | succ n ih =>
      obtain ⟨hlt, hget⟩ := List.getElem?_eq_some_iff.mp hn
      have hleft : left.getD i 0 = n + 1 := by
        rw [List.getD_eq_getElem?_getD, hn, Option.getD_some]
      have hmodify : left.modify i (· - 1) = left.set i n := by
        rw [List.modify_eq_set, hn]
        rfl
      have hlost : Program.Attempt wf.exec (wf.handler t.resource event) world [] .lost world :=
        ⟨⟨_, .nil, trivial⟩, .nil⟩
      have hfirst : Lasts wf allowed takes ⟨.running s data left, world, log⟩
          ⟨wf.machine.resume s t context data left (.error err), world,
            log ++ [⟨s, event, [], .lost⟩]⟩ (d + t.pause left (.error err)) :=
        .attempt hstate hevent hlost hallowed .lost htakes
      have hpause : t.pause left (.error err) = r.pause (n + 1) := by
        simp only [Task.pause, hidx, hleft, hr, Nat.zero_lt_succ, if_true, Option.elim_some]
      have hfault : wf.machine.fault s t data left err = .running s data (left.set i n) := by
        simp only [Machine.fault, hidx, hleft, Nat.zero_lt_succ, if_true, hmodify]
      rw [Machine.resume, hfault, hpause] at hfirst
      have hn' : (left.set i n)[i]? = some n := by rw [List.getElem?_set_self hlt]
      obtain ⟨log', hrest⟩ := ih hn' (log ++ [⟨s, event, [], .lost⟩])
      rw [List.set_set] at hrest
      refine ⟨log', ?_⟩
      have htotal : d + r.pause (n + 1) + (n * d + r.pauses n) = (n + 1 : Nat) * d + r.pauses (n + 1) := by
        simp only [Retrier.pauses]
        push_cast
        ring
      rw [← htotal]
      exact hfirst.trans hrest

end Workflow
