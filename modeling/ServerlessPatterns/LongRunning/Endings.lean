-- SUMMARY: That every execution of the job machine ends, and what each of its ends says of the job's record.
import ServerlessPatterns.LongRunning.Lifecycle

/-!
# Endings

A retry uses up a retrier, and a round of the loop comes with a higher attempt number, so
an execution cannot go on forever. Where it ends tells what its record shows, except that
the last task may have failed after it had written.
-/

namespace LongRunning

open Asl Program

variable {py : Python} {env : Env} {reads : Reads} {allowed : Attempted → Prop} {k : String} {n : Int}
  {fail : Bool} {r : JobRecord} {input data : Json} {left : List Nat} {w w' : World}
  {log : List Attempted} {s : StateName} {err : TaskError} {c c' : Config}

/-- How an execution ended, and what the record of its job then shows. -/
inductive Ending (py : Python) (env : Env) (k : String) : Execution StateName → World → Prop where
  | completed {data : Json} {w : World} {r : JobRecord} (hshows : Shows k r w.table)
      (hstatus : r.status = statusCompleted) : Ending py env k (.succeeded .finalize data) w
  /-- The last task used up its retries. One of its attempts may have written. -/
  | unfinalized {err : TaskError} {w : World} {r : JobRecord} (hshows : Shows k r w.table)
      (hstatus : r.status = statusSucceeded ∨ r.status = statusCompleted) :
      Ending py env k (.failed .finalize err) w
  /-- Nobody signed off in time. -/
  | unsigned {err : TaskError} {w : World} {r : JobRecord} (hshows : Shows k r w.table)
      (hstatus : r.status = statusSucceeded) : Ending py env k (.failed .signoffTimedOut err) w
  /-- The poll budget is spent and the job still runs. -/
  | exhausted {err : TaskError} {w : World} {r : JobRecord} (hshows : Shows k r w.table)
      (hstatus : r.status = statusRunning) (hspent : env.maxAttempts py ≤ r.attempts) :
      Ending py env k (.failed .jobTimedOut err) w
  | failed {s : StateName} {err : TaskError} {w : World}
      (hs : s ∉ [.finalize, .signoffTimedOut, .jobTimedOut])
      (hincomplete : ∀ r, Shows k r w.table → r.status ≠ statusCompleted) :
      Ending py env k (.failed s err) w

/-! ## What is left of an execution -/

/-- The attempt number that the state data carry. -/
def attemptOf (data : Json) : Int :=
  match data.get ["job", "attempt"] with
  | some (.num (.int a)) => a
  | _ => 0

/-- How many states may still come: three for each poll that the budget has left. -/
def rank (maxAttempts : Int) (data : Json) : StateName → Nat
  | .submitJob => 3 * maxAttempts.toNat + 6
  | .evaluateJob => 3 * (maxAttempts - attemptOf data).toNat + 6
  | .waitForJob => 3 * (maxAttempts - attemptOf data).toNat + 5
  | .pollJob => 3 * (maxAttempts - attemptOf data).toNat + 4
  | .requestSignoff => 2
  | .finalize => 1
  | .jobFailed | .jobTimedOut | .signoffTimedOut => 0

/-- No task is tried more than five times. -/
def remaining (maxAttempts : Int) : Execution StateName → Nat
  | .running s data left => rank maxAttempts data s * 5 + left.sum + 1
  | _ => 0

theorem remaining_ended {maxAttempts : Int} {execution : Execution StateName} (h : Ended execution) :
    remaining maxAttempts execution < remaining maxAttempts (.running s data left) := by
  have hzero : remaining maxAttempts execution = 0 := by
    cases execution with
    | running s data left => exact absurd rfl (h s data left)
    | succeeded => rfl
    | failed => rfl
  rw [hzero]
  exact Nat.succ_pos _

theorem remaining_retry {maxAttempts : Int} {left' : List Nat} (h : left'.sum < left.sum) :
    remaining maxAttempts (.running s data left') < remaining maxAttempts (.running s data left) := by
  simp only [remaining]
  omega

theorem remaining_enter {maxAttempts : Int} {s' : StateName} {data' : Json}
    (h : rank maxAttempts data' s' < rank maxAttempts data s) :
    remaining maxAttempts (machine.enter s' data') < remaining maxAttempts (.running s data left) := by
  have hbudget : remaining maxAttempts (machine.enter s' data') ≤ rank maxAttempts data' s' * 5 + 5 := by
    cases s' <;> simp [Machine.enter, machine, remaining, submitJobTask, pollJobTask, jobTask,
      requestSignoffTask, finalizeTask, Task.freshRetries]
  simp only [remaining] at hbudget ⊢
  omega

/-- What a step of the execution comes to. -/
structure Proceeds (py : Python) (env : Env) (k : String) (c c' : Config) : Prop where
  lower : remaining (env.maxAttempts py) c'.execution < remaining (env.maxAttempts py) c.execution
  ending : Ended c'.execution → Ending py env k c'.execution c'.world

/-! ## Where errors lead -/

/-- An error is retried, or it fails the task or the state that catches it. -/
theorem fault_lands {t : Task StateName Function} (hstate : machine.states s = .task t) :
    (∃ left', left'.sum < left.sum ∧ machine.fault s t data left err = .running s data left') ∨
      ∃ s' err', machine.fault s t data left err = .failed s' err' ∧
        (s' = s ∨ ∃ c ∈ t.catchers, s' = c.next) := by
  rcases machine.fault_cases s t data left err with
    ⟨i, _, hleft, heq⟩ | ⟨c, hc, _, data', _, heq⟩ | ⟨err', heq⟩
  · exact .inl ⟨_, Workflow.sum_modify_lt hleft, heq⟩
  · right
    have hnext : c.next = .jobFailed ∨ c.next = .signoffTimedOut := by
      cases s <;> cases hstate <;> simp [submitJobTask, pollJobTask, jobTask, requestSignoffTask,
        finalizeTask] at hc <;> grind
    rcases hnext with h | h
    · rw [h] at heq
      exact ⟨.jobFailed, _, heq, .inr ⟨c, hc, h.symm⟩⟩
    · rw [h] at heq
      exact ⟨.signoffTimedOut, _, heq, .inr ⟨c, hc, h.symm⟩⟩
  · exact .inr ⟨s, err', heq, .inl rfl⟩

/-- A step at one of the tasks that report on the job. -/
theorem job_lands {f : Function} {next : StateName}
    (hstate : machine.states s = .task (jobTask f next))
    (h : Step py env reads allowed ⟨.running s data left, w, log⟩ c') :
    (∃ calls report w', Attempt (exec py reads) (function py env f data) w calls (.returned report) w' ∧
      c'.execution = machine.enter next (carrying report)) ∨
    (∃ left', left'.sum < left.sum ∧ c'.execution = .running s data left') ∨
    ∃ s' err', (s' = s ∨ s' = .jobFailed) ∧ c'.execution = .failed s' err' := by
  obtain ⟨calls, outcome, w', execution, hattempt, _, rfl, hend⟩ :=
    Workflow.Step.invoked hstate (by simp [jobTask])
      (fun context => (rfl : (jobTask f next).event context data = some data)) h
  rcases hend with ⟨context, report, rfl, rfl⟩ | ⟨_, err, rfl⟩
  · exact .inl ⟨calls, report, w', hattempt, rfl⟩
  · right
    rcases fault_lands hstate with hretry | ⟨s', err', heq, hs'⟩
    · exact .inl hretry
    · refine .inr ⟨s', err', hs'.imp_right ?_, heq⟩
      rintro ⟨c, hc, rfl⟩
      rw [List.mem_singleton.mp hc]

theorem proceeds_of_retry {left' : List Nat} (hlt : left'.sum < left.sum)
    (heq : c'.execution = .running s data left') :
    Proceeds py env k ⟨.running s data left, w, log⟩ c' := by
  refine ⟨?_, fun hended => absurd heq (hended _ _ _)⟩
  rw [heq]
  exact remaining_retry hlt

/-- A step that ends in a state of failure without completing the job. -/
theorem proceeds_of_failed {s' : StateName} (hs' : s' ∉ [.finalize, .signoffTimedOut, .jobTimedOut])
    (hnot : ¬ Completing k c') (heq : c'.execution = .failed s' err) :
    Proceeds py env k ⟨.running s data left, w, log⟩ c' := by
  constructor
  · rw [heq]
    exact remaining_ended ended_failed
  · rw [heq]
    exact fun _ => .failed hs' fun r hshows hstatus => hnot (.inr ⟨r, hshows, hstatus⟩)

/-- A step that goes on to a state further down. -/
theorem proceeds_of_enter (s' : StateName) {data' : Json}
    (hrank : rank (env.maxAttempts py) data' s' < rank (env.maxAttempts py) data s)
    (heq : c'.execution = machine.enter s' data') (hs' : ¬ Ended (machine.enter s' data')) :
    Proceeds py env k ⟨.running s data left, w, log⟩ c' := by
  refine ⟨?_, fun hended => absurd (heq ▸ hended) hs'⟩
  rw [heq]
  exact remaining_enter hrank

theorem not_ended_enter {s' : StateName} {data' : Json}
    (hs' : s' ∉ [.jobFailed, .jobTimedOut, .signoffTimedOut]) : ¬ Ended (machine.enter s' data') := by
  intro hended
  cases s' <;> first | exact hended _ _ _ rfl | exact absurd (by decide) hs'

/-! ## One step -/

theorem submitting_proceeds (hM : 1 ≤ env.maxAttempts py) (hnot : ¬ Completing k c')
    (hstep : Step py env reads allowed ⟨.running .submitJob input left, w, log⟩ c') :
    Proceeds py env k ⟨.running .submitJob input left, w, log⟩ c' := by
  have hstate : machine.states .submitJob = .task (jobTask .submitJob .waitForJob) := rfl
  rcases job_lands hstate hstep with
    ⟨calls, report, w', hattempt, heq⟩ | ⟨left', hlt, heq⟩ | ⟨s', err', hs', heq⟩
  · cases submit_attempt hattempt with
    | unwritten hnone => exact absurd rfl (hnone report)
    | created _ _ _ hreturned =>
        obtain ⟨_, rfl⟩ := hreturned report rfl
        refine proceeds_of_enter _ ?_ heq (not_ended_enter (by decide))
        change 3 * (env.maxAttempts py - 0).toNat + 5 < 3 * (env.maxAttempts py).toNat + 6
        omega
  · exact proceeds_of_retry hlt heq
  · rcases hs' with rfl | rfl
    · exact proceeds_of_failed (by decide) hnot heq
    · exact proceeds_of_failed (by decide) hnot heq

theorem waiting_proceeds (hstep : Step py env reads allowed ⟨.running .waitForJob data left, w, log⟩ c')
    (hnot : ¬ Completing k c') : Proceeds py env k ⟨.running .waitForJob data left, w, log⟩ c' := by
  rcases wait_step hstep with ⟨_, _, rfl⟩ | ⟨_, err, rfl⟩
  · refine proceeds_of_enter .pollJob ?_ rfl (not_ended_enter (by decide))
    exact Nat.lt_succ_self _
  · exact proceeds_of_failed (by decide) hnot rfl

theorem polling_proceeds {a p next : Int} (h : Tended k n fail r w) (hlawful : r.Lawful py n fail)
    (ha : a ≤ r.attempts) (hbudget : a < env.maxAttempts py) (hnot : ¬ Completing k c')
    (hstep : Step py env reads allowed
      ⟨.running .pollJob (carrying (jobReport (.str k) statusRunning a false p next)) left, w, log⟩ c') :
    Proceeds py env k
      ⟨.running .pollJob (carrying (jobReport (.str k) statusRunning a false p next)) left, w, log⟩ c' := by
  have hstate : machine.states .pollJob = .task (jobTask .pollJob .evaluateJob) := rfl
  rcases job_lands hstate hstep with
    ⟨calls, report, w', hattempt, heq⟩ | ⟨left', hlt, heq⟩ | ⟨s', err', hs', heq⟩
  · have hpolled := poll_attempt jobIdOf_carrying h.named h.shows h.watched.consistent hattempt
    obtain ⟨_, _, _, _, hreported⟩ := polled_tended hpolled h hlawful
    obtain ⟨a', p', _, hlt, _, rfl⟩ := hreported report rfl
    refine proceeds_of_enter _ ?_ heq (not_ended_enter (by decide))
    change 3 * (env.maxAttempts py - a').toNat + 6 < 3 * (env.maxAttempts py - a).toNat + 4
    omega
  · exact proceeds_of_retry hlt heq
  · rcases hs' with rfl | rfl
    · exact proceeds_of_failed (by decide) hnot heq
    · exact proceeds_of_failed (by decide) hnot heq

theorem evaluating_proceeds {a p : Int} (h : Tended k n fail r w) (ha : r.attempts = a)
    (hstatus : r.status = pollStatus n fail a) (hnot : ¬ Completing k c')
    (hstep : Step py env reads allowed
      ⟨.running .evaluateJob (carrying (pollReport py env k n fail a p)) left, w, log⟩ c') :
    Proceeds py env k
      ⟨.running .evaluateJob (carrying (pollReport py env k n fail a p)) left, w, log⟩ c' := by
  rcases evaluate_step hstep with ⟨next, hchoose, rfl⟩ | ⟨_, err, rfl⟩
  · rw [choose_poll, Option.some.injEq] at hchoose
    split_ifs at hchoose with hfail hn hexhausted
    · subst hchoose
      exact proceeds_of_failed (by decide) hnot rfl
    · subst hchoose
      refine proceeds_of_enter .requestSignoff ?_ rfl (not_ended_enter (by decide))
      change 2 < 3 * (env.maxAttempts py - a).toNat + 6
      omega
    · subst hchoose
      have hrunning : r.status = statusRunning := by
        rw [hstatus, pollStatus, if_neg hfail, if_neg hn]
      exact ⟨remaining_ended ended_failed, fun _ => .exhausted h.shows hrunning (ha ▸ hexhausted)⟩
    · subst hchoose
      refine proceeds_of_enter .waitForJob ?_ rfl (not_ended_enter (by decide))
      exact Nat.lt_succ_self _
  · exact proceeds_of_failed (by decide) hnot rfl

/-- What the gate writes is not part of the record. -/
theorem gate_tended {token report : Json} {calls : List (Program.Event Op Ans)} {outcome : Outcome Exc Json}
    (hid : jobIdOf (.obj [("task_token", token), ("job", report)]) = .ok (.str k))
    (h : Tended k n fail r w) (hattempt : Attempt (exec py reads)
      (requestSignoff (.obj [("task_token", token), ("job", report)])) w calls outcome w') :
    Tended k n fail r w' := by
  have hasks := (requestSignoff_meets hid).calls hattempt.calls fun _ _ => trivial
  apply hattempt.effects.preserves _ h
  intro event hmem w₁ w₂ hw₁ hexec
  obtain ⟨op, answer⟩ := event
  obtain ⟨token, rfl⟩ := hasks.1 _ hmem
  exact hw₁.attachToken hexec

theorem signing_proceeds {a p : Int} (h : Tended k n fail r w) (hstatus : r.status = statusSucceeded)
    (hstep : Step py env reads allowed
      ⟨.running .requestSignoff (carrying (pollReport py env k n fail a p)) left, w, log⟩ c') :
    Proceeds py env k
      ⟨.running .requestSignoff (carrying (pollReport py env k n fail a p)) left, w, log⟩ c' := by
  have hstate : machine.states .requestSignoff = .task requestSignoffTask := rfl
  have hne : r.status ≠ statusCompleted := by
    rw [hstatus]
    decide
  obtain ⟨context, ⟨_, rfl⟩ | ⟨event, calls, outcome, w', result, hevent, hattempt, _, _, rfl⟩⟩ :=
    Workflow.Step.task hstate hstep
  · exact proceeds_of_failed (by decide) (not_completing h.shows hne nofun) rfl
  obtain ⟨token, rfl⟩ := signoff_event hevent
  have hid : jobIdOf (.obj [("task_token", token), ("job", pollReport py env k n fail a p)]) =
      .ok (.str k) := rfl
  have htended := gate_tended hid h hattempt
  cases result with
  | ok v =>
      have heq : machine.resume .requestSignoff requestSignoffTask context
          (carrying (pollReport py env k n fail a p)) left (.ok v) =
          machine.enter .finalize (.obj [("job", pollReport py env k n fail a p), ("signoff", v)]) := rfl
      exact proceeds_of_enter _ (by change 1 < 2; decide) heq (not_ended_enter (by decide))
  | error err =>
      change Proceeds py env k _ ⟨machine.fault .requestSignoff requestSignoffTask
        (carrying (pollReport py env k n fail a p)) left err, w', _⟩
      rcases fault_lands hstate with ⟨left', hlt, heq⟩ | ⟨s', err', heq, hs'⟩
      · rw [heq]
        exact proceeds_of_retry hlt rfl
      · rw [heq]
        have hnot : ∀ log, ¬ Completing k ⟨.failed s' err', w', log⟩ := fun log =>
          not_completing htended.shows hne nofun
        rcases hs' with rfl | ⟨c, hc, rfl⟩
        · exact proceeds_of_failed (by decide) (hnot _) rfl
        · rcases List.mem_pair.mp hc with rfl | rfl
          · exact ⟨remaining_ended ended_failed, fun _ => .unsigned htended.shows hstatus⟩
          · exact proceeds_of_failed (by decide) (hnot _) rfl

/-- The last handler writes at most the status, and it returns only after it has. -/
theorem finalize_attempt {report result : Json} {calls : List (Program.Event Op Ans)}
    {outcome : Outcome Exc Json} (hid : jobIdOf (.obj [("job", report), ("signoff", result)]) = .ok (.str k))
    (h : Tended k n fail r w) (hstatus : r.status = statusSucceeded ∨ r.status = statusCompleted)
    (hattempt : Attempt (exec py reads) (finalize (.obj [("job", report), ("signoff", result)]))
      w calls outcome w') :
    ∃ r', Tended k n fail r' w' ∧ (r'.status = statusSucceeded ∨ r'.status = statusCompleted) ∧
      ∀ v, outcome = .returned v → r'.status = statusCompleted := by
  obtain ⟨hcalls, heffects⟩ := hattempt
  have hsignoff : Python.get (.obj [("job", report), ("signoff", result)]) "signoff" =
      (.ok result : Except Exc Json) := rfl
  have htruthy : (Json.str k).truthy = true := by
    simpa [Json.truthy] using h.named
  unfold finalize at hcalls
  rw [hid, hsignoff] at hcalls
  simp only [ofExcept_ok, ret_bind, htruthy, Bool.not_true, Bool.false_eq_true, if_false,
    call_bind] at hcalls
  rcases calls_call.mp hcalls with ⟨rfl, rfl⟩ | ⟨answer, rest, rfl, hrest⟩
  · rw [effects_nil] at heffects
    subst heffects
    refine ⟨r, h, hstatus, fun v hlost => ?_⟩
    cases hlost
  · obtain ⟨w₁, hset, hafter⟩ := effects_cons.mp heffects
    obtain ⟨rfl, item, rfl, hitem⟩ := exec_setStatus h.named h.shows rfl hset
    have hsilent : ∀ v : Except Exc Json, (Program.ofExcept v >>= fun signedOffBy =>
        (ret (.obj [("job_id", .str k), ("status", statusCompleted), ("signed_off_by", signedOffBy)]) :
          Handler Json)).Silent := fun v => silent_ofExcept.bind fun _ => trivial
    have hnil : rest = [] := (hsilent _).calls hrest
    subst hnil
    rw [effects_nil] at hafter
    subst hafter
    refine ⟨_, h.write hitem rfl rfl ⟨le_rfl, le_rfl, ?_⟩, .inr rfl, fun _ _ => rfl⟩
    rcases hstatus with heq | heq
    · rw [heq]
      exact .inr (by decide : (statusSucceeded, statusCompleted) ∈ statusChanges)
    · rw [heq]
      exact .inl rfl

theorem finalizing_proceeds {a p : Int} {result : Json} (h : Tended k n fail r w)
    (hstatus : r.status = statusSucceeded ∨ r.status = statusCompleted)
    (hstep : Step py env reads allowed
      ⟨.running .finalize (.obj [("job", pollReport py env k n fail a p), ("signoff", result)]) left,
        w, log⟩ c') :
    Proceeds py env k
      ⟨.running .finalize (.obj [("job", pollReport py env k n fail a p), ("signoff", result)]) left,
        w, log⟩ c' := by
  have hstate : machine.states .finalize = .task finalizeTask := rfl
  obtain ⟨calls, outcome, w', execution, hattempt, _, rfl, hend⟩ :=
    Workflow.Step.invoked hstate (by decide)
      (fun context => (rfl : finalizeTask.event context _ = some _)) hstep
  obtain ⟨r', htended, hstatus', hreturned⟩ := finalize_attempt rfl h hstatus hattempt
  rcases hend with ⟨context, v, rfl, rfl⟩ | ⟨_, err, rfl⟩
  · change Proceeds py env k _ ⟨machine.complete .finalize finalizeTask context
      (.obj [("job", pollReport py env k n fail a p), ("signoff", result)]) (finalizeTask.wrap v), w', _⟩
    rcases machine.complete_cases .finalize finalizeTask context
      (.obj [("job", pollReport py env k n fail a p), ("signoff", result)]) (finalizeTask.wrap v) with
      ⟨_, heq⟩ | ⟨data', _, ⟨_, heq⟩ | ⟨_, hnext, _⟩⟩
    · rw [heq]
      exact ⟨remaining_ended ended_failed, fun _ => .unfinalized htended.shows hstatus'⟩
    · rw [heq]
      exact ⟨remaining_ended nofun, fun _ => .completed htended.shows (hreturned v rfl)⟩
    · cases hnext
  · change Proceeds py env k _ ⟨machine.fault .finalize finalizeTask _ left err, w', _⟩
    rcases fault_lands hstate with ⟨left', hlt, heq⟩ | ⟨s', err', heq, hs'⟩
    · rw [heq]
      exact proceeds_of_retry hlt rfl
    · rw [heq]
      obtain rfl : s' = .finalize := hs'.resolve_right nofun
      exact ⟨remaining_ended ended_failed, fun _ => .unfinalized htended.shows hstatus'⟩

theorem proceeds_step (hM : 1 ≤ env.maxAttempts py)
    (hsimulation : ∀ v, simulation py (input.orElse (.obj [])) = .ok v → v = (n, fail))
    (hcarried : CarriesJob k c') (h : Tracked py env k n fail input c)
    (hstep : Step py env reads allowed c c') : Proceeds py env k c c' := by
  cases h with
  | submitting h hfresh hcount =>
      have hnot := (submitting_step hM hsimulation hcarried h hfresh hcount hstep).2
      exact submitting_proceeds hM hnot hstep
  | @looping _ _ _ _ r a _ _ hs h hlawful hcount ha hbudget =>
      rcases hs with rfl | rfl
      · refine waiting_proceeds hstep (not_completing ?_ hlawful.ne_completed ?_)
        · rcases wait_step hstep with ⟨_, _, rfl⟩ | ⟨_, err, rfl⟩
          · exact h.shows
          · exact h.shows
        · rcases wait_step hstep with ⟨_, _, rfl⟩ | ⟨_, err, rfl⟩ <;> nofun
      · have hnext : Tracked py env k n fail input c' ∧ ¬ Completing k c' :=
          polling_step h hlawful hcount ha hbudget hstep
        exact polling_proceeds h hlawful ha hbudget hnext.2 hstep
  | evaluating h hlawful hcount hbudget ha hstatus hreported =>
      have hnext : Tracked py env k n fail input c' ∧ ¬ Completing k c' :=
        evaluating_step h hlawful hcount hbudget ha hstatus hreported hstep
      exact evaluating_proceeds h ha hstatus hnext.2 hstep
  | signing h _ hstatus _ => exact signing_proceeds h hstatus hstep
  | finalizing h _ hstatus => exact finalizing_proceeds h hstatus hstep
  | ended hended => exact absurd hstep (Workflow.stuck_of_ended (fun s data left => hended s data left) c')

/-! ## Runs -/

/-- A state that is no failure can be left, whatever it holds. -/
theorem exists_leaving (hs : s ∉ [.jobFailed, .jobTimedOut, .signoffTimedOut]) :
    ∃ c', Step py env reads (fun _ => True) ⟨.running s data left, w, log⟩ c' := by
  have hanswer : ∀ op w, exec py reads op w (answer py op w).1 (answer py op w).2 := answer_exec
  have htask : ∀ t, machine.states s = .task t →
      ∃ c', Step py env reads (fun _ => True) ⟨.running s data left, w, log⟩ c' := fun t hstate =>
    Workflow.exists_step hanswer .smooth (fun _ _ _ _ => trivial) hstate data left w log
  have hroute : ∀ next, (machine.states s).route data = some next →
      ∃ c', Step py env reads (fun _ => True) ⟨.running s data left, w, log⟩ c' := by
    intro next hroute
    cases next with
    | none => exact ⟨_, .routeError hroute⟩
    | some next => exact ⟨_, .route hroute⟩
  cases s with
  | submitJob => exact htask _ rfl
  | waitForJob => exact hroute _ rfl
  | pollJob => exact htask _ rfl
  | evaluateJob => exact hroute _ rfl
  | requestSignoff => exact htask _ rfl
  | finalize => exact htask _ rfl
  | jobFailed => exact absurd (by decide) hs
  | jobTimedOut => exact absurd (by decide) hs
  | signoffTimedOut => exact absurd (by decide) hs

theorem Tracked.ended_of_stuck (h : Tracked py env k n fail input c)
    (hstuck : Transition.Stuck (Step py env reads fun _ => True) c) : Ended c.execution := by
  have hleaves : ∀ s data left w log, c = ⟨.running s data left, w, log⟩ →
      s ∈ [.jobFailed, .jobTimedOut, .signoffTimedOut] := by
    intro s data left w log heq
    by_contra hs
    have hleaves : ∃ c', Step py env reads (fun _ => True) ⟨.running s data left, w, log⟩ c' :=
      exists_leaving hs
    obtain ⟨c', hstep⟩ := hleaves
    exact hstuck c' (heq ▸ hstep)
  cases h with
  | submitting => exact absurd (hleaves _ _ _ _ _ rfl) (by decide)
  | looping hs =>
      rcases hs with rfl | rfl
      · exact absurd (hleaves _ _ _ _ _ rfl) (by decide)
      · exact absurd (hleaves _ _ _ _ _ rfl) (by decide)
  | evaluating => exact absurd (hleaves _ _ _ _ _ rfl) (by decide)
  | signing => exact absurd (hleaves _ _ _ _ _ rfl) (by decide)
  | finalizing => exact absurd (hleaves _ _ _ _ _ rfl) (by decide)
  | ended hended => exact hended

/-- A job without an earlier record. -/
theorem tracked_start {w₀ : World} (hnew : ∀ t ∈ w₀.history, t k = none) :
    Tracked py env k n fail input ((workflow py env reads).init input w₀) := by
  have habsent : ∀ t ∈ w₀.history, ∀ r, ¬ Shows k r t := by
    rintro t hmem r ⟨item, hitem, _⟩
    rw [hnew t hmem] at hitem
    cases hitem
  refine .submitting ⟨fun t hmem => .inl (hnew t hmem), ?_⟩
    (fun r hr => absurd hr (habsent w₀.table List.mem_cons_self r)) rfl
  apply List.pairwise_of_forall_mem_list
  exact fun later _ earlier hmem r hr => absurd hr (habsent earlier hmem r)

/-- How many steps an execution can take. -/
def longest (py : Python) (env : Env) : Nat := 15 * (env.maxAttempts py).toNat + 35

theorem remaining_init {w₀ : World} :
    remaining (env.maxAttempts py) ((workflow py env reads).init input w₀).execution = longest py env := by
  change (3 * (env.maxAttempts py).toNat + 6) * 5 + 4 + 1 = 15 * (env.maxAttempts py).toNat + 35
  omega

/-- Whatever attempts fail wherever, an execution on a job without an earlier record ends
    after a bounded number of steps, and its end tells what the record shows. -/
theorem execution_ends (hM : 1 ≤ env.maxAttempts py) {w₀ : World}
    (hnew : ∀ t ∈ w₀.history, t k = none)
    (run : Transition.MaximalRun (Step py env reads fun _ => True)
      ((workflow py env reads).init input w₀))
    (hcarried : ∀ i, CarriesJob k (run.state i)) :
    ∃ i ≤ longest py env, Ending py env k (run.state i).execution (run.state i).world := by
  obtain ⟨n, fail, hsimulation⟩ : ∃ n fail, ∀ v, simulation py (input.orElse (.obj [])) = .ok v →
      v = (n, fail) := by
    cases simulation py (input.orElse (.obj [])) with
    | error e => exact ⟨0, false, nofun⟩
    | ok v => exact ⟨v.1, v.2, fun v' heq => (Except.ok.inj heq).symm⟩
  have htracked : ∀ i, Tracked py env k n fail input (run.state i) := by
    intro i
    induction i with
    | zero =>
        rw [run.start]
        exact tracked_start hnew
    | succ i ih =>
        rcases run.next i with hstep | ⟨_, hstay⟩
        · exact (tracked_step hM hsimulation (hcarried (i + 1)) ih hstep).1
        · rw [hstay]
          exact ih
  have hproceeds : ∀ i, Step py env reads (fun _ => True) (run.state i) (run.state (i + 1)) →
      Proceeds py env k (run.state i) (run.state (i + 1)) := fun i hstep =>
    proceeds_step hM hsimulation (hcarried (i + 1)) (htracked i) hstep
  have hending : ∀ i, Ended (run.state i).execution →
      Ending py env k (run.state i).execution (run.state i).world := by
    intro i
    induction i with
    | zero =>
        rw [run.start]
        exact fun hended => absurd rfl (hended _ _ _)
    | succ i ih =>
        rcases run.next i with hstep | ⟨_, hstay⟩
        · exact (hproceeds i hstep).ending
        · rw [hstay]
          exact ih
  obtain ⟨i, hi, hstuck⟩ := run.halts_along (fun c => remaining (env.maxAttempts py) c.execution)
    fun i hstep => (hproceeds i hstep).lower
  exact ⟨i, remaining_init ▸ hi, hending i ((htracked i).ended_of_stuck hstuck)⟩

theorem execution_ends_retriedPoll :
    ∃ i ≤ 335, Ending .sample sampleEnv "report-987" (retriedPoll i).execution (retriedPoll i).world := by
  have hnew : ∀ t ∈ emptyWorld.history, t "report-987" = none := by
    intro t hmem
    rw [List.mem_singleton.mp hmem]
    rfl
  apply execution_ends (by decide) hnew
    (Workflow.scheduled (answer .sample) answer_exec firstPollLost
      ((workflow .sample sampleEnv .eventual).init (sampleInput 2) emptyWorld) 7
      (fun _ _ _ _ => trivial) retriedPoll_ends)
  intro i
  by_cases hi : i ≤ 7
  · exact retriedPoll_carries i hi
  · have hstay : retriedPoll i = retriedPoll 7 :=
      Workflow.trajectory_ended retriedPoll_ends (Nat.le_of_not_le hi)
    have hcarries := retriedPoll_carries 7 le_rfl
    rw [← hstay] at hcarries
    exact hcarries

end LongRunning
