-- SUMMARY: The lifecycle of a job's record in one execution whose attempts may fail at any point between their operations.
import ServerlessPatterns.LongRunning.Steps

/-!
# The lifecycle of a job

A poll that is given up may have counted without writing what it computed, and a
submission that is given up may have created the record. What ties the record to the
execution is the attempt number: the number that the execution last heard of is at
most the counter, and what the record shows belongs to some number up to it.
-/

namespace LongRunning

open Asl Program

/-- How often `PollJob` has completed. -/
def completedPolls (log : List Attempted) : Nat := (Workflow.returns log).count .pollJob

variable {py : Python} {env : Env} {reads : Reads} {allowed : Attempted → Prop} {k : String} {n : Int}
  {fail : Bool} {r r' : JobRecord} {input : Json} {w : World} {table : Table} {log : List Attempted}
  {inv : Attempted} {c c' : Config}

theorem completedPolls_append {report : Json} (hstate : inv.state = .pollJob)
    (h : inv.outcome = .returned report) :
    completedPolls (log ++ [inv]) = completedPolls log + 1 := by
  simp [completedPolls, Workflow.returns_append h, hstate]

theorem completedPolls_append_failed (h : ∀ report, inv.outcome ≠ .returned report) :
    completedPolls (log ++ [inv]) = completedPolls log := by
  rw [completedPolls, Workflow.returns_append_failed h, completedPolls]

theorem completedPolls_append_other (hstate : inv.state ≠ .pollJob) :
    completedPolls (log ++ [inv]) = completedPolls log := by
  by_cases h : ∃ report, inv.outcome = .returned report
  · obtain ⟨report, hreport⟩ := h
    simp [completedPolls, Workflow.returns_append hreport, hstate]
  · exact completedPolls_append_failed fun report hreport => h ⟨report, hreport⟩

/-! ## Records that move forward -/

structure JobRecord.Precedes (r r' : JobRecord) : Prop where
  attempts : r.attempts ≤ r'.attempts
  progress : r.progress ≤ r'.progress
  status : Forward r.status r'.status

theorem JobRecord.Precedes.refl : r.Precedes r := ⟨le_rfl, le_rfl, .inl rfl⟩

theorem JobRecord.Precedes.trans {r'' : JobRecord} (h : r.Precedes r') (h' : r'.Precedes r'') :
    r.Precedes r'' :=
  ⟨h.attempts.trans h'.attempts, h.progress.trans h'.progress, h.status.trans h'.status⟩

/-- A record of the job is kept, or followed by one that it precedes. -/
def Advances (k : String) (earlier later : Table) : Prop :=
  ∀ r, Shows k r earlier → ∃ r', Shows k r' later ∧ r.Precedes r'

/-- The tables, latest first, show the job moving forward. -/
def Ordered (k : String) (tables : List Table) : Prop :=
  tables.Pairwise fun later earlier => Advances k earlier later

theorem Advances.refl : Advances k table table := fun r h => ⟨r, h, .refl⟩

theorem Advances.trans {table' table'' : Table} (h : Advances k table table')
    (h' : Advances k table' table'') : Advances k table table'' := by
  intro r hshows
  obtain ⟨r', hshows', hprecedes⟩ := h r hshows
  obtain ⟨r'', hshows'', hprecedes'⟩ := h' r' hshows'
  exact ⟨r'', hshows'', hprecedes.trans hprecedes'⟩

/-- A table that shows nothing but a job as it was submitted, or later. -/
def Regular (k : String) (n : Int) (fail : Bool) (t : Table) : Prop :=
  t k = none ∨ ∃ r, Shows k r t ∧ r.succeedAfter = n ∧ r.failJob = fail ∧
    Forward statusSubmitted r.status

/-- The history of the job so far. -/
structure Watched (k : String) (n : Int) (fail : Bool) (w : World) : Prop where
  regular : ∀ t ∈ w.history, Regular k n fail t
  ordered : Ordered k w.history

theorem Watched.consistent (h : Watched k n fail w) : Consistent k n fail (reads.visible w) := by
  intro t hmem
  cases h.regular t (Reads.visible_history t hmem) with
  | inl hnone => exact .inl hnone
  | inr hfound =>
      obtain ⟨r, hshows, hn, hfail, _⟩ := hfound
      exact .inr ⟨r, hshows, hn, hfail⟩

/-- A write that takes the job forward. -/
theorem Watched.store (h : Watched k n fail w) (hregular : Regular k n fail table)
    (hadvances : Advances k w.table table) : Watched k n fail (w.store table) := by
  constructor
  · rw [World.store_history]
    exact List.forall_mem_cons.mpr ⟨hregular, h.regular⟩
  · rw [World.store_history]
    apply List.pairwise_cons.mpr
    refine ⟨?_, h.ordered⟩
    intro t hmem
    cases List.mem_cons.mp hmem with
    | inl heq => exact heq ▸ hadvances
    | inr hpast => exact ((List.pairwise_cons.mp h.ordered).1 t hpast).trans hadvances

/-- A write that leaves the record of the job alone. -/
theorem Watched.store_same (h : Watched k n fail w) (hsame : table k = w.table k) :
    Watched k n fail (w.store table) := by
  have hshows : ∀ r, Shows k r w.table → Shows k r table := by
    intro r hshows
    obtain ⟨item, hitem, hdescribes⟩ := hshows
    exact ⟨item, hsame.trans hitem, hdescribes⟩
  apply h.store
  · cases h.regular w.table List.mem_cons_self with
    | inl hnone => exact .inl (hsame.trans hnone)
    | inr hfound =>
        obtain ⟨r, hfound, hrest⟩ := hfound
        exact .inr ⟨r, hshows r hfound, hrest⟩
  · exact fun r hr => ⟨r, hshows r hr, .refl⟩

/-- The record as it is, at the end of the history. -/
structure Tended (k : String) (n : Int) (fail : Bool) (r : JobRecord) (w : World) : Prop where
  named : k ≠ ""
  watched : Watched k n fail w
  shows : Shows k r w.table
  submitted : Forward statusSubmitted r.status

theorem Tended.simulated (h : Tended k n fail r w) : r.succeedAfter = n ∧ r.failJob = fail :=
  have hconsistent : Consistent k n fail (Reads.eventual.visible w) := h.watched.consistent
  hconsistent.simulated List.mem_cons_self h.shows

theorem Tended.write {item : Json} (h : Tended k n fail r w) (hitem : r'.Describes item)
    (hn : r'.succeedAfter = r.succeedAfter) (hfail : r'.failJob = r.failJob) (hprecedes : r.Precedes r') :
    Tended k n fail r' (w.store (w.table.write k item)) := by
  have hshows : Shows k r' (w.table.write k item) := ⟨item, Table.write_self, hitem⟩
  have hsubmitted : Forward statusSubmitted r'.status := h.submitted.trans hprecedes.status
  have hadvances : Advances k w.table (w.table.write k item) := by
    intro r₀ hr₀
    cases h.shows.unique hr₀
    exact ⟨r', hshows, hprecedes⟩
  exact ⟨h.named, h.watched.store (.inr ⟨r', hshows, hn.trans h.simulated.1, hfail.trans h.simulated.2,
    hsubmitted⟩) hadvances, hshows, hsubmitted⟩

/-! ## Polls -/

/-- What a record shows belongs to an attempt that was counted. -/
structure JobRecord.Lawful (py : Python) (n : Int) (fail : Bool) (r : JobRecord) : Prop where
  nonneg : 0 ≤ r.attempts
  shown : (r.status = statusSubmitted ∧ r.progress = 0) ∨
    ∃ a, 1 ≤ a ∧ a ≤ r.attempts ∧ r.status = pollStatus n fail a ∧ progressAt py n fail a = .ok r.progress

namespace JobRecord.Lawful

theorem fresh : (JobRecord.fresh n fail).Lawful py n fail := ⟨le_rfl, .inl ⟨rfl, rfl⟩⟩

theorem ne_completed (h : r.Lawful py n fail) : r.status ≠ statusCompleted := by
  rcases h.shown with ⟨hstatus, _⟩ | ⟨a, _, _, hstatus, _⟩
  · rw [hstatus]
    decide
  · rw [hstatus]
    exact pollStatus_ne_completed

theorem counted (h : r.Lawful py n fail) : { r with attempts := r.attempts + 1 }.Lawful py n fail := by
  refine ⟨by have := h.nonneg; simp only; omega, ?_⟩
  rcases h.shown with hsubmitted | ⟨a, ha, hle, hshown⟩
  · exact .inl hsubmitted
  · exact .inr ⟨a, ha, by simp only; omega, hshown⟩

theorem counted_precedes : r.Precedes { r with attempts := r.attempts + 1 } :=
  ⟨by simp only; omega, le_rfl, .inl rfl⟩

/-- What belongs to an attempt that was not counted yet comes after whatever the record
    shows. -/
theorem before {a p : Int} (h : r.Lawful py n fail) (ha : r.attempts < a)
    (hp : progressAt py n fail a = .ok p) :
    r.progress ≤ p ∧ Forward r.status (pollStatus n fail a) := by
  have hnonneg := h.nonneg
  rcases h.shown with ⟨hstatus, hprogress⟩ | ⟨b, _, hle, hstatus, hprogress⟩
  · rw [hstatus, hprogress]
    exact ⟨progressAt_nonneg (by omega) hp, pollStatus_submitted⟩
  · rw [hstatus]
    exact ⟨progressAt_mono (by omega) hprogress hp, pollStatus_forward (by omega)⟩

theorem recorded_precedes {p : Int} (h : r.Lawful py n fail)
    (hp : progressAt py n fail (r.attempts + 1) = .ok p) :
    r.Precedes { r with
      attempts := r.attempts + 1, status := pollStatus n fail (r.attempts + 1), progress := p } := by
  obtain ⟨hprogress, hstatus⟩ := h.before (by omega) hp
  exact ⟨by simp only; omega, hprogress, hstatus⟩

theorem recorded {p : Int} (h : r.Lawful py n fail)
    (hp : progressAt py n fail (r.attempts + 1) = .ok p) :
    { r with
      attempts := r.attempts + 1
      status := pollStatus n fail (r.attempts + 1)
      progress := p }.Lawful py n fail :=
  have hnonneg := h.nonneg
  ⟨by simp only; omega, .inr ⟨r.attempts + 1, by omega, le_rfl, rfl, hp⟩⟩

end JobRecord.Lawful

/-- What an attempt to poll leaves: a lawful record, which shows what was reported. -/
theorem polled_tended {outcome : Outcome Exc Json} {w' : World}
    (h : Polled py env reads k n fail r w outcome w') (htended : Tended k n fail r w)
    (hlawful : r.Lawful py n fail) :
    ∃ r', Tended k n fail r' w' ∧ r'.Lawful py n fail ∧ r.attempts ≤ r'.attempts ∧
      ∀ report, outcome = .returned report → ∃ a p, r'.attempts = a ∧ r.attempts < a ∧
        r'.status = pollStatus n fail a ∧ report = pollReport py env k n fail a p := by
  cases h with
  | uncounted hnot =>
      refine ⟨r, htended, hlawful, le_rfl, fun report hreturned => ?_⟩
      rcases hnot with hlost | ⟨⟨e, hraised⟩, _⟩
      · cases hlost.symm.trans hreturned
      · cases hraised.symm.trans hreturned
  | counted hitem hnot =>
      refine ⟨_, htended.write hitem rfl rfl JobRecord.Lawful.counted_precedes, hlawful.counted,
        by simp only; omega, fun report hreturned => ?_⟩
      rcases hnot with hlost | ⟨e, hraised, _⟩
      · cases hlost.symm.trans hreturned
      · cases hraised.symm.trans hreturned
  | @recorded item item' p hp hitem hitem' hend =>
      have hcounted := htended.write hitem rfl rfl JobRecord.Lawful.counted_precedes
      have hprecedes := hlawful.recorded_precedes hp
      refine ⟨_, hcounted.write hitem' rfl rfl ⟨le_rfl, hprecedes.progress, hprecedes.status⟩,
        hlawful.recorded hp, by simp only; omega, fun report hreturned => ?_⟩
      rcases hend with hlost | hreported
      · cases hlost.symm.trans hreturned
      · cases hreported.symm.trans hreturned
        exact ⟨r.attempts + 1, p, rfl, by omega, rfl, rfl⟩

/-! ## What `EvaluateJob` makes of a poll -/

theorem choose_poll {a p : Int} :
    choose (carrying (pollReport py env k n fail a p)) .waitForJob evaluateJobRules =
      some (if fail then .jobFailed
        else if n ≤ a then .requestSignoff
        else if env.maxAttempts py ≤ a then .jobTimedOut
        else .waitForJob) := by
  unfold pollReport pollStatus
  cases fail with
  | true => exact choose_report
  | false =>
      by_cases hn : n ≤ a
      · simp only [hn, Bool.false_eq_true, if_false, if_true]
        exact choose_report
      · simp only [hn, Bool.false_eq_true, if_false]
        rw [statusRunning, choose_report]
        by_cases hbudget : env.maxAttempts py ≤ a <;> simp [hbudget]

/-- A poll that leads on to the next one. -/
theorem pollReport_running {a p : Int} (hfail : fail = false) (hn : ¬ n ≤ a)
    (hbudget : ¬ env.maxAttempts py ≤ a) :
    pollReport py env k n fail a p =
      jobReport (.str k) statusRunning a false p (backoffSeconds py env a) := by
  simp [pollReport, pollStatus, hfail, hn, hbudget]

/-! ## The execution and the record -/

/-- A poll reported the job as succeeded. -/
def ComputedSuccess (k : String) (log : List Attempted) : Prop :=
  ∃ inv ∈ log, inv.state = .pollJob ∧ ∃ report, inv.outcome = .returned report ∧
    report.get ["job_id"] = some (.str k) ∧ report.get ["status"] = some statusSucceeded

/-- `SendTaskSuccess` resumed the gate. -/
def Resumed (c c' : Config) : Prop :=
  ∃ data left result data' left', c.execution = .running .requestSignoff data left ∧
    data.put ["signoff"] result = some data' ∧ c'.execution = .running .finalize data' left'

/-- The job is completed, or it is about to be. -/
def Completing (k : String) (c : Config) : Prop :=
  (∃ data left, c.execution = .running .finalize data left) ∨
    ∃ r, Shows k r c.world.table ∧ r.status = statusCompleted

/-- Once the execution waits for its job, it is job `k`. -/
def CarriesJob (k : String) (c : Config) : Prop :=
  ∀ data left, c.execution = .running .waitForJob data left →
    data.get ["job", "job_id"] = some (.str k)

inductive Tracked (py : Python) (env : Env) (k : String) (n : Int) (fail : Bool) (input : Json) :
    Config → Prop where
  | submitting {left w log} (h : Watched k n fail w)
      (hfresh : ∀ r, Shows k r w.table → r = .fresh n fail) (hcount : completedPolls log = 0) :
      Tracked py env k n fail input ⟨.running .submitJob input left, w, log⟩
  | looping {s left w log} {r : JobRecord} {a p next : Int} (hs : s = .waitForJob ∨ s = .pollJob)
      (h : Tended k n fail r w) (hlawful : r.Lawful py n fail) (hcount : completedPolls log ≤ a)
      (ha : a ≤ r.attempts) (hbudget : a < env.maxAttempts py) :
      Tracked py env k n fail input
        ⟨.running s (carrying (jobReport (.str k) statusRunning a false p next)) left, w, log⟩
  | evaluating {left w log} {r : JobRecord} {a p : Int} (h : Tended k n fail r w)
      (hlawful : r.Lawful py n fail) (hcount : completedPolls log ≤ a)
      (hbudget : completedPolls log ≤ env.maxAttempts py) (ha : r.attempts = a)
      (hstatus : r.status = pollStatus n fail a)
      (hreported : ∃ inv ∈ log, inv.state = .pollJob ∧
        inv.outcome = .returned (pollReport py env k n fail a p)) :
      Tracked py env k n fail input
        ⟨.running .evaluateJob (carrying (pollReport py env k n fail a p)) left, w, log⟩
  | signing {left w log} {r : JobRecord} {a p : Int} (h : Tended k n fail r w)
      (hbudget : completedPolls log ≤ env.maxAttempts py) (hstatus : r.status = statusSucceeded)
      (hsuccess : ComputedSuccess k log) :
      Tracked py env k n fail input
        ⟨.running .requestSignoff (carrying (pollReport py env k n fail a p)) left, w, log⟩
  | finalizing {left w log} {r : JobRecord} {a p : Int} {result : Json} (h : Tended k n fail r w)
      (hbudget : completedPolls log ≤ env.maxAttempts py)
      (hstatus : r.status = statusSucceeded ∨ r.status = statusCompleted) :
      Tracked py env k n fail input
        ⟨.running .finalize (.obj [("job", pollReport py env k n fail a p), ("signoff", result)]) left,
          w, log⟩
  | ended {execution w log} (hended : Ended execution) (h : Watched k n fail w)
      (hbudget : completedPolls log ≤ env.maxAttempts py) :
      Tracked py env k n fail input ⟨execution, w, log⟩

/-- As long as nothing but submissions were tried, the record is a new one. -/
theorem created_watched {jobId payload : Json} {ttl : Option Int} {answer : Except Exc Unit}
    {w' : World} (h : Watched k n fail w) (hfresh : ∀ r, Shows k r w.table → r = .fresh n fail)
    (hcreate : exec py reads (.create jobId n fail payload ttl) w answer w') :
    Watched k n fail w' ∧ (∀ r, Shows k r w'.table → r = .fresh n fail) ∧
      (answer = .ok () → jobId = .str k → k ≠ "" ∧ Shows k (.fresh n fail) w'.table) := by
  rcases exec_create hcreate with ⟨e, rfl, rfl⟩ | ⟨k', item, rfl, hne, rfl, rfl, hitem⟩
  · exact ⟨h.store_same rfl, hfresh, nofun⟩
  by_cases hk : k' = k
  · subst hk
    have hshows : Shows k' (.fresh n fail) (w.table.write k' item) := ⟨item, Table.write_self, hitem⟩
    refine ⟨h.store (.inr ⟨_, hshows, rfl, rfl, .inl rfl⟩) ?_, fun r hr => hr.unique hshows,
      fun _ _ => ⟨hne, hshows⟩⟩
    intro r hr
    rw [hfresh r hr]
    exact ⟨_, hshows, .refl⟩
  · have hsame : (w.table.write k' item) k = w.table k := Table.write_ne (Ne.symm hk)
    refine ⟨h.store_same hsame, fun r hr => ?_, fun _ heq => ?_⟩
    · obtain ⟨item', hread, hdescribes⟩ := hr
      exact hfresh r ⟨item', hsame.symm.trans hread, hdescribes⟩
    · injection heq with heq
      exact absurd heq hk

/-! ## Steps -/

theorem submitting_step (hM : 1 ≤ env.maxAttempts py)
    (hsimulation : ∀ v, simulation py (input.orElse (.obj [])) = .ok v → v = (n, fail))
    (hcarried : CarriesJob k c') {left : List Nat} (h : Watched k n fail w)
    (hfresh : ∀ r, Shows k r w.table → r = .fresh n fail) (hcount : completedPolls log = 0)
    (hstep : Step py env reads allowed ⟨.running .submitJob input left, w, log⟩ c') :
    Tracked py env k n fail input c' ∧ ¬ Completing k c' := by
  obtain ⟨calls, outcome, w', execution, hattempt, _, rfl, hend⟩ :=
    job_step (rfl : machine.states .submitJob = .task (jobTask .submitJob .waitForJob)) hstep
  have hcount' : completedPolls (log ++ [⟨.submitJob, input, calls, outcome⟩]) = 0 :=
    (completedPolls_append_other (by simp)).trans hcount
  have hbudget : (completedPolls (log ++ [⟨.submitJob, input, calls, outcome⟩]) : Int) ≤
      env.maxAttempts py := by
    rw [hcount']
    exact le_trans (by decide) hM
  -- What the table is like, and what a report says.
  obtain ⟨hwatched, hfresh', hreported⟩ : Watched k n fail w' ∧
      (∀ r, Shows k r w'.table → r = .fresh n fail) ∧
      ∀ report, outcome = .returned report → ∃ jobId,
        report = jobReport jobId statusRunning 0 false 0 (backoffSeconds py env 0) ∧
        (jobId = .str k → k ≠ "" ∧ Shows k (.fresh n fail) w'.table) := by
    cases submit_attempt hattempt with
    | unwritten hnot => exact ⟨h, hfresh, fun report hreturned => absurd hreturned (hnot report)⟩
    | created _ hsim hcreate hreturned =>
        cases hsimulation _ hsim
        obtain ⟨hwatched, hfresh', hshows⟩ := created_watched h hfresh hcreate
        refine ⟨hwatched, hfresh', fun report heq => ?_⟩
        obtain ⟨hok, hreport⟩ := hreturned report heq
        exact ⟨_, hreport, hshows hok⟩
  have hincomplete : ¬ ∃ r, Shows k r w'.table ∧ r.status = statusCompleted := by
    rintro ⟨r, hshows, hstatus⟩
    rw [hfresh' r hshows] at hstatus
    exact absurd hstatus (by decide : statusSubmitted ≠ statusCompleted)
  rcases hend with ⟨report, rfl, rfl⟩ | ⟨_, ⟨left', rfl⟩ | hended⟩
  · obtain ⟨jobId, rfl, hjob⟩ := hreported report rfl
    have hid := hcarried _ _ rfl
    have hread : (carrying (jobReport jobId statusRunning 0 false 0 (backoffSeconds py env 0))).get
        ["job", "job_id"] = some jobId := rfl
    rw [hread, Option.some.injEq] at hid
    obtain ⟨hne, hshows⟩ := hjob hid
    subst hid
    refine ⟨.looping (.inl rfl) ⟨hne, hwatched, hshows, .inl rfl⟩ .fresh ?_ le_rfl hM, ?_⟩
    · rw [hcount']
      exact le_rfl
    · rintro (⟨data, left, hrunning⟩ | hcompleted)
      · cases hrunning
      · exact hincomplete hcompleted
  · refine ⟨.submitting hwatched hfresh' hcount', ?_⟩
    rintro (⟨data, left, hrunning⟩ | hcompleted)
    · cases hrunning
    · exact hincomplete hcompleted
  · refine ⟨.ended hended hwatched hbudget, ?_⟩
    rintro (⟨data, left, hrunning⟩ | hcompleted)
    · exact hended _ _ _ hrunning
    · exact hincomplete hcompleted

/-- A record that is not completed, of an execution that is not at its last task. -/
theorem not_completing (hshows : Shows k r c.world.table) (hstatus : r.status ≠ statusCompleted)
    (hrunning : ∀ data left, c.execution ≠ .running .finalize data left) : ¬ Completing k c := by
  rintro (⟨data, left, heq⟩ | ⟨r', hshows', hcompleted⟩)
  · exact hrunning data left heq
  · cases hshows.unique hshows'
    exact hstatus hcompleted

theorem polling_step {left : List Nat} {a p next : Int} (h : Tended k n fail r w)
    (hlawful : r.Lawful py n fail) (hcount : completedPolls log ≤ a) (ha : a ≤ r.attempts)
    (hbudget : a < env.maxAttempts py)
    (hstep : Step py env reads allowed
      ⟨.running .pollJob (carrying (jobReport (.str k) statusRunning a false p next)) left, w, log⟩ c') :
    Tracked py env k n fail input c' ∧ ¬ Completing k c' := by
  obtain ⟨calls, outcome, w', execution, hattempt, _, rfl, hend⟩ :=
    job_step (rfl : machine.states .pollJob = .task (jobTask .pollJob .evaluateJob)) hstep
  have hpolled : Polled py env reads k n fail r w outcome w' :=
    poll_attempt jobIdOf_carrying h.named h.shows h.watched.consistent hattempt
  obtain ⟨r', htended, hlawful', hle, hreported⟩ := polled_tended hpolled h hlawful
  have hne := hlawful'.ne_completed
  rcases hend with ⟨report, rfl, rfl⟩ | ⟨hnot, ⟨left', rfl⟩ | hended⟩
  · obtain ⟨a', p', ha', hlt, hstatus, rfl⟩ := hreported report rfl
    have hcount' : (completedPolls (log ++ [⟨.pollJob,
        carrying (jobReport (.str k) statusRunning a false p next), calls,
        .returned (pollReport py env k n fail a' p')⟩]) : Int) = completedPolls log + 1 := by
      rw [completedPolls_append rfl rfl]
      rfl
    refine ⟨.evaluating htended hlawful' ?_ ?_ ha' hstatus ⟨_, List.mem_append_right _ List.mem_cons_self,
      rfl, rfl⟩, not_completing htended.shows hne nofun⟩
    · rw [hcount']
      omega
    · rw [hcount']
      omega
  · refine ⟨.looping (.inr rfl) htended hlawful' ?_ (ha.trans hle) hbudget,
      not_completing htended.shows hne nofun⟩
    rw [completedPolls_append_failed hnot]
    exact hcount
  · refine ⟨.ended hended htended.watched ?_,
      not_completing htended.shows hne fun data left => hended _ data left⟩
    rw [completedPolls_append_failed hnot]
    omega

theorem evaluating_step {left : List Nat} {a p : Int} (h : Tended k n fail r w)
    (hlawful : r.Lawful py n fail) (hcount : completedPolls log ≤ a)
    (hbudget : completedPolls log ≤ env.maxAttempts py) (ha : r.attempts = a)
    (hstatus : r.status = pollStatus n fail a)
    (hreported : ∃ inv ∈ log, inv.state = .pollJob ∧
      inv.outcome = .returned (pollReport py env k n fail a p))
    (hstep : Step py env reads allowed
      ⟨.running .evaluateJob (carrying (pollReport py env k n fail a p)) left, w, log⟩ c') :
    Tracked py env k n fail input c' ∧ ¬ Completing k c' := by
  have hne := hlawful.ne_completed
  rcases evaluate_step hstep with ⟨next, hchoose, rfl⟩ | ⟨_, err, rfl⟩
  · rw [choose_poll, Option.some.injEq] at hchoose
    split_ifs at hchoose with hfail hn hexhausted
    · subst hchoose
      exact ⟨.ended ended_failed h.watched hbudget, not_completing h.shows hne nofun⟩
    · subst hchoose
      have hsucceeded : pollStatus n fail a = statusSucceeded :=
        pollStatus_eq_succeeded.mpr ⟨Bool.eq_false_iff.mpr hfail, hn⟩
      obtain ⟨inv, hmem, hstate, houtcome⟩ := hreported
      refine ⟨.signing h hbudget (hstatus.trans hsucceeded) ⟨inv, hmem, hstate, _, houtcome, rfl, ?_⟩,
        not_completing h.shows hne nofun⟩
      rw [← hsucceeded]
      rfl
    · subst hchoose
      exact ⟨.ended ended_failed h.watched hbudget, not_completing h.shows hne nofun⟩
    · subst hchoose
      rw [pollReport_running (Bool.eq_false_iff.mpr hfail) hn hexhausted]
      exact ⟨.looping (.inl rfl) h hlawful hcount (by omega) (by omega),
        not_completing h.shows hne nofun⟩
  · exact ⟨.ended ended_failed h.watched hbudget, not_completing h.shows hne nofun⟩

/-- A write that does not touch what the record describes. -/
theorem Tended.attachToken {token : Json} {answer : Except Exc Unit} {w' : World}
    (h : Tended k n fail r w) (hexec : exec py reads (.attachToken (.str k) token) w answer w') :
    Tended k n fail r w' := by
  rcases exec_attachToken h.named h.shows hexec with rfl | ⟨item, rfl, hitem⟩
  · exact ⟨h.named, h.watched.store_same rfl, h.shows, h.submitted⟩
  · exact h.write hitem rfl rfl .refl

theorem signing_step {left : List Nat} {a p : Int} (h : Tended k n fail r w)
    (hbudget : completedPolls log ≤ env.maxAttempts py) (hstatus : r.status = statusSucceeded)
    (hstep : Step py env reads allowed
      ⟨.running .requestSignoff (carrying (pollReport py env k n fail a p)) left, w, log⟩ c') :
    Tracked py env k n fail input c' ∧ (Completing k c' → Resumed
      ⟨.running .requestSignoff (carrying (pollReport py env k n fail a p)) left, w, log⟩ c') := by
  have hne : r.status ≠ statusCompleted := by
    rw [hstatus]
    decide
  rcases signoff_step hstep with
    ⟨err, rfl⟩ | ⟨token, calls, outcome, w', execution, hattempt, rfl, hend⟩
  · exact ⟨.ended ended_failed h.watched hbudget,
      fun hcompleting => absurd hcompleting (not_completing h.shows hne nofun)⟩
  have hid : jobIdOf (.obj [("task_token", token), ("job", pollReport py env k n fail a p)]) =
      .ok (.str k) := rfl
  have hasks := (requestSignoff_meets hid).calls hattempt.calls fun _ _ => trivial
  have htended : Tended k n fail r w' := by
    apply hattempt.effects.preserves _ h
    intro event hmem w₁ w₂ hw₁ hexec
    obtain ⟨op, answer⟩ := event
    obtain ⟨token, rfl⟩ := hasks.1 _ hmem
    exact hw₁.attachToken hexec
  have hcount : (completedPolls (log ++ [⟨.requestSignoff,
      .obj [("task_token", token), ("job", pollReport py env k n fail a p)], calls, outcome⟩]) : Int) ≤
      env.maxAttempts py := by
    rw [completedPolls_append_other (by simp)]
    exact hbudget
  rcases hend with ⟨result, left', rfl⟩ | hended
  · exact ⟨.finalizing htended hcount (.inl hstatus), fun _ => ⟨_, _, result, _, _, rfl, rfl, rfl⟩⟩
  · exact ⟨.ended hended htended.watched hcount, fun hcompleting => absurd hcompleting
      (not_completing htended.shows hne fun data left => hended _ data left)⟩

theorem finalizing_step {left : List Nat} {a p : Int} {result : Json} (h : Tended k n fail r w)
    (hbudget : completedPolls log ≤ env.maxAttempts py)
    (hstatus : r.status = statusSucceeded ∨ r.status = statusCompleted)
    (hstep : Step py env reads allowed
      ⟨.running .finalize (.obj [("job", pollReport py env k n fail a p), ("signoff", result)]) left,
        w, log⟩ c') :
    Tracked py env k n fail input c' := by
  obtain ⟨calls, outcome, w', execution, hattempt, rfl, hend⟩ := finalize_step hstep
  have hasks := (finalize_meets jobIdOf_carrying).calls hattempt.calls fun _ _ => trivial
  obtain ⟨r', htended, hstatus'⟩ : ∃ r', Tended k n fail r' w' ∧
      (r'.status = statusSucceeded ∨ r'.status = statusCompleted) := by
    apply hattempt.effects.preserves _ ⟨r, h, hstatus⟩
    intro event hmem w₁ w₂ hw₁ hexec
    obtain ⟨op, answer⟩ := event
    obtain ⟨r₁, hr₁, hstatus₁⟩ := hw₁
    cases (hasks.1 _ hmem : op = _)
    obtain ⟨_, item, rfl, hitem⟩ := exec_setStatus hr₁.named hr₁.shows rfl hexec
    refine ⟨_, hr₁.write hitem rfl rfl ⟨le_rfl, le_rfl, ?_⟩, .inr rfl⟩
    rcases hstatus₁ with heq | heq
    · rw [heq]
      exact .inr (by decide : (statusSucceeded, statusCompleted) ∈ statusChanges)
    · rw [heq]
      exact .inl rfl
  have hcount : (completedPolls (log ++ [⟨.finalize,
      .obj [("job", pollReport py env k n fail a p), ("signoff", result)], calls, outcome⟩]) : Int) ≤
      env.maxAttempts py := by
    rw [completedPolls_append_other (by simp)]
    exact hbudget
  rcases hend with ⟨left', rfl⟩ | hended
  · exact .finalizing htended hcount hstatus'
  · exact .ended hended htended.watched hcount

/-- Every step keeps the record and the execution together, and the job comes to its
    completion only through a sign-off. -/
theorem tracked_step (hM : 1 ≤ env.maxAttempts py)
    (hsimulation : ∀ v, simulation py (input.orElse (.obj [])) = .ok v → v = (n, fail))
    (hcarried : CarriesJob k c') (h : Tracked py env k n fail input c)
    (hstep : Step py env reads allowed c c') :
    Tracked py env k n fail input c' ∧
      (Completing k c' → Completing k c ∨ (Resumed c c' ∧ ComputedSuccess k c.log)) := by
  cases h with
  | submitting h hfresh hcount =>
      obtain ⟨htracked, hnot⟩ := submitting_step hM hsimulation hcarried h hfresh hcount hstep
      exact ⟨htracked, fun hcompleting => absurd hcompleting hnot⟩
  | looping hs h hlawful hcount ha hbudget =>
      rcases hs with rfl | rfl
      · have hne := hlawful.ne_completed
        rcases wait_step hstep with ⟨seconds, _, rfl⟩ | ⟨_, err, rfl⟩
        · exact ⟨.looping (.inr rfl) h hlawful hcount ha hbudget,
            fun hcompleting => absurd hcompleting (not_completing h.shows hne nofun)⟩
        · exact ⟨.ended ended_failed h.watched (by omega),
            fun hcompleting => absurd hcompleting (not_completing h.shows hne nofun)⟩
      · obtain ⟨htracked, hnot⟩ := polling_step h hlawful hcount ha hbudget hstep
        exact ⟨htracked, fun hcompleting => absurd hcompleting hnot⟩
  | evaluating h hlawful hcount hbudget ha hstatus hreported =>
      obtain ⟨htracked, hnot⟩ := evaluating_step h hlawful hcount hbudget ha hstatus hreported hstep
      exact ⟨htracked, fun hcompleting => absurd hcompleting hnot⟩
  | signing h hbudget hstatus hsuccess =>
      obtain ⟨htracked, hresumed⟩ := signing_step h hbudget hstatus hstep
      exact ⟨htracked, fun hcompleting => .inr ⟨hresumed hcompleting, hsuccess⟩⟩
  | finalizing h hbudget hstatus =>
      exact ⟨finalizing_step h hbudget hstatus hstep, fun _ => .inl (.inl ⟨_, _, rfl⟩)⟩
  | ended hended =>
      refine absurd hstep (Workflow.stuck_of_ended ?_ c')
      exact hended

/-! ## Runs -/

/-- What holds along a run of the record of job `k`. -/
structure LifecycleHolds (k : String) (maxAttempts : Int) (state : Nat → Config) : Prop where
  /-- The record is there or not, and it has come from its submission. -/
  recorded : ∀ i, ∀ t ∈ (state i).world.history,
    t k = none ∨ ∃ r, Shows k r t ∧ Forward statusSubmitted r.status
  ordered : ∀ i, Ordered k (state i).world.history
  signedOff : ∀ i r, Shows k r (state i).world.table → r.status = statusCompleted →
    ∃ j < i, Resumed (state j) (state (j + 1)) ∧ ComputedSuccess k (state j).log
  budget : ∀ i, completedPolls (state i).log ≤ maxAttempts

/-- In every run on a job without an earlier record, whatever attempts fail wherever,
    the record only moves forward, it is completed only after a poll found that the
    job succeeded and the gate was resumed, and the polls stay within their budget. -/
theorem lifecycle_holds (hM : 1 ≤ env.maxAttempts py) {w₀ : World}
    (hnew : ∀ t ∈ w₀.history, t k = none)
    (run : Transition.MaximalRun (Step py env .eventual fun _ => True)
      ((workflow py env .eventual).init input w₀))
    (hcarried : ∀ i, CarriesJob k (run.state i)) :
    LifecycleHolds k (env.maxAttempts py) run.state := by
  obtain ⟨n, fail, hsimulation⟩ : ∃ n fail, ∀ v, simulation py (input.orElse (.obj [])) = .ok v →
      v = (n, fail) := by
    cases simulation py (input.orElse (.obj [])) with
    | error e => exact ⟨0, false, nofun⟩
    | ok v => exact ⟨v.1, v.2, fun v' heq => (Except.ok.inj heq).symm⟩
  have habsent : ∀ r, ¬ Shows k r w₀.table := by
    rintro r ⟨item, hitem, _⟩
    rw [hnew w₀.table List.mem_cons_self] at hitem
    cases hitem
  have hpair : ∀ i, Tracked py env k n fail input (run.state i) ∧
      (Completing k (run.state i) →
        ∃ j < i, Resumed (run.state j) (run.state (j + 1)) ∧ ComputedSuccess k (run.state j).log) := by
    intro i
    induction i with
    | zero =>
        rw [run.start]
        refine ⟨.submitting ⟨fun t hmem => .inl (hnew t hmem), ?_⟩
          (fun r hr => absurd hr (habsent r)) rfl, ?_⟩
        · apply List.pairwise_of_forall_mem_list
          rintro later _ earlier hmem r ⟨item, hitem, _⟩
          rw [hnew earlier hmem] at hitem
          cases hitem
        · rintro (⟨data, left, hrunning⟩ | ⟨r, hr, _⟩)
          · cases hrunning
          · exact absurd hr (habsent r)
    | succ i ih =>
        obtain ⟨htracked, hearlier⟩ := ih
        rcases run.next i with hstep | ⟨_, hstay⟩
        · obtain ⟨htracked', hcompleting⟩ :=
            tracked_step hM hsimulation (hcarried (i + 1)) htracked hstep
          refine ⟨htracked', fun h => ?_⟩
          rcases hcompleting h with hbefore | hnow
          · obtain ⟨j, hj, hresumed⟩ := hearlier hbefore
            exact ⟨j, by omega, hresumed⟩
          · exact ⟨i, by omega, hnow⟩
        · rw [hstay]
          refine ⟨htracked, fun h => ?_⟩
          obtain ⟨j, hj, hresumed⟩ := hearlier h
          exact ⟨j, by omega, hresumed⟩
  have hwatched : ∀ i, Watched k n fail (run.state i).world ∧
      (completedPolls (run.state i).log : Int) ≤ env.maxAttempts py := by
    intro i
    have htracked := (hpair i).1
    generalize run.state i = c at htracked
    cases htracked with
    | submitting h _ hcount => exact ⟨h, by rw [hcount]; exact le_trans (by decide) hM⟩
    | looping _ h _ hcount _ hbudget => exact ⟨h.watched, hcount.trans hbudget.le⟩
    | evaluating h _ _ hbudget => exact ⟨h.watched, hbudget⟩
    | signing h hbudget => exact ⟨h.watched, hbudget⟩
    | finalizing h hbudget => exact ⟨h.watched, hbudget⟩
    | ended _ h hbudget => exact ⟨h, hbudget⟩
  constructor
  · intro i t hmem
    rcases (hwatched i).1.regular t hmem with hnone | ⟨r, hshows, _, _, hsubmitted⟩
    · exact .inl hnone
    · exact .inr ⟨r, hshows, hsubmitted⟩
  · exact fun i => (hwatched i).1.ordered
  · exact fun i r hshows hstatus => (hpair i).2 (.inr ⟨r, hshows, hstatus⟩)
  · exact fun i => (hwatched i).2

/-! ## A poll that is given up -/

instance : Decidable (CarriesJob k c) :=
  match h : c.execution with
  | .running .waitForJob data left =>
    decidable_of_iff (data.get ["job", "job_id"] = some (.str k)) (by
      constructor
      · rintro hread data' left' heq
        cases h.symm.trans heq
        exact hread
      · exact fun hcarries => hcarries data left h)
  | .running .submitJob .. | .running .pollJob .. | .running .evaluateJob .. |
    .running .requestSignoff .. | .running .finalize .. | .running .jobFailed .. |
    .running .jobTimedOut .. | .running .signoffTimedOut .. | .succeeded .. | .failed .. =>
    isTrue fun _ _ heq => by cases h.symm.trans heq

/-- The first poll is given up after it counted. The gate is resumed at once. -/
def firstPollLost (c : Config) : Workflow.Fate where
  context := .obj [("Task", .obj [("Token", .str "token-1")])]
  cut := if c.log.length = 1 then some 2 else none
  err := ⟨"Lambda.SdkClientException", ""⟩
  callback := .ok (.obj [("approved_by", .str "ops")])

/-- A job that succeeds on its second attempt, which is its first completed poll. -/
def retriedPoll : Nat → Config :=
  (workflow .sample sampleEnv .eventual).trajectory (answer .sample) firstPollLost
    ((workflow .sample sampleEnv .eventual).init (sampleInput 2) emptyWorld)

theorem retriedPoll_ends :
    (workflow .sample sampleEnv .eventual).advance (answer .sample) (firstPollLost (retriedPoll 7))
      (retriedPoll 7) = none :=
  Option.isNone_iff_eq_none.mp (by decide +kernel)

theorem retriedPoll_carries : ∀ i ≤ 7, CarriesJob "report-987" (retriedPoll i) := by
  decide +kernel

theorem lifecycle_holds_retriedPoll : LifecycleHolds "report-987" 20 retriedPoll := by
  have hnew : ∀ t ∈ emptyWorld.history, t "report-987" = none := by
    intro t hmem
    rw [List.mem_singleton.mp hmem]
    rfl
  apply lifecycle_holds (by decide) hnew
    (Workflow.scheduled (answer .sample) answer_exec firstPollLost
      ((workflow .sample sampleEnv .eventual).init (sampleInput 2) emptyWorld) 7
      (fun _ _ _ _ => trivial) retriedPoll_ends)
  intro i
  by_cases hi : i ≤ 7
  · exact retriedPoll_carries i hi
  · have hstay : retriedPoll i = retriedPoll 7 :=
      Workflow.trajectory_ended retriedPoll_ends (Nat.le_of_not_le hi)
    have hcarries := retriedPoll_carries 7 le_rfl
    rw [← hstay] at hcarries
    exact hcarries

end LongRunning
