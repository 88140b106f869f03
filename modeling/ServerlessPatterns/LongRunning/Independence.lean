-- SUMMARY: Executions for different jobs do not interfere, also when reads are stale: together they come to what each comes to alone.
import ServerlessPatterns.Library.Footprints
import ServerlessPatterns.LongRunning.Steps

/-!
# Independent jobs

Every call of the store is about one job, and the handlers call it about the job that the
execution was started for, as long as its input names one. What a read may answer, current
or stale, depends on the states that the record of this job has had, and on nothing else.
-/

namespace LongRunning

open Asl Program Workflow

variable {py : Python} {env : Env} {reads : Reads} {id other event report : Json} {w w' v : World}

/-! ## Operations -/

/-- The job that an operation is about. -/
def Op.subject : Op → Option Json
  | .create jobId .. => some jobId
  | .get jobId => some jobId
  | .incrementAttempt jobId => some jobId
  | .updateProgress jobId .. => some jobId
  | .setStatus jobId _ => some jobId
  | .attachToken jobId _ => some jobId
  | .newId _ => none

/-- The record of a job, and all that it has ever been. -/
def World.record (id : Json) (w : World) : Option Json × Set (Option Json) :=
  (w.table.item id, {item | ∃ t ∈ w.history, t.item id = item})

theorem record_store {table : Table} :
    (w.store table).record id = (table.item id, insert (table.item id) (w.record id).2) := by
  refine Prod.ext rfl (Set.ext fun item => ?_)
  constructor
  · rintro ⟨t, hmem, rfl⟩
    rw [World.store_history] at hmem
    rcases List.mem_cons.mp hmem with rfl | hold
    · exact Set.mem_insert _ _
    · exact Set.mem_insert_of_mem _ ⟨t, hold, rfl⟩
  · intro hmem
    rcases Set.mem_insert_iff.mp hmem with rfl | ⟨t, hold, rfl⟩
    · exact ⟨table, List.mem_cons_self, rfl⟩
    · exact ⟨t, List.mem_cons_of_mem _ hold, rfl⟩

/-- A record that a write leaves alone has been what it is before. -/
theorem record_store_same {table : Table} (h : table.item id = w.table.item id) :
    (w.store table).record id = w.record id := by
  have hmem : w.table.item id ∈ (w.record id).2 := ⟨w.table, List.mem_cons_self, rfl⟩
  rw [record_store, h, Set.insert_eq_of_mem hmem]
  rfl

theorem get_congr {table table' : Table} (h : table'.item id = table.item id) :
    JobStore.get id table' = JobStore.get id table := by
  cases id with
  | str k =>
      have hread : table' k = table k := h
      unfold JobStore.get Table.getItem
      cases hkey : Table.keyOf (.str k) with
      | error e => rfl
      | ok k' =>
          obtain rfl := Json.str.inj (Table.keyOf_eq_ok hkey).1
          simp only [Except.map, hread]
  | _ => rfl

/-- A read can be answered alike wherever the record has the same history. -/
theorem visible_congr {table : Table} (hview : v.record id = w.record id) (h : table ∈ reads.visible w) :
    ∃ table' ∈ reads.visible v, table'.item id = table.item id := by
  cases reads with
  | current =>
      obtain rfl := List.mem_singleton.mp h
      exact ⟨v.table, List.mem_cons_self, congrArg Prod.fst hview⟩
  | eventual =>
      have hpast : table.item id ∈ (v.record id).2 := hview ▸ ⟨table, h, rfl⟩
      exact hpast

/-- A method of the store, whatever the clock shows. -/
theorem writes_about {α : Type} {method : Clock → Table → Except Exc α × Table} {answer : Except Exc α}
    (hacts : ∀ clock, Table.ActsOn id (method clock)) (h : Writes method w answer w') :
    ∃ m : Table → Except Exc α × Table, Table.ActsOn id m ∧ answer = (m w.table).1 ∧
      w' = w.store (m w.table).2 ∧ ∀ v : World, Writes method v (m v.table).1 (v.store (m v.table).2) := by
  obtain ⟨clock, hanswer, hw'⟩ := h
  exact ⟨method clock, hacts clock, hanswer, hw', fun v => ⟨clock, rfl, rfl⟩⟩

theorem setAttributes_actsOn {clauses : List (Json.Path × Operand)} :
    Table.ActsOn id (JobStore.setAttributes id clauses) :=
  (Table.actsOn_updateItem ..).map fun answer => (answer.mapError DbError.exc).map fun _ => ()

/-- An operation on a job is a method that acts on its record, or it reads the record. -/
theorem exec_about {op : Op} {answer : Ans op} (hsubject : op.subject = some id)
    (h : exec py reads op w answer w') :
    (∃ method : Table → Ans op × Table, Table.ActsOn id method ∧ answer = (method w.table).1 ∧
      w' = w.store (method w.table).2 ∧
      ∀ v : World, exec py reads op v (method v.table).1 (v.store (method v.table).2)) ∨
    (w' = w ∧ ∀ v : World, v.record id = w.record id → exec py reads op v answer v) := by
  cases op with
  | create jobId n fail payload ttl =>
      obtain rfl := Option.some.inj hsubject
      refine .inl (writes_about (fun clock => ?_) h)
      have hkey : (JobStore.newItem clock jobId n fail payload ttl).field "job_id" = some jobId := rfl
      exact (Table.actsOn_putItem hkey).map fun answer => answer.mapError DbError.exc
  | get jobId =>
      obtain rfl := Option.some.inj hsubject
      obtain ⟨rfl, table, hmem, rfl⟩ := h
      refine .inr ⟨rfl, fun v hview => ?_⟩
      obtain ⟨table', hmem', hsame⟩ := visible_congr hview hmem
      exact ⟨rfl, table', hmem', (get_congr hsame).symm⟩
  | incrementAttempt jobId =>
      obtain rfl := Option.some.inj hsubject
      refine .inl (writes_about (fun clock => ?_) h)
      exact (Table.actsOn_updateItem ..).map fun answer => (answer.mapError DbError.exc).bind fun item =>
        py.int ((item.get ["attempts"]).getD .null)
  | updateProgress jobId status progress =>
      obtain rfl := Option.some.inj hsubject
      exact .inl (writes_about (fun _ => setAttributes_actsOn) h)
  | setStatus jobId status =>
      obtain rfl := Option.some.inj hsubject
      exact .inl (writes_about (fun _ => setAttributes_actsOn) h)
  | attachToken jobId token =>
      obtain rfl := Option.some.inj hsubject
      exact .inl (writes_about (fun _ => setAttributes_actsOn) h)
  | newId idPrefix => cases hsubject

/-- The table and its past, record by record. -/
def records (py : Python) (reads : Reads) :
    Footprint (exec py reads) Json (Option Json × Set (Option Json)) where
  view := World.record
  touches id op := ∀ id' ∈ op.subject, id' = id
  frame := by
    intro id other op w answer w' htouches hexec hne
    cases hsubject : op.subject with
    | none =>
        cases op <;> cases hsubject
        obtain ⟨rfl, _⟩ := hexec
        rfl
    | some id' =>
        obtain rfl := htouches id' hsubject
        rcases exec_about hsubject hexec with ⟨method, hacts, _, rfl, _⟩ | ⟨rfl, _⟩
        · exact record_store_same (hacts.frame w.table hne)
        · rfl
  transfer := by
    intro id op w answer w' v htouches hexec hview
    cases hsubject : op.subject with
    | none =>
        cases op <;> cases hsubject
        obtain ⟨rfl, hid⟩ := hexec
        exact ⟨v, ⟨rfl, hid⟩, hview⟩
    | some id' =>
        obtain rfl := htouches id' hsubject
        rcases exec_about hsubject hexec with ⟨method, hacts, rfl, rfl, hexec'⟩ | ⟨rfl, hexec'⟩
        · obtain ⟨hanswer, hitem⟩ := hacts.congr (congrArg Prod.fst hview)
          refine ⟨v.store (method v.table).2, hanswer ▸ hexec' v, ?_⟩
          rw [record_store, record_store, hitem, hview]
        · exact ⟨v, hexec' v hview, hview⟩

/-! ## Handlers -/

/-- The input asks for a job by its id. -/
def Names (input id : Json) : Prop :=
  Python.get (input.orElse (.obj [])) "job_id" = .ok id ∧ id.truthy = true

/-- A handler that keeps to one record. -/
abbrev KeepsTo (py : Python) (reads : Reads) (id : Json) (post : Json → Prop) (p : Handler Json) : Prop :=
  p.Meets ((records py reads).touches id) (fun _ _ => True) (fun _ => True) post

theorem touches_about {op : Op} (h : op.subject = some id) : (records py reads).touches id op :=
  fun _ hmem => (Option.some.inj (h.symm.trans hmem)).symm

/-- A report on the job. -/
def ReportOn (id report : Json) : Prop :=
  ∃ status attempt exhausted progress next,
    report = jobReport id status attempt exhausted progress next

theorem ReportOn.jobIdOf {rest : List (String × Json)} (h : ReportOn id report) :
    jobIdOf (.obj (("job", report) :: rest)) = .ok id := by
  obtain ⟨status, attempt, exhausted, progress, next, rfl⟩ := h
  exact jobIdOf_carrying

theorem submitJob_keeps (h : Names event id) :
    KeepsTo py reads id (ReportOn id) (submitJob py env event) := by
  rw [submitJob_eq, h.1]
  simp only [ofExcept_ok, ret_bind, h.2, if_true]
  refine meets_any.bind fun simulated _ => meets_any.bind fun payload _ => ?_
  exact meets_call (touches_about rfl) fun _ _ => meets_any.bind fun _ _ => meets_ret ⟨_, _, _, _, _, rfl⟩

theorem pollJob_keeps (h : jobIdOf event = .ok id) :
    KeepsTo py reads id (ReportOn id) (pollJob py env event) := by
  unfold pollJob
  rw [h]
  simp only [ofExcept_ok, ret_bind]
  split_ifs
  · exact meets_raise trivial
  refine Meets.bind (meets_call (touches_about rfl) fun _ _ => meets_any) fun found _ => ?_
  cases found with
  | none => exact meets_raise trivial
  | some record =>
      refine Meets.bind (meets_call (touches_about rfl) fun _ _ => meets_any) fun attempt _ => ?_
      refine meets_any.bind fun stored _ => meets_any.bind fun succeedAfter _ =>
        meets_any.bind fun failJob _ => meets_any.bind fun progress _ => ?_
      exact meets_call (touches_about rfl) fun _ _ => meets_any.bind fun _ _ =>
        meets_ret ⟨_, _, _, _, _, rfl⟩

theorem requestSignoff_keeps (h : jobIdOf event = .ok id) :
    KeepsTo py reads id (fun _ => True) (requestSignoff event) := by
  unfold requestSignoff
  refine meets_any.bind fun token _ => ?_
  rw [h]
  simp only [ofExcept_ok, ret_bind]
  split_ifs
  · exact meets_raise trivial
  · exact meets_raise trivial
  · exact meets_call (touches_about rfl) fun _ _ => meets_any.bind fun _ _ => meets_ret trivial

theorem finalize_keeps (h : jobIdOf event = .ok id) :
    KeepsTo py reads id (fun _ => True) (finalize event) := by
  unfold finalize
  rw [h]
  simp only [ofExcept_ok, ret_bind]
  split_ifs
  · exact meets_raise trivial
  · exact meets_any.bind fun signoff _ => meets_call (touches_about rfl) fun _ _ =>
      meets_any.bind fun _ _ => meets_any.bind fun _ _ => meets_ret trivial

/-! ## Executions -/

/-- An execution that is about the job: its input names it, or its state data carry a report
    on it. -/
inductive About (id : Json) : Execution StateName → Prop where
  | submitting {input left} (h : Names input id) : About id (.running .submitJob input left)
  | working {s report left} (hs : s ∈ [.waitForJob, .pollJob, .evaluateJob, .requestSignoff])
      (h : ReportOn id report) : About id (.running s (carrying report) left)
  | finalizing {report result left} (h : ReportOn id report) :
      About id (.running .finalize (.obj [("job", report), ("signoff", result)]) left)
  | ended {e} (h : Ended e) : About id e

theorem About.enter {s : StateName} (hs : s ∈ [.waitForJob, .requestSignoff, .jobFailed, .jobTimedOut])
    (h : ReportOn id report) : About id (machine.enter s (carrying report)) := by
  simp only [List.mem_cons, List.not_mem_nil, or_false] at hs
  rcases hs with rfl | rfl | rfl | rfl
  · exact .working (by decide) h
  · exact .working (by decide) h
  · exact .ended ended_failed
  · exact .ended ended_failed

theorem About.move {e e' : Execution StateName} (h : About id e) (hmove : machine.Moves e e') :
    About id e' := by
  cases hmove with
  | passError => exact .ended nofun
  | routeError => exact .ended nofun
  | eventError => exact .ended nofun
  | @pass s result path next data left data' hstate hput => cases s <;> cases hstate
  | @route s next data left hroute =>
      cases h with
      | submitting => cases hroute
      | finalizing => cases hroute
      | ended hended => exact absurd rfl (hended s data left)
      | @working _ report _ hs h =>
          simp only [List.mem_cons, List.not_mem_nil, or_false] at hs
          rcases hs with rfl | rfl | rfl | rfl
          · obtain ⟨_, _, rfl⟩ := Option.map_eq_some_iff.mp (Option.some.inj hroute)
            exact .working (by decide) h
          · cases hroute
          · have hnext := choose_mem (Option.some.inj hroute)
            refine .enter ?_ h
            simp only [evaluateJobRules, List.map_cons, List.map_nil, List.mem_cons, List.not_mem_nil,
              or_false] at hnext ⊢
            exact hnext
          · cases hroute

/-- A task that fails is tried again where it was, or the execution ends. -/
theorem About.fault {s : StateName} {t : Task StateName Function} {data : Json} {left : List Nat}
    {err : TaskError} (h : About id (.running s data left)) (hstate : machine.states s = .task t) :
    About id (machine.fault s t data left err) := by
  rcases fault_ends hstate with ⟨left', heq⟩ | hended
  · rw [heq]
    cases h with
    | submitting h => exact .submitting h
    | working hs h => exact .working hs h
    | finalizing h => exact .finalizing h
    | ended hended => exact absurd rfl (hended s data left)
  · exact .ended hended

theorem About.signed {context : Json} {left : List Nat} {result : Except TaskError Json}
    (h : ReportOn id report) :
    About id (machine.resume .requestSignoff requestSignoffTask context (carrying report) left result) := by
  rcases signoff_resume context report left result with ⟨v, left', heq⟩ | hended
  · rw [heq]
    exact .finalizing h
  · exact .ended hended

/-- What a task is reported with leads on about the same job. -/
theorem About.invoke {s : StateName} {t : Task StateName Function} {context data : Json} {left : List Nat}
    (h : About id (.running s data left)) (hstate : machine.states s = .task t)
    (hevent : t.event context data = some event) :
    KeepsTo py reads id (fun a => ∀ report, Reported t (.returned a) report →
      About id (machine.resume s t context data left report)) (function py env t.resource event) := by
  cases h with
  | submitting h =>
      cases hstate
      cases hevent
      refine (submitJob_keeps h).mono (fun _ h => h) fun a hreport result hresult => ?_
      cases hresult.ok (by decide)
      exact .working (by decide) hreport
  | @working _ report _ hs h =>
      simp only [List.mem_cons, List.not_mem_nil, or_false] at hs
      rcases hs with rfl | rfl | rfl | rfl
      · cases hstate
      · cases hstate
        cases hevent
        refine (pollJob_keeps h.jobIdOf).mono (fun _ h => h) fun a hreport result hresult => ?_
        cases hresult.ok (by decide)
        exact .working (by decide) hreport
      · cases hstate
      · cases hstate
        obtain ⟨token, rfl⟩ := signoff_event hevent
        have hcarried : jobIdOf (carrying report) = .ok id := h.jobIdOf
        have hid : jobIdOf (.obj [("task_token", token), ("job", report)]) = .ok id := hcarried
        exact (requestSignoff_keeps hid).mono (fun _ h => h) fun _ _ _ _ => .signed h
  | finalizing h =>
      cases hstate
      cases hevent
      refine (finalize_keeps h.jobIdOf).mono (fun _ h => h) fun a _ result hresult => ?_
      cases hresult.ok (by decide)
      exact .ended (by rw [Machine.resume]; exact finalize_ends)
  | ended hended => exact absurd rfl (hended s data left)

/-- The handlers keep to the record of the job that their execution is about. -/
def confined (py : Python) (env : Env) (reads : Reads) :
    Confinement (workflow py env reads) (records py reads) where
  expected _ _ := True
  answered _ := trivial
  about := About
  move := About.move
  invoke := About.invoke
  fault := by
    intro id s t context data left outcome report h hstate hnot hreport
    by_cases htoken : t.integration = .invokeWaitForTaskToken
    · have hs : s = .requestSignoff := by
        cases s <;> cases hstate <;> first | rfl | cases htoken
      subst hs
      cases hstate
      cases h with
      | working _ h => exact .signed h
      | ended hended => exact absurd rfl (hended _ _ _)
    · obtain ⟨err, rfl⟩ := hreport.error htoken hnot
      exact h.fault hstate

/-- Executions for different jobs, with their late attempts, their stale reads and in any
    interleaving, come to exactly the sessions and records that each of them comes to alone.
    No other record changes. -/
theorem jobs_independent {ι : Type} [DecidableEq ι] [Fintype ι] {input : ι → Json} {job : ι → Json}
    (hnamed : ∀ i, Names (input i) (job i)) (hdistinct : Function.Injective job) {w₀ : World}
    {session : ι → Session StateName Op Ans} {x : Json → Option Json × Set (Option Json)} :
    (∃ w, Together (workflow py env reads) input w₀ ⟨w, session⟩ ∧ ∀ id, w.record id = x id) ↔
      (∀ id, (∀ i, job i ≠ id) → x id = w₀.record id) ∧
      ∀ i, ∃ w, Alone (workflow py env reads) (input i) w₀ (session i) w ∧
        w.record (job i) = x (job i) := by
  have hstart : ∀ i, (confined py env reads).about (job i) (machine.start (input i)) :=
    fun i => .submitting (hnamed i)
  exact Confinement.together_iff_alone hdistinct hstart

def jobNamed (second : Bool) : Json := .str (if second then "job-2" else "job-1")

/-- Jobs that succeed at the first and at the second poll. -/
def twoJobs (second : Bool) : Json :=
  .obj [("job_id", jobNamed second), ("succeed_after_attempts", .num (.int (if second then 2 else 1)))]

/-- The execution waits for the sign-off. -/
def atGate : Execution StateName → Bool
  | .running .requestSignoff _ _ => true
  | _ => false

/-- Two jobs that are polled in turns come to the gate as if each were the only one. -/
theorem jobs_independent_twoJobs : ∃ sys : System Bool StateName Op Ans World,
    (∀ second, atGate (sys.session second).execution = true) ∧
    ∀ second, ∃ w, Alone (workflow .sample sampleEnv .eventual) (twoJobs second) emptyWorld
      (sys.session second) w ∧ w.record (jobNamed second) = sys.world.record (jobNamed second) := by
  have hnamed : ∀ second, Names (twoJobs second) (jobNamed second) := by
    intro second
    cases second <;> exact ⟨rfl, rfl⟩
  have hdistinct : Function.Injective jobNamed := by decide +kernel
  have hrun : ((System.run (workflow .sample sampleEnv .eventual) (answer .sample) (fun _ _ _ _ => true)
      (.init (workflow .sample sampleEnv .eventual) twoJobs emptyWorld)
      ((List.range 10).flatMap (fun _ => [.go false, .go true]) ++ System.goOn true 7)).any fun sys =>
        decide (∀ second, atGate (sys.session second).execution = true)) = true := by
    decide +kernel
  obtain ⟨sys, hreach, hgate⟩ := System.exists_of_run answer_exec (fun _ _ _ _ _ => trivial) hrun
  exact ⟨sys, of_decide_eq_true hgate,
    ((jobs_independent hnamed hdistinct).mp ⟨sys.world, hreach, fun _ => rfl⟩).2⟩

end LongRunning
