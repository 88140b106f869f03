-- SUMMARY: The poll budget of every one of many executions that may share a job id, as long as no job is submitted anew after it was polled.
import ServerlessPatterns.Library.RelyGuarantee
import ServerlessPatterns.LongRunning.Lifecycle

/-!
# The poll budget

An execution stops polling by the counter in the record of its job, which it shares
with every other execution that was given the same job id. What all of them rely on is
that the counter never falls. Then it is at least the number of polls that any one of
them has completed. `create` breaks this: it puts a new record over one that counts.
-/

namespace LongRunning

open Asl Program Workflow

variable {py : Python} {env : Env} {reads : Reads} {k : String} {n : Int} {fail : Bool}
  {r r' : JobRecord} {event data : Json} {w w' : World} {table : Table} {log : List Attempted}
  {e e' : Execution StateName} {polls : Nat}

/-! ## What everyone relies on -/

/-- A job that has got as far as to have a result was polled. -/
structure JobRecord.Sound (r : JobRecord) : Prop where
  nonneg : 0 ≤ r.attempts
  polled : r.status = statusSucceeded ∨ r.status = statusCompleted → 1 ≤ r.attempts

theorem JobRecord.Sound.fresh : (JobRecord.fresh n fail).Sound :=
  ⟨le_rfl, fun h => absurd h (by decide : ¬ (statusSubmitted = statusSucceeded ∨
    statusSubmitted = statusCompleted))⟩

/-- The counter does not fall, and a job that was polled does not look as if it was
    only just submitted. -/
structure JobRecord.Grows (r r' : JobRecord) : Prop where
  attempts : r.attempts ≤ r'.attempts
  status : 1 ≤ r.attempts → r.status ≠ statusSubmitted → r'.status ≠ statusSubmitted

theorem JobRecord.Grows.refl : r.Grows r := ⟨le_rfl, fun _ h => h⟩

theorem JobRecord.Grows.trans {r'' : JobRecord} (h : r.Grows r') (h' : r'.Grows r'') : r.Grows r'' :=
  ⟨h.attempts.trans h'.attempts, fun hpolled hstatus =>
    h'.status (hpolled.trans h.attempts) (h.status hpolled hstatus)⟩

def Sound (table : Table) : Prop := ∀ k, table k = none ∨ ∃ r, Shows k r table ∧ r.Sound

/-- What every operation keeps of the table. -/
structure Keeps (w w' : World) : Prop where
  sound : Sound w.table → Sound w'.table
  grows : ∀ k r, Shows k r w.table → ∃ r', Shows k r' w'.table ∧ r.Grows r'

theorem Keeps.refl : Keeps w w := ⟨id, fun _ r h => ⟨r, h, .refl⟩⟩

theorem Keeps.trans {w'' : World} (h : Keeps w w') (h' : Keeps w' w'') : Keeps w w'' where
  sound hsound := h'.sound (h.sound hsound)
  grows k r hr := by
    obtain ⟨r', hr', hgrows⟩ := h.grows k r hr
    obtain ⟨r'', hr'', hgrows'⟩ := h'.grows k r' hr'
    exact ⟨r'', hr'', hgrows.trans hgrows'⟩

theorem Keeps.same : Keeps w (w.store w.table) := ⟨id, fun _ r h => ⟨r, h, .refl⟩⟩

/-- Writing a record that has grown from the one before. -/
theorem Keeps.write {item : Json} (hitem : r'.Describes item)
    (hsound : Sound w.table → r'.Sound) (hgrows : ∀ r, Shows k r w.table → r.Grows r') :
    Keeps w (w.store (w.table.write k item)) := by
  have hwritten : Shows k r' (w.table.write k item) := ⟨item, Table.write_self, hitem⟩
  constructor
  · intro hall k'
    by_cases hk : k' = k
    · subst hk
      exact .inr ⟨r', hwritten, hsound hall⟩
    · have hsame : (w.table.write k item) k' = w.table k' := Table.write_ne hk
      cases hall k' with
      | inl hnone => exact .inl (hsame.trans hnone)
      | inr hfound =>
          obtain ⟨r, ⟨item', hread, hdescribes⟩, hr⟩ := hfound
          exact .inr ⟨r, ⟨item', hsame.trans hread, hdescribes⟩, hr⟩
  · intro k' r hr
    by_cases hk : k' = k
    · subst hk
      exact ⟨r', hwritten, hgrows r hr⟩
    · obtain ⟨item', hread, hdescribes⟩ := hr
      exact ⟨r, ⟨item', (Table.write_ne hk).trans hread, hdescribes⟩, .refl⟩

theorem Sound.record (h : Sound table) (hr : Shows k r table) : r.Sound := by
  cases h k with
  | inl hnone =>
      obtain ⟨item, hitem, _⟩ := hr
      rw [hitem] at hnone
      cases hnone
  | inr hfound =>
      obtain ⟨r', hr', hsound⟩ := hfound
      cases hr.unique hr'
      exact hsound

/-- The job's record counts at least `n` polls. -/
def Counted (k : String) (n : Int) (w : World) : Prop := ∃ r, Shows k r w.table ∧ n ≤ r.attempts

theorem Counted.stable (h : Counted k n w) (hkeeps : Keeps w w') : Counted k n w' := by
  obtain ⟨r, hr, hle⟩ := h
  obtain ⟨r', hr', hgrows⟩ := hkeeps.grows k r hr
  exact ⟨r', hr', hle.trans hgrows.attempts⟩

theorem Counted.mono {m : Int} (h : Counted k n w) (hle : m ≤ n) : Counted k m w := by
  obtain ⟨r, hr, hn⟩ := h
  exact ⟨r, hr, hle.trans hn⟩

/-- The operation creates no job whose record counts polls already. -/
def Unpolled : Op → World → Prop
  | .create (.str k) .., w => ∀ item ∈ w.table k, item.get ["attempts"] = some (.num (.decimal 0))
  | _, _ => True

instance {op : Op} : Decidable (Unpolled op w) := by
  unfold Unpolled
  split <;> infer_instance

def discipline (py : Python) (reads : Reads) : Discipline (exec py reads) where
  allowed := Unpolled
  ready _ _ := True
  rely := Keeps
  refl _ := .refl
  trans := .trans

/-! ## Operations -/

theorem create_keeps {jobId payload : Json} {ttl : Option Int} {answer : Except Exc Unit}
    (hunpolled : Unpolled (.create jobId n fail payload ttl) w)
    (h : exec py reads (.create jobId n fail payload ttl) w answer w') :
    Keeps w w' ∧ (answer = .ok () → ∃ k, jobId = .str k ∧ k ≠ "" ∧ Counted k 0 w') := by
  rcases exec_create h with ⟨e, rfl, rfl⟩ | ⟨k, item, rfl, hne, rfl, rfl, hitem⟩
  · exact ⟨.same, nofun⟩
  · refine ⟨.write hitem (fun _ => .fresh) ?_,
      fun _ => ⟨k, rfl, hne, _, ⟨item, Table.write_self, hitem⟩, le_rfl⟩⟩
    rintro r ⟨old, hold, hdescribes⟩
    have hzero := hdescribes.attempts.symm.trans (hunpolled old hold)
    simp only [Option.some.injEq, Json.num.injEq, Number.decimal.injEq, Int.cast_eq_zero] at hzero
    exact ⟨hzero.le, fun hpolled => by omega⟩

theorem incrementAttempt_keeps {answer : Except Exc Int} (hne : k ≠ "") (hcounted : Counted k n w)
    (h : exec py reads (.incrementAttempt (.str k)) w answer w') :
    Keeps w w' ∧ ∃ a, answer = .ok a ∧ n < a ∧ Counted k a w' := by
  obtain ⟨r, hr, hle⟩ := hcounted
  obtain ⟨rfl, item, rfl, hitem⟩ := exec_incrementAttempt hne hr h
  refine ⟨.write hitem (fun hsound => ?_) ?_, r.attempts + 1, rfl, by omega, _,
    ⟨item, Table.write_self, hitem⟩, le_rfl⟩
  · have hnonneg := (hsound.record hr).nonneg
    exact ⟨by simp only; omega, fun _ => by simp only; omega⟩
  · intro r₀ hr₀
    cases hr.unique hr₀
    exact ⟨by simp only; omega, fun _ hstatus => hstatus⟩

/-- A write of the status of a job that was polled. -/
theorem status_keeps {item : Json} (hr : Shows k r w.table) (hpolled : 1 ≤ r.attempts)
    (hitem : r'.Describes item) (hattempts : r'.attempts = r.attempts)
    (hstatus : r'.status ≠ statusSubmitted) : Keeps w (w.store (w.table.write k item)) := by
  refine .write hitem (fun hsound => ⟨?_, fun _ => ?_⟩) ?_
  · rw [hattempts]
    exact (hsound.record hr).nonneg
  · rw [hattempts]
    exact hpolled
  · intro r₀ hr₀
    cases hr.unique hr₀
    exact ⟨hattempts.ge, fun _ _ => hstatus⟩

theorem updateProgress_keeps {a p : Int} {answer : Except Exc Unit} (hne : k ≠ "")
    (hcounted : Counted k 1 w)
    (h : exec py reads (.updateProgress (.str k) (pollStatus n fail a) p) w answer w') : Keeps w w' := by
  obtain ⟨r, hr, hpolled⟩ := hcounted
  obtain ⟨_, item, rfl, hitem⟩ := exec_updateProgress hne hr pollStatus_hasFloat h
  apply status_keeps hr hpolled hitem rfl
  show pollStatus n fail a ≠ statusSubmitted
  unfold pollStatus
  split_ifs <;> decide

theorem setStatus_keeps {answer : Except Exc Unit} (hne : k ≠ "") (hcounted : Counted k 1 w)
    (h : exec py reads (.setStatus (.str k) statusCompleted) w answer w') : Keeps w w' := by
  obtain ⟨r, hr, hpolled⟩ := hcounted
  obtain ⟨_, item, rfl, hitem⟩ := exec_setStatus hne hr rfl h
  exact status_keeps hr hpolled hitem rfl (by decide : statusCompleted ≠ statusSubmitted)

theorem attachToken_keeps {token : Json} {answer : Except Exc Unit} (hne : k ≠ "")
    (hcounted : Counted k n w) (h : exec py reads (.attachToken (.str k) token) w answer w') :
    Keeps w w' := by
  obtain ⟨r, hr, _⟩ := hcounted
  rcases exec_attachToken hne hr h with rfl | ⟨item, rfl, hitem⟩
  · exact .same
  · refine .write hitem (fun hsound => hsound.record hr) ?_
    intro r₀ hr₀
    cases hr.unique hr₀
    exact .refl

/-! ## Handlers -/

theorem createJob_assured {jobId : Json} :
    (discipline py reads).Assured (fun report w' => ∃ k, k ≠ "" ∧ Counted k 0 w' ∧
      report = jobReport (.str k) statusRunning 0 false 0 (backoffSeconds py env 0))
      (createJob py env event jobId) w := by
  unfold createJob
  apply Discipline.assured_ofExcept_bind
  intro simulated _
  apply Discipline.assured_ofExcept_bind
  intro payload _ w₁ _
  refine ⟨trivial, fun hunpolled answer w₂ hexec => ?_⟩
  obtain ⟨hkeeps, hcreated⟩ := create_keeps hunpolled hexec
  refine ⟨hkeeps, ?_⟩
  cases answer with
  | error e => trivial
  | ok =>
      obtain ⟨k, rfl, hne, hcounted⟩ := hcreated rfl
      exact fun w₃ hrely => ⟨k, hne, hcounted.stable hrely, rfl⟩

theorem submitJob_assured :
    (discipline py reads).Assured (fun report w' => ∃ k, k ≠ "" ∧ Counted k 0 w' ∧
      report = jobReport (.str k) statusRunning 0 false 0 (backoffSeconds py env 0))
      (submitJob py env event) w := by
  rw [submitJob_eq]
  apply Discipline.assured_ofExcept_bind
  intro given _
  split_ifs
  · exact createJob_assured
  · intro w₁ _
    refine ⟨trivial, fun _ id w₂ hexec => ?_⟩
    obtain ⟨rfl, _⟩ := hexec
    exact ⟨.refl, createJob_assured⟩

/-- What a poll reports is above what was counted before. -/
theorem pollJob_assured (hid : jobIdOf event = .ok (.str k)) (hne : k ≠ "") (h0 : 0 ≤ n)
    (hcounted : Counted k n w) :
    (discipline py reads).Assured (fun report w' => ∃ m fail a p, n < a ∧ Counted k a w' ∧
      report = pollReport py env k m fail a p) (pollJob py env event) w := by
  rw [pollJob_eq hid hne]
  intro w₁ hrely₁
  refine ⟨trivial, fun _ answer w₂ hexec => ?_⟩
  obtain ⟨rfl, _⟩ := hexec
  refine ⟨.refl, ?_⟩
  -- Nothing is to be known of what was read but that something was.
  rcases answer with e | _ | record
  · trivial
  · trivial
  · intro w₂ hrely₂
    refine ⟨trivial, fun _ answer w₃ hincrement => ?_⟩
    obtain ⟨hkeeps₃, a, rfl, hlt, hcounted₃⟩ :=
      incrementAttempt_keeps hne ((hcounted.stable hrely₁).stable hrely₂) hincrement
    refine ⟨hkeeps₃, ?_⟩
    simp only [ofExcept_ok, ret_bind]
    apply Discipline.assured_ofExcept_bind
    intro stored _
    apply Discipline.assured_ofExcept_bind
    intro m _
    apply Discipline.assured_ofExcept_bind
    intro failJob _
    apply Discipline.assured_ofExcept_bind
    intro p _ w₄ hrely₄
    have hcounted₄ := hcounted₃.stable hrely₄
    refine ⟨trivial, fun _ answer w₅ hupdate => ?_⟩
    have hkeeps₅ := updateProgress_keeps hne (hcounted₄.mono (by omega)) hupdate
    refine ⟨hkeeps₅, ?_⟩
    apply Discipline.assured_ofExcept_bind
    intro _ _ w₆ hrely₆
    exact ⟨m, failJob.truthy, a, p, hlt, (hcounted₄.stable hkeeps₅).stable hrely₆, rfl⟩

theorem requestSignoff_assured (hid : jobIdOf event = .ok (.str k)) (hne : k ≠ "")
    (hcounted : Counted k n w) :
    (discipline py reads).Assured (fun _ w' => Counted k n w') (requestSignoff event) w := by
  unfold requestSignoff
  apply Discipline.assured_ofExcept_bind
  intro token _
  rw [hid]
  simp only [ofExcept_ok, ret_bind]
  split_ifs
  · trivial
  · trivial
  · intro w₁ hrely₁
    have hcounted₁ := hcounted.stable hrely₁
    refine ⟨trivial, fun _ answer w₂ hexec => ?_⟩
    have hkeeps₂ := attachToken_keeps hne hcounted₁ hexec
    refine ⟨hkeeps₂, ?_⟩
    apply Discipline.assured_ofExcept_bind
    intro _ _ w₃ hrely₃
    exact (hcounted₁.stable hkeeps₂).stable hrely₃

theorem finalize_assured (hid : jobIdOf event = .ok (.str k)) (hne : k ≠ "") (hcounted : Counted k 1 w) :
    (discipline py reads).Assured (fun _ _ => True) (finalize event) w := by
  unfold finalize
  rw [hid]
  simp only [ofExcept_ok, ret_bind]
  split_ifs
  · trivial
  · apply Discipline.assured_ofExcept_bind
    intro signoff _ w₁ hrely₁
    refine ⟨trivial, fun _ answer w₂ hexec => ?_⟩
    refine ⟨setStatus_keeps hne (hcounted.stable hrely₁) hexec, ?_⟩
    apply Discipline.assured_ofExcept_bind
    intro _ _
    apply Discipline.assured_ofExcept_bind
    intro _ _ _ _
    trivial

/-! ## The execution -/

/-- What is known of an execution that has completed so many polls. -/
inductive Place (py : Python) (env : Env) : Execution StateName → Nat → World → Prop where
  | submitting {data left w} : Place py env (.running .submitJob data left) 0 w
  | looping {s k a p next left w} {polls : Nat} (hs : s = .waitForJob ∨ s = .pollJob) (hne : k ≠ "")
      (hcounted : Counted k a w) (hpolls : (polls : Int) ≤ a) (hbudget : a < env.maxAttempts py) :
      Place py env (.running s (carrying (jobReport (.str k) statusRunning a false p next)) left) polls w
  | evaluating {k n fail a p left w} {polls : Nat} (hne : k ≠ "") (hcounted : Counted k a w) (ha : 1 ≤ a)
      (hpolls : (polls : Int) ≤ a) :
      Place py env (.running .evaluateJob (carrying (pollReport py env k n fail a p)) left) polls w
  | signing {k n fail a p left polls w} (hne : k ≠ "") (hcounted : Counted k 1 w) :
      Place py env (.running .requestSignoff (carrying (pollReport py env k n fail a p)) left) polls w
  | finalizing {k n fail a p result left polls w} (hne : k ≠ "") (hcounted : Counted k 1 w) :
      Place py env (.running .finalize
        (.obj [("job", pollReport py env k n fail a p), ("signoff", result)]) left) polls w
  | ended {e : Execution StateName} {polls : Nat} {w : World} (hended : Ended e) : Place py env e polls w

theorem Place.stable (h : Place py env e polls w) (hkeeps : Keeps w w') : Place py env e polls w' := by
  cases h with
  | submitting => exact .submitting
  | looping hs hne hcounted hpolls hbudget => exact .looping hs hne (hcounted.stable hkeeps) hpolls hbudget
  | evaluating hne hcounted ha hpolls => exact .evaluating hne (hcounted.stable hkeeps) ha hpolls
  | signing hne hcounted => exact .signing hne (hcounted.stable hkeeps)
  | finalizing hne hcounted => exact .finalizing hne (hcounted.stable hkeeps)
  | ended hended => exact .ended hended

theorem ended_runtimeError {s : StateName} : Ended (.runtimeError s) := nofun

theorem Place.move (h : Place py env e polls w) (hmove : machine.Moves e e') :
    Place py env e' polls w := by
  cases hmove with
  | passError => exact .ended ended_runtimeError
  | routeError => exact .ended ended_runtimeError
  | eventError => exact .ended ended_runtimeError
  | @pass s result path next data left data' hstate hput => cases s <;> cases hstate
  | @route s next data left hroute =>
      cases h with
      | submitting => cases hroute
      | signing => cases hroute
      | finalizing => cases hroute
      | ended hended => exact absurd rfl (hended s data left)
      | @looping _ k a p seconds _ _ _ hs hne hcounted hpolls hbudget =>
          rcases hs with rfl | rfl
          · -- The wait leads to the poll.
            have hnext : next = .pollJob := by
              obtain ⟨_, hfound⟩ := Option.map_eq_some_iff.mp (Option.some.inj hroute)
              exact hfound.2.symm
            subst hnext
            exact .looping (.inr rfl) hne hcounted hpolls hbudget
          · cases hroute
      | @evaluating k n fail a p _ _ _ hne hcounted ha hpolls =>
          have hchoice := (Option.some.inj hroute).symm.trans choose_poll
          rw [Option.some.injEq] at hchoice
          subst hchoice
          cases fail with
          | true => exact .ended ended_failed
          | false =>
              by_cases hdone : n ≤ a
              · simp only [Bool.false_eq_true, if_false, if_pos hdone]
                exact .signing hne (hcounted.mono ha)
              · by_cases hbudget : env.maxAttempts py ≤ a
                · simp only [Bool.false_eq_true, if_false, if_neg hdone, if_pos hbudget]
                  exact .ended ended_failed
                · simp only [Bool.false_eq_true, if_false, if_neg hdone, if_neg hbudget]
                  rw [pollReport_running rfl hdone hbudget]
                  exact .looping (.inl rfl) hne hcounted hpolls (lt_of_not_ge hbudget)

/-- A task that is tried again is where it was. -/
theorem Place.retried {s : StateName} {left left' : List Nat}
    (h : Place py env (.running s data left) polls w) : Place py env (.running s data left') polls w := by
  cases h with
  | submitting => exact .submitting
  | looping hs hne hcounted hpolls hbudget => exact .looping hs hne hcounted hpolls hbudget
  | evaluating hne hcounted ha hpolls => exact .evaluating hne hcounted ha hpolls
  | signing hne hcounted => exact .signing hne hcounted
  | finalizing hne hcounted => exact .finalizing hne hcounted
  | ended hended => exact absurd rfl (hended s data left)

theorem Place.fault {s : StateName} {t : Task StateName Function} {left : List Nat} {err : TaskError}
    (h : Place py env (.running s data left) polls w) (hstate : machine.states s = .task t) :
    Place py env (machine.fault s t data left err) polls w := by
  rcases fault_ends hstate with ⟨left', heq⟩ | hended
  · rw [heq]
    exact h.retried
  · exact .ended hended

/-- What the gate is resumed with leads to the last task, or the execution ends. -/
theorem Place.signed {a p : Int} {context : Json} {left : List Nat} {result : Except TaskError Json}
    (hne : k ≠ "") (hcounted : Counted k 1 w) :
    Place py env (machine.resume .requestSignoff requestSignoffTask context
      (carrying (pollReport py env k n fail a p)) left result) polls w := by
  rcases signoff_resume context (pollReport py env k n fail a p) left result with ⟨v, left', heq⟩ | hended
  · rw [heq]
    exact .finalizing hne hcounted
  · exact .ended hended

/-- An execution that keeps to its budget. -/
structure WithinBudget (py : Python) (env : Env) (e : Execution StateName) (log : List Attempted)
    (w : World) : Prop where
  budget : (completedPolls log : Int) ≤ env.maxAttempts py
  place : Place py env e (completedPolls log) w

theorem WithinBudget.append {inv : Attempted} (h : WithinBudget py env e log w)
    (hsame : completedPolls (log ++ [inv]) = completedPolls log)
    (hplace : Place py env e' (completedPolls log) w') : WithinBudget py env e' (log ++ [inv]) w' :=
  ⟨hsame ▸ h.budget, hsame ▸ hplace⟩

/-- What a handler returns leads on within the budget. -/
theorem WithinBudget.invoke {s : StateName} {t : Task StateName Function} {context : Json}
    {left : List Nat} (hM : 1 ≤ env.maxAttempts py) (hstate : machine.states s = .task t)
    (hevent : t.event context data = some event) (h : WithinBudget py env (.running s data left) log w) :
    (discipline py reads).Assured (fun a w' => ∀ calls report, Reported t (.returned a) report →
      WithinBudget py env (machine.resume s t context data left report)
        (log ++ [⟨s, event, calls, .returned a⟩]) w') (function py env t.resource event) w := by
  have hplace := h.place
  generalize hpolls : completedPolls log = polls at hplace
  cases hplace with
  | @submitting data left w =>
      cases hstate
      cases hevent
      refine submitJob_assured.mono fun report w' hreported calls result hresult => ?_
      obtain ⟨k, hne, hcounted, rfl⟩ := hreported
      cases hresult.ok (by decide)
      refine h.append (completedPolls_append_other (by simp)) ?_
      rw [hpolls]
      exact .looping (.inl rfl) hne hcounted le_rfl hM
  | @looping _ k a p next _ _ _ hs hne hcounted hle hbudget =>
      rcases hs with rfl | rfl
      · cases hstate
      cases hstate
      cases hevent
      refine (pollJob_assured jobIdOf_carrying hne (by omega) hcounted).mono
        fun report w' hreported calls result hresult => ?_
      obtain ⟨m, fail, a', p', hlt, hcounted', rfl⟩ := hreported
      cases hresult.ok (by decide)
      have hcount : completedPolls (log ++ [⟨.pollJob, carrying
          (jobReport (.str k) statusRunning a false p next), calls,
            .returned (pollReport py env k m fail a' p')⟩]) = polls + 1 := by
        rw [completedPolls_append rfl rfl, hpolls]
      refine ⟨?_, ?_⟩
      · rw [hcount]
        push_cast
        omega
      · rw [hcount]
        exact .evaluating hne hcounted' (by omega) (by push_cast; omega)
  | evaluating => cases hstate
  | @signing k n fail a p _ _ _ hne hcounted =>
      cases hstate
      obtain ⟨token, rfl⟩ := signoff_event hevent
      refine (requestSignoff_assured rfl hne hcounted).mono fun report w' hcounted' calls result _ => ?_
      exact h.append (completedPolls_append_other (by simp)) (.signed hne hcounted')
  | finalizing hne hcounted =>
      cases hstate
      cases hevent
      refine (finalize_assured rfl hne hcounted).mono fun report w' _ calls result hresult => ?_
      exact h.append (completedPolls_append_other (by simp))
        (.ended (by rw [hresult.ok (by decide), Machine.resume]; exact finalize_ends))
  | ended hended => exact absurd rfl (hended s data left)

theorem WithinBudget.fault {s : StateName} {t : Task StateName Function} {context : Json}
    {left : List Nat} {calls : List (Program.Event Op Ans)} {outcome : Outcome Exc Json}
    {report : Except TaskError Json} (hstate : machine.states s = .task t)
    (h : WithinBudget py env (.running s data left) log w) (hnot : ∀ a, outcome ≠ .returned a)
    (hreport : Reported t outcome report) :
    WithinBudget py env (machine.resume s t context data left report)
      (log ++ [⟨s, event, calls, outcome⟩]) w := by
  refine h.append (completedPolls_append_failed hnot) ?_
  by_cases htoken : t.integration = .invokeWaitForTaskToken
  · have hs : s = .requestSignoff := by
      cases s <;> cases hstate <;> first | rfl | cases htoken
    subst hs
    cases hstate
    cases h.place with
    | looping hs => rcases hs with hs | hs <;> cases hs
    | signing hne hcounted => exact .signed hne hcounted
    | ended hended => exact absurd rfl (hended _ _ _)
  · obtain ⟨err, rfl⟩ := hreport.error htoken hnot
    exact h.place.fault hstate

/-- The poll budget, as an annotation of the machine. -/
def budgeted (py : Python) (env : Env) (reads : Reads) (hM : 1 ≤ env.maxAttempts py) :
    Annotation (workflow py env reads) (discipline py reads) where
  holds := WithinBudget py env
  stable h hkeeps := ⟨h.budget, h.place.stable hkeeps⟩
  move h hmove := ⟨h.budget, h.place.move hmove⟩
  invoke hstate hevent h := h.invoke hM hstate hevent
  fault hstate _ h hnot hreport := h.fault hstate hnot hreport

/-! ## Any number of executions -/

abbrev Executions (ι : Type) := System ι StateName Op Ans World

def HasResult (k : String) (table : Table) : Prop :=
  table.attr k ["status"] = some statusSucceeded ∨ table.attr k ["status"] = some statusCompleted

/-- Every execution has its own budget, and no submission undoes what a job has come to
    by then. -/
structure BudgetsApart {ι : Type} (limit : Int) (step : Executions ι → Executions ι → Prop)
    (sys : Executions ι) : Prop where
  budget : ∀ i, (completedPolls (sys.session i).log : Int) ≤ limit
  kept : ∀ k sys', Relation.ReflTransGen step sys sys' → HasResult k sys.world.table →
    sys'.world.table.attr k ["status"] ≠ some statusSubmitted

theorem Shows.attr_status (h : Shows k r table) : table.attr k ["status"] = some r.status := by
  obtain ⟨item, hitem, hdescribes⟩ := h
  simp only [Table.attr, hitem, Option.bind_some]
  exact hdescribes.status

theorem Keeps.result (h : Keeps w w') (hsound : Sound w.table) (hresult : HasResult k w.table) :
    w'.table.attr k ["status"] ≠ some statusSubmitted := by
  cases hsound k with
  | inl hnone => simp [HasResult, Table.attr, hnone] at hresult
  | inr hfound =>
      obtain ⟨r, hr, hrecord⟩ := hfound
      have hstatus : r.status = statusSucceeded ∨ r.status = statusCompleted := by
        simpa only [HasResult, hr.attr_status, Option.some.injEq] using hresult
      obtain ⟨r', hr', hgrows⟩ := h.grows k r hr
      rw [hr'.attr_status]
      intro hsubmitted
      refine hgrows.status (hrecord.polled hstatus) ?_ (Option.some.inj hsubmitted)
      rcases hstatus with heq | heq
      · rw [heq]
        decide
      · rw [heq]
        decide

/-- As long as no job is created anew after it was polled, the budget belongs to each
    execution. -/
theorem budgets_apart {ι : Type} [DecidableEq ι] (hM : 1 ≤ env.maxAttempts py) {input : ι → Json}
    {sys : Executions ι}
    (h : Relation.ReflTransGen (System.Step (workflow py env reads) fun _ _ op w => Unpolled op w)
      (.init (workflow py env reads) input emptyWorld) sys) :
    BudgetsApart (env.maxAttempts py)
      (System.Step (workflow py env reads) fun _ _ op w => Unpolled op w) sys := by
  have hstart : ∀ i, (budgeted py env reads hM).holds (machine.start (input i)) [] emptyWorld :=
    fun i => ⟨le_trans (by decide) hM, .submitting⟩
  have hkeeps := (budgeted py env reads hM).rely_reachable (fun _ _ _ _ hop => hop) hstart .refl h
  constructor
  · exact fun i => ((budgeted py env reads hM).kept (fun _ _ _ _ hop => hop) hstart h i).holds.budget
  · intro k sys' hlater hresult
    have hsound : Sound sys.world.table := hkeeps.sound fun _ => .inl rfl
    have hrely := (budgeted py env reads hM).rely_reachable (fun _ _ _ _ hop => hop) hstart h hlater
    exact hrely.result hsound hresult

/-- Two executions submit the same job before either polls it. -/
theorem budgets_apart_bothSubmitted : ∃ sys : Executions Bool,
    completedPolls (sys.session true).log = 1 ∧ completedPolls (sys.session false).log = 1 ∧
    BudgetsApart 20 (System.Step (workflow .sample sampleEnv .current) fun _ _ op w => Unpolled op w)
      sys := by
  have hrun : ((System.run (workflow .sample sampleEnv .current) (answer .sample)
      (fun _ _ op w => decide (Unpolled op w))
      (.init (workflow .sample sampleEnv .current) (fun _ => sampleInput 3) emptyWorld)
      (System.goOn true 4 ++ System.goOn false 9 ++ System.goOn true 5)).any
      fun sys => completedPolls (sys.session true).log = 1 &&
        completedPolls (sys.session false).log = 1) = true := by
    decide +kernel
  obtain ⟨sys, hreach, hpolls⟩ :=
    System.exists_of_run answer_exec (fun _ _ _ _ hop => of_decide_eq_true hop) hrun
  simp only [Bool.and_eq_true, decide_eq_true_eq] at hpolls
  exact ⟨sys, hpolls.1, hpolls.2, budgets_apart (by decide) hreach⟩

/-- Python that reads a limit of two, and the machine with that limit. -/
def twoParsed : Python := { Python.sample with parseInt := fun _ => some 2 }

def shortBudget : Workflow StateName Function Op Ans World :=
  workflow twoParsed { sampleEnv with maxPollAttempts := some "2" } .current

/-- The first execution completes three polls, since each of the others submits the same
    job again after one of them. -/
theorem budget_exceeded : ∃ sys : Executions (Fin 3),
    Relation.ReflTransGen (System.Step shortBudget fun _ _ _ _ => True)
      (.init shortBudget (fun _ => sampleInput 5) emptyWorld) sys ∧
    ¬ BudgetsApart 2 (System.Step shortBudget fun _ _ _ _ => True) sys := by
  have hrun : ((System.run shortBudget (answer twoParsed) (fun _ _ _ _ => true)
      (.init shortBudget (fun _ => sampleInput 5) emptyWorld)
      (System.goOn (0 : Fin 3) 11 ++ System.goOn 1 2 ++ System.goOn 0 7 ++ System.goOn 2 2 ++
        System.goOn 0 5)).any fun sys => completedPolls (sys.session 0).log = 3) = true := by
    decide +kernel
  obtain ⟨sys, hreach, hpolls⟩ := System.exists_of_run answer_exec (fun _ _ _ _ _ => trivial) hrun
  refine ⟨sys, hreach, fun hapart => ?_⟩
  have hbudget := hapart.budget 0
  rw [of_decide_eq_true hpolls] at hbudget
  exact absurd hbudget (by decide)

end LongRunning
