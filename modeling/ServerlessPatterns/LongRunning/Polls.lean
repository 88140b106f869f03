-- SUMMARY: What a poll computes from the attempt number, and what one attempt to poll leaves in the record.
import ServerlessPatterns.Library.Contract
import ServerlessPatterns.LongRunning.Record

/-!
# Polls

A poll reads how the job is simulated, takes the next attempt number from the
counter and writes the status and the progress that belong to this number. These
never fall as the number grows. So a record is in order as long as the writes come
in the order of the attempt numbers.
-/

namespace LongRunning

open Program

variable {py : Python} {env : Env} {reads : Reads} {k : String} {n : Int} {fail : Bool}
  {r : JobRecord} {event : Json} {w w' : World} {calls : List (Program.Event Op Ans)}
  {outcome : Outcome Exc Json}

/-! ## Status and progress -/

/-- The changes of status that a job may go through, skipping allowed. -/
def statusChanges : List (Json × Json) :=
  [(statusSubmitted, statusRunning), (statusSubmitted, statusSucceeded),
    (statusSubmitted, statusCompleted), (statusSubmitted, statusFailed),
    (statusRunning, statusSucceeded), (statusRunning, statusCompleted),
    (statusSucceeded, statusCompleted)]

def Forward (a b : Json) : Prop := a = b ∨ (a, b) ∈ statusChanges

theorem statusChanges_trans :
    ∀ x ∈ statusChanges, ∀ y ∈ statusChanges, x.2 = y.1 → (x.1, y.2) ∈ statusChanges := by
  decide

theorem Forward.trans {a b c : Json} (h : Forward a b) (h' : Forward b c) : Forward a c := by
  cases h with
  | inl heq =>
      subst heq
      exact h'
  | inr hab =>
      cases h' with
      | inl heq =>
          subst heq
          exact .inr hab
      | inr hbc => exact .inr (statusChanges_trans _ hab _ hbc rfl)

/-- A later attempt computes a later status. -/
theorem pollStatus_forward {a b : Int} (h : a ≤ b) :
    Forward (pollStatus n fail a) (pollStatus n fail b) := by
  unfold pollStatus
  cases fail with
  | true => exact .inl rfl
  | false =>
      by_cases ha : n ≤ a
      · have hb : n ≤ b := ha.trans h
        simp only [Bool.false_eq_true, if_false, if_pos ha, if_pos hb]
        exact .inl rfl
      · by_cases hb : n ≤ b
        · simp only [Bool.false_eq_true, if_false, if_neg ha, if_pos hb]
          exact .inr (by decide)
        · simp only [Bool.false_eq_true, if_false, if_neg ha, if_neg hb]
          exact .inl rfl

theorem pollStatus_submitted {a : Int} : Forward statusSubmitted (pollStatus n fail a) := by
  unfold pollStatus
  split_ifs <;> exact .inr (by decide)

theorem pollStatus_hasFloat {a : Int} : (pollStatus n fail a).hasFloat = false := by
  unfold pollStatus
  split_ifs <;> rfl

theorem pollStatus_ne_completed {a : Int} : pollStatus n fail a ≠ statusCompleted := by
  unfold pollStatus
  split_ifs <;> decide

theorem pollStatus_eq_succeeded {a : Int} :
    pollStatus n fail a = statusSucceeded ↔ fail = false ∧ n ≤ a := by
  unfold pollStatus
  cases fail with
  | true => simp [statusFailed, statusSucceeded]
  | false => by_cases h : n ≤ a <;> simp [h, statusRunning, statusSucceeded]

/-- The progress of attempt `a`. -/
abbrev progressAt (py : Python) (n : Int) (fail : Bool) (a : Int) : Except Exc Int :=
  pollProgress py n (pollStatus n fail a) a

/-- The rounded quotient, and 100 for a job that succeeded. -/
theorem progressAt_eq_ok {a p : Int} :
    progressAt py n fail a = .ok p ↔ ∃ x, py.divide (100 * a) (max n 1) = .ok x ∧
      p = if fail = false ∧ n ≤ a then 100 else min 100 (Python.roundHalfEven x) := by
  have hcondition : (pollStatus n fail a = statusSucceeded ∨ pollStatus n fail a = statusCompleted) ↔
      fail = false ∧ n ≤ a := by
    rw [pollStatus_eq_succeeded]
    exact or_iff_left pollStatus_ne_completed
  unfold progressAt pollProgress
  simp only [hcondition]
  cases py.divide (100 * a) (max n 1) with
  | error e => simp [Bind.bind, Except.bind]
  | ok x => simp [Bind.bind, Except.bind, Pure.pure, Except.pure, eq_comm]

theorem progressAt_le {a p : Int} (h : progressAt py n fail a = .ok p) : p ≤ 100 := by
  obtain ⟨x, _, rfl⟩ := progressAt_eq_ok.mp h
  split_ifs <;> omega

/-- A later attempt computes no lower progress. -/
theorem progressAt_mono {a b p q : Int} (hab : a ≤ b) (ha : progressAt py n fail a = .ok p)
    (hb : progressAt py n fail b = .ok q) : p ≤ q := by
  have hle : p ≤ 100 := progressAt_le ha
  obtain ⟨x, hx, rfl⟩ := progressAt_eq_ok.mp ha
  obtain ⟨y, hy, rfl⟩ := progressAt_eq_ok.mp hb
  have hround : Python.roundHalfEven x ≤ Python.roundHalfEven y :=
    Python.roundHalfEven_mono (py.divide_mono (by omega) (by omega) hx hy)
  by_cases hdone : fail = false ∧ n ≤ b
  · rw [if_pos hdone]
    exact hle
  · have hbefore : ¬ (fail = false ∧ n ≤ a) := fun h => hdone ⟨h.1, h.2.trans hab⟩
    rw [if_neg hdone, if_neg hbefore]
    omega

theorem progressAt_nonneg {a p : Int} (ha : 0 ≤ a) (h : progressAt py n fail a = .ok p) : 0 ≤ p := by
  obtain ⟨x, hx, rfl⟩ := progressAt_eq_ok.mp h
  have hzero : Python.roundHalfEven 0 = 0 := by simp [Python.roundHalfEven]
  have hround : Python.roundHalfEven 0 ≤ Python.roundHalfEven x :=
    Python.roundHalfEven_mono
      (py.divide_mono (by omega) (by omega) (py.divide_zero (b := max n 1) (by omega)) hx)
  split_ifs <;> omega

/-- Up to the attempt on which the job succeeds, the quotient is in range. -/
theorem progressAt_ok {a : Int} (ha : 0 ≤ a) (hle : a ≤ max n 1) :
    ∃ p, progressAt py n fail a = .ok p := by
  obtain ⟨x, hx⟩ := py.divide_ok (a := 100 * a) (b := max n 1) (by omega) (by omega) (by omega)
  exact ⟨_, progressAt_eq_ok.mpr ⟨x, hx, rfl⟩⟩

/-! ## The program -/

/-- What `poll_job` returns for attempt `a`. -/
def pollReport (py : Python) (env : Env) (k : String) (n : Int) (fail : Bool) (a p : Int) : Json :=
  jobReport (.str k) (pollStatus n fail a) a
    (decide (pollStatus n fail a = statusRunning) && decide (env.maxAttempts py ≤ a)) p
    (backoffSeconds py env a)

/-- What a poll does once it knows how the job is simulated. -/
def recordPoll (py : Python) (env : Env) (k : String) (n : Int) (fail : Bool) : Handler Json :=
  .call (.incrementAttempt (.str k)) fun answer => .ofExcept answer >>= fun a =>
    .ofExcept (progressAt py n fail a) >>= fun p =>
      .call (.updateProgress (.str k) (pollStatus n fail a) p) fun answer =>
        .ofExcept answer >>= fun _ => .ret (pollReport py env k n fail a p)

/-- What a poll does with the answer to its read. -/
def afterRead (py : Python) (env : Env) (k : String) :
    Except Exc (Option Json) → Handler Json
  | .error e => .raise e
  | .ok none => .raise (jobNotFoundError s!"poll_job: no job record for {py.str (.str k)}")
  | .ok (some record) =>
    .call (.incrementAttempt (.str k)) fun answer => .ofExcept answer >>= fun attempt =>
      .ofExcept (Python.getD record "succeed_after_attempts" (.num (.int 3))) >>= fun stored =>
      .ofExcept (py.int stored) >>= fun succeedAfter =>
      .ofExcept (Python.getD record "fail_job" (.bool false)) >>= fun failJob =>
      .ofExcept (progressAt py succeedAfter failJob.truthy attempt) >>= fun progress =>
      .call (.updateProgress (.str k) (pollStatus succeedAfter failJob.truthy attempt) progress)
        fun answer => .ofExcept answer >>= fun _ =>
          .ret (pollReport py env k succeedAfter failJob.truthy attempt progress)

theorem pollJob_eq (hid : jobIdOf event = .ok (.str k)) (hne : k ≠ "") :
    pollJob py env event = .call (.get (.str k)) (afterRead py env k) := by
  have htruthy : (Json.str k).truthy = true := Json.truthy_str.mpr hne
  unfold pollJob
  rw [hid]
  simp only [ofExcept_ok, ret_bind, htruthy, Bool.not_true, Bool.false_eq_true, if_false, call_bind]
  congr
  funext answer
  cases answer with
  | error e => rfl
  | ok found => cases found <;> rfl

theorem afterRead_found {record : Json} (h : r.Describes record) :
    afterRead py env k (.ok (some record)) = recordPoll py env k r.succeedAfter r.failJob := by
  obtain ⟨fields, rfl⟩ := h.obj
  have hsucceed := h.succeedAfter
  have hfail := h.failJob
  rw [Json.get_single, Json.field_obj] at hsucceed hfail
  simp only [afterRead, recordPoll, Python.getD_obj, hsucceed, hfail, Option.getD_some, ofExcept_ok,
    ret_bind, int_decimal, Json.truthy]

/-! ## One attempt -/

/-- All records of the job in these tables simulate it in the same way. -/
def Consistent (k : String) (n : Int) (fail : Bool) (tables : List Table) : Prop :=
  ∀ t ∈ tables, t k = none ∨ ∃ r, Shows k r t ∧ r.succeedAfter = n ∧ r.failJob = fail

theorem Consistent.simulated {tables : List Table} {t : Table} (h : Consistent k n fail tables)
    (hmem : t ∈ tables) (hshows : Shows k r t) : r.succeedAfter = n ∧ r.failJob = fail := by
  cases h t hmem with
  | inl hnone =>
      obtain ⟨item, hitem, _⟩ := hshows
      rw [hitem] at hnone
      cases hnone
  | inr hfound =>
      obtain ⟨r', hshows', hsimulated⟩ := hfound
      cases hshows.unique hshows'
      exact hsimulated

/-- What is read of the job: nothing, or a record that says how to go on. -/
theorem exec_get {answer : Except Exc (Option Json)} (hne : k ≠ "")
    (hconsistent : Consistent k n fail (reads.visible w))
    (h : exec py reads (.get (.str k)) w answer w') :
    w' = w ∧ (((∃ t ∈ reads.visible w, t k = none) ∧ answer = .ok none) ∨
      afterRead py env k answer = recordPoll py env k n fail) := by
  obtain ⟨rfl, t, hvisible, rfl⟩ := h
  refine ⟨rfl, ?_⟩
  have hread : JobStore.get (.str k) t = .ok (t k) := by
    simp only [JobStore.get, Table.getItem, Table.keyOf_str hne]
    rfl
  rw [hread]
  cases hconsistent t hvisible with
  | inl hnone => exact .inl ⟨⟨t, hvisible, hnone⟩, by rw [hnone]⟩
  | inr hfound =>
      obtain ⟨r, ⟨item, hitem, hdescribes⟩, rfl, rfl⟩ := hfound
      exact .inr (by rw [hitem]; exact afterRead_found hdescribes)

/-- What an attempt to poll comes to when no other call comes in between: it stops
    before it counts, before it writes what it computed, or after that. -/
inductive Polled (py : Python) (env : Env) (reads : Reads) (k : String) (n : Int) (fail : Bool)
    (r : JobRecord) (w : World) : Outcome Exc Json → World → Prop where
  | uncounted {outcome : Outcome Exc Json}
      (h : outcome = .lost ∨ (∃ e, outcome = .raised e) ∧ ∃ t ∈ reads.visible w, t k = none) :
      Polled py env reads k n fail r w outcome w
  | counted {outcome : Outcome Exc Json} {item : Json}
      (hitem : { r with attempts := r.attempts + 1 }.Describes item)
      (h : outcome = .lost ∨ ∃ e, outcome = .raised e ∧ progressAt py n fail (r.attempts + 1) = .error e) :
      Polled py env reads k n fail r w outcome (w.store (w.table.write k item))
  | recorded {outcome : Outcome Exc Json} {item item' : Json} {p : Int}
      (hp : progressAt py n fail (r.attempts + 1) = .ok p)
      (hitem : { r with attempts := r.attempts + 1 }.Describes item)
      (hitem' : { r with
        attempts := r.attempts + 1
        status := pollStatus n fail (r.attempts + 1)
        progress := p }.Describes item')
      (h : outcome = .lost ∨
        outcome = .returned (pollReport py env k n fail (r.attempts + 1) p)) :
      Polled py env reads k n fail r w outcome
        ((w.store (w.table.write k item)).store ((w.table.write k item).write k item'))

theorem recordPoll_attempt (hne : k ≠ "") (hshows : Shows k r w.table)
    (h : Attempt (exec py reads) (recordPoll py env k n fail) w calls outcome w') :
    Polled py env reads k n fail r w outcome w' := by
  obtain ⟨hcalls, heffects⟩ := h
  rcases calls_call.mp hcalls with ⟨rfl, rfl⟩ | ⟨answer, rest, rfl, hrest⟩
  · rw [effects_nil] at heffects
    subst heffects
    exact .uncounted (.inl rfl)
  obtain ⟨w₁, hcount, heffects⟩ := effects_cons.mp heffects
  obtain ⟨rfl, item, rfl, hitem⟩ := exec_incrementAttempt hne hshows hcount
  simp only [ofExcept_ok, ret_bind] at hrest
  cases hp : progressAt py n fail (r.attempts + 1) with
  | error e =>
      rw [hp, ofExcept_error, raise_bind] at hrest
      obtain ⟨rfl, houtcome⟩ := calls_raise.mp hrest
      rw [effects_nil] at heffects
      subst heffects
      exact .counted hitem (houtcome.symm.imp_right fun h => ⟨e, h, hp⟩)
  | ok p =>
      rw [hp, ofExcept_ok, ret_bind] at hrest
      rcases calls_call.mp hrest with ⟨rfl, rfl⟩ | ⟨answer, last, rfl, hlast⟩
      · rw [effects_nil] at heffects
        subst heffects
        exact .counted hitem (.inl rfl)
      obtain ⟨w₂, hupdate, hdone⟩ := effects_cons.mp heffects
      have hshows₁ : Shows k { r with attempts := r.attempts + 1 }
          (w.store (w.table.write k item)).table := ⟨item, Table.write_self, hitem⟩
      obtain ⟨rfl, item', rfl, hitem'⟩ :=
        exec_updateProgress hne hshows₁ pollStatus_hasFloat hupdate
      obtain ⟨rfl, houtcome⟩ := calls_ret.mp hlast
      rw [effects_nil] at hdone
      subst hdone
      exact .recorded hp hitem hitem' houtcome.symm

theorem poll_attempt (hid : jobIdOf event = .ok (.str k)) (hne : k ≠ "") (hshows : Shows k r w.table)
    (hconsistent : Consistent k n fail (reads.visible w))
    (h : Attempt (exec py reads) (pollJob py env event) w calls outcome w') :
    Polled py env reads k n fail r w outcome w' := by
  rw [pollJob_eq hid hne] at h
  obtain ⟨hcalls, heffects⟩ := h
  rcases calls_call.mp hcalls with ⟨rfl, rfl⟩ | ⟨answer, rest, rfl, hrest⟩
  · rw [effects_nil] at heffects
    subst heffects
    exact .uncounted (.inl rfl)
  obtain ⟨w₁, hread, hafter⟩ := effects_cons.mp heffects
  obtain ⟨rfl, ⟨hnone, rfl⟩ | hfound⟩ := exec_get hne hconsistent hread
  · obtain ⟨rfl, houtcome⟩ := calls_raise.mp hrest
    rw [effects_nil] at hafter
    subst hafter
    exact .uncounted (houtcome.symm.imp_right fun h => ⟨⟨_, h⟩, hnone⟩)
  · rw [hfound] at hrest
    exact recordPoll_attempt hne hshows ⟨hrest, hafter⟩

end LongRunning
