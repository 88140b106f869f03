-- SUMMARY: For which jobs the progress of a poll is 100 exactly when the job has succeeded.
import ServerlessPatterns.LongRunning.Polls

/-!
# The progress of a job

The percentage is rounded to the nearest integer and computed for failed jobs, too. So
it reaches 100 before the job succeeds once the last step is worth half a percent, and
on a job that never succeeds.
-/

namespace LongRunning

open Program

variable {py : Python} {env : Env} {reads : Reads} {n : Int} {fail : Bool}

/-! ## Rounding the quotient -/

theorem roundHalfEven_intCast {z : Int} : Python.roundHalfEven (z : ℚ) = z := by
  unfold Python.roundHalfEven
  rw [Int.floor_intCast, sub_self, if_pos (by norm_num)]

theorem roundHalfEven_nearly : Python.roundHalfEven (199 / 2) = 100 := by
  have hfloor : ⌊(199 / 2 : ℚ)⌋ = 99 := by norm_num
  unfold Python.roundHalfEven
  rw [hfloor]
  norm_num

theorem roundHalfEven_le {x : ℚ} {z : Int} (h : x < z + 1 / 2) : Python.roundHalfEven x ≤ z := by
  have hfloor : ⌊x⌋ ≤ z := Int.floor_le_iff.mpr (by linarith)
  cases lt_or_eq_of_le hfloor with
  | inl hlt =>
      have hround : Python.roundHalfEven x ≤ ⌊x⌋ + 1 := Python.roundHalfEven_bounds.2
      omega
  | inr heq =>
      have hfraction : x - ⌊x⌋ < 1 / 2 := by
        rw [heq]
        linarith
      rw [Python.roundHalfEven, if_pos hfraction, heq]

/-- `100 * k / n` as the exact quotient. -/
def ExactQuotients (py : Python) : Prop :=
  ∀ a b : Int, 0 < b → py.divide a b = .ok ((a : ℚ) / b)

theorem progressAt_exact (hexact : ExactQuotients py) (hn : 1 ≤ n) {a : Int} :
    progressAt py n fail a = .ok (if fail = false ∧ n ≤ a then 100
      else min 100 (Python.roundHalfEven (((100 * a : Int) : ℚ) / n))) := by
  rw [progressAt_eq_ok]
  refine ⟨_, ?_, rfl⟩
  rw [hexact _ _ (by omega), max_eq_left hn]

/-- Up to 199 attempts, the last one but one is worth less than 99.5 percent. -/
theorem roundHalfEven_lt_hundred {a : Int} (ha : 1 ≤ a) (hlt : a < n) (hn : n ≤ 199) :
    Python.roundHalfEven (((100 * a : Int) : ℚ) / n) < 100 := by
  have hpos : (0 : ℚ) < n := by exact_mod_cast (show 0 < n by omega)
  have hproduct : ((200 * a : Int) : ℚ) < ((199 * n : Int) : ℚ) := by
    exact_mod_cast (show 200 * a < 199 * n by omega)
  have hquotient : ((100 * a : Int) : ℚ) / n < (99 : Int) + 1 / 2 := by
    rw [div_lt_iff₀ hpos]
    push_cast at hproduct ⊢
    linarith
  have hround := roundHalfEven_le hquotient
  omega

/-- From 200 attempts on, it is worth at least 99.5 percent. -/
theorem hundred_le_roundHalfEven (hn : 200 ≤ n) :
    100 ≤ Python.roundHalfEven (((100 * (n - 1) : Int) : ℚ) / n) := by
  have hpos : (0 : ℚ) < n := by exact_mod_cast (show 0 < n by omega)
  have hlarge : (200 : ℚ) ≤ n := by exact_mod_cast hn
  have hquotient : (199 / 2 : ℚ) ≤ ((100 * (n - 1) : Int) : ℚ) / n := by
    rw [le_div_iff₀ hpos]
    push_cast
    linarith
  calc 100 = Python.roundHalfEven (199 / 2) := roundHalfEven_nearly.symm
    _ ≤ _ := Python.roundHalfEven_mono hquotient

/-! ## One poll -/

/-- A poll that takes number `a` of a job, returns the report and leaves the record. -/
def PollOf (py : Python) (env : Env) (reads : Reads) (n : Int) (fail : Bool) (a : Int)
    (report : Json) (stored : JobRecord) : Prop :=
  ∃ k event r w calls w', k ≠ "" ∧ jobIdOf event = .ok (.str k) ∧ Shows k r w.table ∧
    Consistent k n fail (reads.visible w) ∧ r.attempts + 1 = a ∧
    Attempt (exec py reads) (pollJob py env event) w calls (.returned report) w' ∧
    Shows k stored w'.table

/-- What is stored and returned is computed from the number of the attempt. -/
theorem PollOf.computed {a : Int} {report : Json} {stored : JobRecord}
    (h : PollOf py env reads n fail a report stored) :
    stored.status = pollStatus n fail a ∧ progressAt py n fail a = .ok stored.progress ∧
      report.get ["status"] = some stored.status ∧
      report.get ["progress"] = some (.num (.int stored.progress)) := by
  obtain ⟨k, event, r, w, calls, w', hne, hid, hshows, hconsistent, rfl, hattempt, hstored⟩ := h
  cases poll_attempt hid hne hshows hconsistent hattempt with
  | uncounted hnot =>
      rcases hnot with hlost | ⟨⟨e, hraised⟩, _⟩
      · cases hlost
      · cases hraised
  | counted hitem hnot =>
      rcases hnot with hlost | ⟨e, hraised, _⟩
      · cases hlost
      · cases hraised
  | @recorded item item' p hp hitem hitem' hend =>
      cases hstored.unique ⟨item', Table.write_self, hitem'⟩
      rcases hend with hlost | hreported
      · cases hlost
      · cases hreported
        exact ⟨rfl, hp, rfl, rfl⟩

/-- An item that shows a record. -/
def itemOf (r : JobRecord) : Json :=
  .obj [("succeed_after_attempts", .num (.decimal r.succeedAfter)), ("fail_job", .bool r.failJob),
    ("attempts", .num (.decimal r.attempts)), ("status", r.status),
    ("progress", .num (.decimal r.progress))]

theorem itemOf_describes {r : JobRecord} : r.Describes (itemOf r) := by
  constructor <;> simp [itemOf, List.lookup_cons]

/-- A poll that runs alone and can compute its progress comes to its end. -/
theorem exists_poll {k : String} {event : Json} {r : JobRecord} {w : World} {p : Int} (hne : k ≠ "")
    (hid : jobIdOf event = .ok (.str k)) (hshows : ∀ t ∈ reads.visible w, Shows k r t)
    (hconsistent : Consistent k n fail (reads.visible w))
    (hp : progressAt py n fail (r.attempts + 1) = .ok p) :
    ∃ report stored, PollOf py env reads n fail (r.attempts + 1) report stored := by
  have htable : Shows k r w.table := hshows _ Reads.table_visible
  obtain ⟨calls, outcome, w', hattempt, hcomplete⟩ : ∃ calls outcome w',
      Attempt (exec py reads) (pollJob py env event) w calls outcome w' ∧ outcome ≠ .lost :=
    ⟨_, _, _, run_attempt answer_exec _ none w, run_none_ne_lost _ w⟩
  cases poll_attempt hid hne htable hconsistent hattempt with
  | uncounted hnot =>
      rcases hnot with hlost | ⟨_, t, hmem, hnone⟩
      · exact absurd hlost hcomplete
      · obtain ⟨item, hitem, _⟩ := hshows t hmem
        cases hnone.symm.trans hitem
  | counted _ hnot =>
      rcases hnot with hlost | ⟨e, _, herror⟩
      · exact absurd hlost hcomplete
      · cases hp.symm.trans herror
  | @recorded item item' q _ _ hitem' hend =>
      rcases hend with hlost | rfl
      · exact absurd hlost hcomplete
      · exact ⟨_, _, k, event, r, w, calls, _, hne, hid, htable, hconsistent, rfl, hattempt,
          item', Table.write_self, hitem'⟩

/-- Every attempt is one of some poll. -/
theorem exists_pollOf {a p : Int} (hp : progressAt py n fail a = .ok p) :
    ∃ report stored, PollOf py env reads n fail a report stored := by
  let r : JobRecord := ⟨n, fail, a - 1, statusRunning, 0⟩
  let w : World := ⟨Table.write (fun _ => none) "job" (itemOf r), []⟩
  have hfound : w.table "job" = some (itemOf r) := by simp only [w, Table.write_self]
  have hshows : ∀ t ∈ reads.visible w, Shows "job" r t := by
    intro t hmem
    obtain rfl := List.mem_singleton.mp (Reads.visible_history t hmem)
    exact ⟨itemOf r, hfound, itemOf_describes⟩
  have hconsistent : Consistent "job" n fail (reads.visible w) :=
    fun t hmem => .inr ⟨r, hshows t hmem, rfl, rfl⟩
  have hid : jobIdOf (.obj [("job", .obj [("job_id", .str "job")])]) = .ok (.str "job") := rfl
  have hcount : r.attempts + 1 = a := by
    simp only [r]
    omega
  rw [← hcount] at hp ⊢
  exact exists_poll (by decide) hid hshows hconsistent hp

/-! ## All polls of a job -/

/-- The progress that the polls of a job store and return is a percentage that never
    falls and is 100 exactly when the job has succeeded. -/
structure TruthfulProgress (py : Python) (env : Env) (reads : Reads) (n : Int) (fail : Bool) :
    Prop where
  returned : ∀ a report stored, 1 ≤ a → PollOf py env reads n fail a report stored →
    report.get ["status"] = some stored.status ∧
      report.get ["progress"] = some (.num (.int stored.progress))
  bounds : ∀ a report stored, 1 ≤ a → PollOf py env reads n fail a report stored →
    0 ≤ stored.progress ∧ stored.progress ≤ 100
  monotone : ∀ a b report report' stored stored', 1 ≤ a → a ≤ b →
    PollOf py env reads n fail a report stored → PollOf py env reads n fail b report' stored' →
    stored.progress ≤ stored'.progress
  complete : ∀ a report stored, 1 ≤ a → PollOf py env reads n fail a report stored →
    (stored.progress = 100 ↔ stored.status = statusSucceeded)

/-- A failed job is reported as 100 percent from the attempt on that it would have
    succeeded on, and a running one just before it succeeds. -/
theorem hundred_before_success (hexact : ExactQuotients py) (hn : 1 ≤ n)
    (h : fail = true ∨ 200 ≤ n) :
    ∃ a, 1 ≤ a ∧ ¬ (fail = false ∧ n ≤ a) ∧ progressAt py n fail a = .ok 100 := by
  by_cases hfail : fail = true
  · refine ⟨n, hn, by simp [hfail], ?_⟩
    have hnonzero : (n : ℚ) ≠ 0 := by exact_mod_cast (show n ≠ 0 by omega)
    have hquotient : ((100 * n : Int) : ℚ) / n = (100 : Int) := by
      push_cast
      field_simp
    rw [progressAt_exact hexact hn, if_neg (by simp [hfail]), hquotient, roundHalfEven_intCast,
      min_self]
  · have hlarge : 200 ≤ n := h.resolve_left hfail
    have hrunning : ¬ (fail = false ∧ n ≤ n - 1) := by omega
    refine ⟨n - 1, by omega, hrunning, ?_⟩
    rw [progressAt_exact hexact hn, if_neg hrunning, min_eq_left (hundred_le_roundHalfEven hlarge)]

theorem not_truthfulProgress {a : Int} (ha : 1 ≤ a) (hrunning : ¬ (fail = false ∧ n ≤ a))
    (hp : progressAt py n fail a = .ok 100) : ¬ TruthfulProgress py env reads n fail := by
  intro h
  obtain ⟨report, stored, hpoll⟩ : ∃ report stored, PollOf py env reads n fail a report stored :=
    exists_pollOf hp
  obtain ⟨hstatus, hprogress, _, _⟩ := hpoll.computed
  rw [hp, Except.ok.injEq] at hprogress
  have hsucceeded := (h.complete a report stored ha hpoll).mp hprogress.symm
  rw [hstatus, pollStatus_eq_succeeded] at hsucceeded
  exact hrunning hsucceeded

theorem truthfulProgress_iff (hexact : ExactQuotients py) (hn : 1 ≤ n) :
    TruthfulProgress py env reads n fail ↔ fail = false ∧ n ≤ 199 := by
  constructor
  · intro h
    by_contra hnot
    have hkind : fail = true ∨ 200 ≤ n := by
      cases fail with
      | true => exact .inl rfl
      | false =>
          rw [eq_self, true_and] at hnot
          exact .inr (by omega)
    obtain ⟨a, ha, hrunning, hp⟩ := hundred_before_success hexact hn hkind
    exact not_truthfulProgress ha hrunning hp h
  · rintro ⟨rfl, hsmall⟩
    refine ⟨fun a report stored _ hpoll => hpoll.computed.2.2, ?_, ?_, ?_⟩
    · intro a report stored ha hpoll
      have hprogress := hpoll.computed.2.1
      exact ⟨progressAt_nonneg (by omega) hprogress, progressAt_le hprogress⟩
    · intro a b report report' stored stored' _ hab hpoll hpoll'
      exact progressAt_mono hab hpoll.computed.2.1 hpoll'.computed.2.1
    · intro a report stored ha hpoll
      obtain ⟨hstatus, hprogress, _, _⟩ := hpoll.computed
      rw [progressAt_exact hexact hn, Except.ok.injEq] at hprogress
      rw [hstatus, pollStatus_eq_succeeded, ← hprogress]
      by_cases hdone : false = false ∧ n ≤ a
      · rw [if_pos hdone]
        exact iff_of_true rfl hdone
      · have hlt : a < n := lt_of_not_ge fun hle => hdone ⟨rfl, hle⟩
        have hround := roundHalfEven_lt_hundred ha hlt hsmall
        rw [if_neg hdone]
        exact iff_of_false (by omega) hdone

theorem exactQuotients_sample : ExactQuotients .sample := fun _ _ _ => rfl

theorem truthfulProgress_three : TruthfulProgress .sample sampleEnv .eventual 3 false :=
  (truthfulProgress_iff exactQuotients_sample (by decide)).mpr ⟨rfl, by decide⟩

/-- The poll before the last of two hundred, and the only one of a job that fails. -/
theorem truthfulProgress_counterexample :
    ¬ TruthfulProgress .sample sampleEnv .current 200 false ∧
      ¬ TruthfulProgress .sample sampleEnv .current 1 true := by
  constructor
  · obtain ⟨a, ha, hrunning, hp⟩ : ∃ a : Int, 1 ≤ a ∧ ¬ (false = false ∧ 200 ≤ a) ∧
        progressAt .sample 200 false a = .ok 100 :=
      hundred_before_success exactQuotients_sample (by decide) (.inr le_rfl)
    exact not_truthfulProgress ha hrunning hp
  · obtain ⟨a, ha, hrunning, hp⟩ : ∃ a : Int, 1 ≤ a ∧ ¬ (true = false ∧ 1 ≤ a) ∧
        progressAt .sample 1 true a = .ok 100 :=
      hundred_before_success exactQuotients_sample le_rfl (.inl rfl)
    exact not_truthfulProgress ha hrunning hp

end LongRunning
