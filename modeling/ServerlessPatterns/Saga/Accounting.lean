-- SUMMARY: When an execution ends accounted for: exactly when the bookkeeping tasks do not run out of retries.
import ServerlessPatterns.Saga.Progress

/-!
# Accounting

Attempts may fail here for any reason, as long as they fail before they write
anything. The stages and the compensations have a `Catch`, `CompleteSaga` and
`MarkFailed` have none, and that is what decides how an execution ends.
-/

namespace OrderSaga

open Asl Workflow Program

/-- An attempt that fails does so before its first write of the store. -/
def FailsUnwritten (inv : Attempted) : Prop :=
  (∃ result, inv.outcome = .returned result) ∨
    ∀ event ∈ inv.calls, ∃ idPrefix, event.1 = .newId idPrefix

theorem FailsUnwritten.tidy {inv : Attempted} (h : FailsUnwritten inv) : Tidy inv := by
  intro hlost event hmem hwrites
  rcases h with ⟨result, hreturned⟩ | hcalls
  · cases hlost.symm.trans hreturned
  · obtain ⟨op, answer⟩ := event
    obtain ⟨idPrefix, rfl⟩ := hcalls _ hmem
    exact hwrites

/-- The stage was recorded as done. -/
def Performs (log : List Attempted) (s : Stage) : Prop :=
  ∃ inv ∈ log, inv.state = s.state ∧ ∃ event ∈ inv.calls, ∃ detail, s.Records detail event

inductive Ending where
  | completed
  | rolledBack
  | compensationFailed

def EndsIn (orderId : String) (c : Config) : Ending → Prop
  | .completed =>
    (∃ data, c.execution = .succeeded .completeSaga data) ∧
      status orderId c.world = some statusCompleted
  | .rolledBack =>
    (∃ err, c.execution = .failed .sagaFailed err) ∧ status orderId c.world = some statusFailed ∧
      ∀ u : Undo, Performs c.log u.stage → ∃ d, Recorded orderId u.name stepDone d c.world
  | .compensationFailed => ∃ err, c.execution = .failed .compensationFailed err

/-- The execution is in one of the endings, and no charge is left alone. -/
structure Accounted (orderId : String) (c : Config) : Prop where
  ending : ∃! ending, EndsIn orderId c ending
  charged : Performs c.log .chargePayment →
    status orderId c.world = some statusCompleted ∨ Compensated c.log

/-- The bookkeeping tasks stayed within their retries, and no compensation was
    invoked without room for its result. -/
def WithinBounds (input : Json) (log : List Attempted) : Prop :=
  failures log .completeSaga < 4 ∧ failures log .markFailed < 5 ∧
    (Writable input ∨ ¬ Compensated log)

/-- The ending a final state stands for. -/
def endingOf : Execution StateName → Option Ending
  | .succeeded .completeSaga _ => some .completed
  | .failed .sagaFailed _ => some .rolledBack
  | .failed .compensationFailed _ => some .compensationFailed
  | _ => none

variable {orderId : String} {table₀ table : Table} {done : List Stage} {undone : List Undo}
  {log : List Attempted} {c : Config}

theorem EndsIn.endingOf {ending : Ending} (h : EndsIn orderId c ending) :
    endingOf c.execution = some ending := by
  cases ending with
  | completed =>
      obtain ⟨⟨data, heq⟩, _⟩ := h
      rw [heq]
      rfl
  | rolledBack =>
      obtain ⟨⟨err, heq⟩, _⟩ := h
      rw [heq]
      rfl
  | compensationFailed =>
      obtain ⟨err, heq⟩ := h
      rw [heq]
      rfl

theorem accounted_of_endsIn {ending : Ending} (h : EndsIn orderId c ending)
    (hcharged : Performs c.log .chargePayment →
      status orderId c.world = some statusCompleted ∨ Compensated c.log) : Accounted orderId c :=
  ⟨⟨ending, h, fun _ h' => Option.some.inj (h'.endingOf.symm.trans h.endingOf)⟩, hcharged⟩

/-- An execution that failed in another state has none of the endings. -/
theorem not_accounted {s : StateName} {err : TaskError} (hfailed : c.execution = .failed s err)
    (hs : OrderSaga.endingOf (.failed s err) = none) : ¬ Accounted orderId c := by
  rintro ⟨⟨ending, h, _⟩, _⟩
  have hsome := h.endingOf
  rw [hfailed, hs] at hsome
  cases hsome

/-- What the books have as performed is undone when all that can be is. -/
theorem Books.undone_of_performs {closing : List StateName}
    (h : Books orderId table₀ done (done.filterMap plan.undo) closing table log)
    (hclosing : ∀ s : Stage, s.state ∉ closing) {u : Undo} (hperforms : Performs log u.stage) :
    u ∈ done.filterMap plan.undo := by
  obtain ⟨inv, hmem, hstate, event, hevent, detail, hrecords⟩ := hperforms
  have hreturned := h.records inv hmem u.stage hstate event hevent detail hrecords
  have hdone := (h.mem_done hclosing u.stage).mpr ⟨inv, hmem, hstate, hreturned⟩
  exact List.mem_filterMap.mpr ⟨u.stage, List.mem_reverse.mp hdone, undo_eq_some.mpr rfl⟩

theorem Books.compensated {closing : List StateName}
    (h : Books orderId table₀ done undone closing table log) {u : Undo} (hu : u ∈ undone) :
    Compensated log := by
  have hreturns : u.state ∈ returns log := by
    rw [h.returned]
    exact List.mem_append_left _ (List.mem_append_right _ (List.mem_map_of_mem hu))
  obtain ⟨inv, hmem, hstate, _⟩ := mem_returns.mp hreturns
  exact ⟨inv, hmem, u, hstate⟩

/-- Where a tidy execution ends, it is accounted for exactly within the bounds. -/
theorem Tracks.accounted_iff {input : Json} {p : Compensation.Phase Stage Undo}
    (h : Tracks orderId input table₀ c p) (hsound : plan.Sound p)
    (hended : ∀ s data left, c.execution ≠ .running s data left) :
    Accounted orderId c ↔ WithinBounds input c.log := by
  have hmarked : ∀ {log}, Visited [.completeSaga] log → failures log .markFailed = 0 := fun hlog =>
    hlog.failures_eq_zero (fun _ => stage_state_ne_markFailed) (fun _ => undo_state_ne_markFailed)
      (by simp)
  have hfinished : ∀ {log}, Visited [.markFailed] log → failures log .completeSaga = 0 := fun hlog =>
    hlog.failures_eq_zero (fun _ => stage_state_ne_completeSaga)
      (fun _ => undo_state_ne_completeSaga) (by simp)
  cases h with
  | @completed done data table log hbooks hdone hstatus hlog hnone hcount =>
      have hbounds : WithinBounds input log :=
        ⟨Nat.lt_succ_of_le hcount, by rw [hmarked hlog]; decide, .inr hnone⟩
      have hending : EndsIn orderId ⟨.succeeded .completeSaga data, table, log⟩ .completed :=
        ⟨⟨data, rfl⟩, hstatus⟩
      exact iff_of_true (accounted_of_endsIn hending fun _ => .inl hstatus) hbounds
  | @rolledBack done failed undone err table log hbooks hstatus hlog hfailed hroom hcount =>
      obtain ⟨_, rfl⟩ := hsound
      have hundone : ∀ u : Undo, Performs log u.stage → u ∈ done.filterMap plan.undo := fun u =>
        hbooks.undone_of_performs fun s => by simp [stage_state_ne_markFailed]
      have hbounds : WithinBounds input log :=
        ⟨by rw [hfinished hlog]; decide, Nat.lt_succ_of_le hcount, hroom⟩
      have hending : EndsIn orderId ⟨.failed .sagaFailed err, table, log⟩ .rolledBack := by
        refine ⟨⟨err, rfl⟩, hstatus, fun u hperforms => ?_⟩
        obtain ⟨_, _, _, d, _, _, _, hrecorded⟩ := hbooks.settled u (hundone u hperforms)
        exact ⟨d, hrecorded⟩
      refine iff_of_true (accounted_of_endsIn hending fun hperforms => .inr ?_) hbounds
      exact hbooks.compensated (hundone .refundPayment hperforms)
  | incomplete hraises hcount =>
      apply iff_of_false (not_accounted rfl rfl)
      intro hbounds
      exact absurd hcount (Nat.ne_of_lt hbounds.1)
  | unmarked hraises hcount =>
      apply iff_of_false (not_accounted rfl rfl)
      intro hbounds
      exact absurd hcount (Nat.ne_of_lt hbounds.2.1)
  | @uncompensated u err table log hraises hlog hfailed hroom =>
      obtain ⟨inv, hmem, hstate, _⟩ := hfailed
      have hbounds : WithinBounds input log :=
        ⟨by rw [hfinished (hlog.mono (by simp))]; decide,
          by rw [hmarked (hlog.mono (by simp))]; decide, .inl hroom⟩
      have hending : EndsIn orderId ⟨.failed .compensationFailed err, table, log⟩
          .compensationFailed := ⟨err, rfl⟩
      exact iff_of_true (accounted_of_endsIn hending fun _ => .inr ⟨inv, hmem, u, hstate⟩) hbounds
  | @blocked u err table log hinvoked hroom =>
      apply iff_of_false (not_accounted rfl (by cases u <;> rfl))
      intro hbounds
      exact hbounds.2.2.elim hroom fun hnone => hnone hinvoked
  | _ => exact absurd rfl (hended _ _ _)

theorem permits_lostAfter {py : Python} {error : String} :
    Permits py FailsUnwritten (.lostAfter 0 error) := by
  intro s event p table
  refine .inr fun event hmem => ?_
  cases p <;> simp [Fate.lostAfter, Program.run] at hmem

/-- A run that only fails before it writes ends accounted for exactly when it
    stays within the bounds of the bookkeeping tasks. -/
theorem accounted_iff_withinBounds (py : Python) (orderId : String) (input : Json) (table₀ : Table)
    (hne : orderId ≠ "") (hinput : ForOrder orderId input) (hfiled : Filed orderId table₀)
    (run : Transition.MaximalRun (Step py FailsUnwritten) ((workflow py).init input table₀)) :
    (∃ n, Transition.Stuck (Step py FailsUnwritten) (run.state n)) ∧
    ∀ n, Transition.Stuck (Step py FailsUnwritten) (run.state n) →
      (Accounted orderId (run.state n) ↔ WithinBounds input (run.state n).log) := by
  obtain ⟨hends, hphase⟩ := run_ends hne (fun _ => FailsUnwritten.tidy) (.lostAfter 0 "")
    permits_lostAfter hfiled hinput run
  refine ⟨hends, fun n hstuck => ?_⟩
  obtain ⟨hended, p, hsound, htracks⟩ := hphase n hstuck
  exact htracks.accounted_iff hsound hended

/-- `CompleteSaga` fails each time it is tried, before it does anything. -/
def completionFails (c : Config) : Fate :=
  match c.execution with
  | .running .completeSaga _ _ => .lostAfter 0 "Lambda.Unknown"
  | _ => .smooth

theorem failsUnwritten_of_check {inv : Attempted}
    (h : (inv.outcome.isReturned || inv.calls.isEmpty) = true) : FailsUnwritten inv := by
  rw [Bool.or_eq_true, List.isEmpty_iff] at h
  rcases h with hreturned | hcalls
  · exact .inl (Outcome.isReturned_iff.mp hreturned)
  · exact .inr (by simp [hcalls])

def completionFailsRun : Transition.MaximalRun (Step .sample FailsUnwritten)
    ((workflow .sample).init (sampleInput .null) fun _ => none) :=
  scheduled (answer .sample) answer_exec completionFails _ 9
    (fun n hn inv hmem => failsUnwritten_of_check <|
      (by decide +kernel : ∀ n < 9, ∀ inv ∈ ((workflow .sample).trajectory (answer .sample)
        completionFails ((workflow .sample).init (sampleInput .null) fun _ => none) (n + 1)).log,
        (inv.outcome.isReturned || inv.calls.isEmpty) = true) n hn inv hmem)
    rfl

theorem accounted_iff_withinBounds_completionFails :
    (∃ n, Transition.Stuck (Step .sample FailsUnwritten) (completionFailsRun.state n)) ∧
    ∀ n, Transition.Stuck (Step .sample FailsUnwritten) (completionFailsRun.state n) →
      (Accounted "ord-1001" (completionFailsRun.state n) ↔
        WithinBounds (sampleInput .null) (completionFailsRun.state n).log) :=
  accounted_iff_withinBounds .sample "ord-1001" (sampleInput .null) (fun _ => none) (by decide)
    ⟨_, rfl, rfl⟩ (by simp [Filed]) completionFailsRun

/-- The payment is charged, the status is still STARTED, and nothing was
    compensated. -/
theorem accounted_counterexample :
    ¬ ∀ (py : Python) (orderId : String) (input : Json) (table₀ : Table)
        (run : Transition.MaximalRun (Step py FailsUnwritten) ((workflow py).init input table₀)) n,
      orderId ≠ "" → ForOrder orderId input → Filed orderId table₀ →
      Transition.Stuck (Step py FailsUnwritten) (run.state n) → Accounted orderId (run.state n) := by
  intro h
  have haccounted := h .sample "ord-1001" (sampleInput .null) (fun _ => none) completionFailsRun 9 (by decide)
    ⟨_, rfl, rfl⟩ (by simp [Filed]) (stuck_of_advance_none (rfl : advance _ (answer .sample) .smooth _ = none))
  exact not_accounted rfl rfl haccounted

example : status "ord-1001" (completionFailsRun.state 9).world = some statusStarted := rfl

end OrderSaga
