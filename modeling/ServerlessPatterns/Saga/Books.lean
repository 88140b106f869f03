-- SUMMARY: The books of an execution: what its log and its record say about the steps done and undone, and how each kind of attempt keeps them.
import ServerlessPatterns.Saga.Attempts
import ServerlessPatterns.Saga.Wiring

/-!
# The books

The log of an execution says which attempts returned, the record says what they
did. Both are kept in step with the list of stages that are done and the list of
compensations that have been run.
-/

namespace OrderSaga

open Workflow Program

/-- An attempt that is given up has written neither a step nor the status. -/
def Tidy (inv : Attempted) : Prop := inv.outcome = .lost → ∀ event ∈ inv.calls, ¬ Writes event

/-- What was undone is what the attempt of the stage returned, and it is recorded
    as such. -/
def Settled (orderId : String) (table : Table) (log : List Attempted) (u : Undo) : Prop :=
  ∃ inv ∈ log, ∃ result d, inv.state = u.stage.state ∧ inv.outcome = .returned result ∧
    u.detail result = some d ∧ Recorded orderId u.name stepDone d table

def OnlyStagesRaise (log : List Attempted) : Prop :=
  ∀ inv ∈ log, ∀ e, inv.outcome = .raised e → ∃ s : Stage, inv.state = s.state

/-- The books of an execution that began on `table₀`, did the stages `done`, the
    latest first, and has undone `undone`. -/
structure Books (orderId : String) (table₀ : Table) (done : List Stage) (undone : List Undo)
    (closing : List StateName) (table : Table) (log : List Attempted) : Prop where
  filed : Filed orderId table
  opened : done ≠ [] → Opened orderId table
  settled : ∀ u ∈ undone, Settled orderId table log u
  blank : (∀ u : Undo, entry orderId u.name table₀ = none) →
    ∀ u : Undo, u ∉ undone → entry orderId u.name table = none
  raises : OnlyStagesRaise log
  /-- A stage that was recorded has returned. -/
  records : ∀ inv ∈ log, ∀ s : Stage, inv.state = s.state → ∀ event ∈ inv.calls, ∀ detail,
    s.Records detail event → ∃ result, inv.outcome = .returned result
  returned : returns log = done.reverse.map Stage.state ++ undone.map Undo.state ++ closing

variable {py : Python} {orderId : String} {table₀ table table' : Table} {done : List Stage}
  {undone : List Undo} {closing : List StateName} {log : List Attempted} {inv : Attempted}
  {data : Json} {calls : List (Event Op Ans)} {outcome : Outcome Exc Json}

theorem books_start (h : Filed orderId table₀) : Books orderId table₀ [] [] [] table₀ [] where
  filed := h
  opened := fun hne => absurd rfl hne
  settled := by simp
  blank := fun hblank u _ => hblank u
  raises := by simp [OnlyStagesRaise]
  records := by simp
  returned := rfl

theorem Settled.append {u : Undo} (h : Settled orderId table log u)
    (hentry : entry orderId u.name table' = entry orderId u.name table) :
    Settled orderId table' (log ++ [inv]) u := by
  obtain ⟨inv', hmem, result, d, hstate, houtcome, hd, time, hrecorded⟩ := h
  exact ⟨inv', List.mem_append_left _ hmem, result, d, hstate, houtcome, hd, time,
    hentry.trans hrecorded⟩

section

variable (h : Books orderId table₀ done undone closing table log)
include h

theorem Books.raises_append
    (hinv : ∀ e, inv.outcome = .raised e → ∃ s : Stage, inv.state = s.state) :
    OnlyStagesRaise (log ++ [inv]) := by
  intro inv' hmem
  rcases List.mem_append.mp hmem with hmem | hmem
  · exact h.raises inv' hmem
  · rw [List.mem_singleton.mp hmem]
    exact hinv

theorem Books.records_append
    (hinv : ∀ s : Stage, inv.state = s.state → ∀ event ∈ inv.calls, ∀ detail,
      s.Records detail event → ∃ result, inv.outcome = .returned result) :
    ∀ inv' ∈ log ++ [inv], ∀ s : Stage, inv'.state = s.state → ∀ event ∈ inv'.calls, ∀ detail,
      s.Records detail event → ∃ result, inv'.outcome = .returned result := by
  intro inv' hmem
  rcases List.mem_append.mp hmem with hmem | hmem
  · exact h.records inv' hmem
  · rw [List.mem_singleton.mp hmem]
    exact hinv

theorem Books.mem_done (hclosing : ∀ s : Stage, s.state ∉ closing) (s : Stage) :
    s ∈ done.reverse ↔
      ∃ inv ∈ log, inv.state = s.state ∧ ∃ result, inv.outcome = .returned result := by
  rw [← mem_returns, h.returned, List.mem_append, List.mem_append]
  constructor
  · intro hs
    exact .inl (.inl (List.mem_map_of_mem hs))
  · rintro ((hs | hu) | hs)
    · obtain ⟨s', hs', heq⟩ := List.mem_map.mp hs
      exact Stage.state_injective heq ▸ hs'
    · obtain ⟨u, _, heq⟩ := List.mem_map.mp hu
      exact absurd heq.symm stage_state_ne_undo
    · exact absurd hs (hclosing s)

/-- An attempt that only sets the status, and does not raise. -/
theorem Books.sameSteps (hsame : SameSteps orderId table table')
    (hstate : ∀ s : Stage, inv.state ≠ s.state) (hraised : ∀ e, inv.outcome ≠ .raised e)
    (closing' : List StateName)
    (hreturned : returns (log ++ [inv]) = returns log ++ closing') :
    Books orderId table₀ done undone (closing ++ closing') table' (log ++ [inv]) where
  filed := hsame.filed
  opened hne := hsame.opened (h.opened hne)
  settled u hu := (h.settled u hu).append (hsame.entries u.name)
  blank hblank u hu := (hsame.entries u.name).trans (h.blank hblank u hu)
  raises := h.raises_append fun e he => absurd he (hraised e)
  records := h.records_append fun s hs => absurd hs (hstate s)
  returned := by rw [hreturned, h.returned]; simp only [List.append_assoc]

end

/-- A forward attempt is entered when it returns. -/
theorem Books.forward (h : Books orderId table₀ done [] [] table log) {s : Stage}
    (hattempt : Attempt (exec py) (s.handler py data) table calls outcome table')
    (hid : idOf data = .str orderId) (htidy : Tidy ⟨s.state, data, calls, outcome⟩) :
    ((∀ result, outcome ≠ .returned result) ∧
      Books orderId table₀ done [] [] table' (log ++ [⟨s.state, data, calls, outcome⟩])) ∨
    ∃ performed, s.Fits performed ∧ outcome = .returned performed.result ∧
      Books orderId table₀ (s :: done) [] [] table' (log ++ [⟨s.state, data, calls, outcome⟩]) := by
  obtain ⟨hforward, hopened⟩ := forward_attempt hattempt hid
  have hblank : (∀ u : Undo, entry orderId u.name table₀ = none) →
      ∀ u : Undo, u ∉ ([] : List Undo) → entry orderId u.name table' = none :=
    fun hblank u hu => hforward.blank u (h.blank hblank u hu)
  have hraises : ∀ e, outcome = .raised e → ∃ s' : Stage, s.state = s'.state := fun _ _ => ⟨s, rfl⟩
  have hrecords : ∀ s' : Stage, s.state = s'.state → ∀ event ∈ calls, ∀ detail,
      s'.Records detail event → ∃ result, outcome = .returned result := by
    intro s' hstate event hmem detail hrecorded
    obtain rfl := Stage.state_injective hstate
    cases forward_end hattempt with
    | returned performed _ _ => exact ⟨_, rfl⟩
    | raised e hnone => exact absurd hrecorded (hnone event hmem detail)
    | lost => exact absurd hrecorded.writes (htidy rfl event hmem)
  have hfailed : (∀ result, outcome ≠ .returned result) →
      Books orderId table₀ done [] [] table' (log ++ [⟨s.state, data, calls, outcome⟩]) :=
    fun hne => {
      filed := hforward.filed h.filed
      opened := fun hdone => hforward.opened (h.opened hdone)
      settled := by simp
      blank := hblank
      raises := h.raises_append hraises
      records := h.records_append hrecords
      returned := by rw [returns_append_failed hne, h.returned] }
  cases forward_end hattempt with
  | raised e _ => exact .inl ⟨nofun, hfailed nofun⟩
  | lost => exact .inl ⟨nofun, hfailed nofun⟩
  | returned performed hfits _ =>
      refine .inr ⟨performed, hfits, rfl, ?_⟩
      exact {
        filed := hforward.filed h.filed
        opened := fun _ => hopened _ rfl
        settled := by simp
        blank := hblank
        raises := h.raises_append hraises
        records := h.records_append hrecords
        returned := by rw [returns_append rfl, h.returned]; simp }

/-- A compensation is entered when it returns. -/
theorem Books.undo (h : Books orderId table₀ done undone [] table log) {u : Undo} {result d : Json}
    (hattempt : Attempt (exec py) (u.handler data) table calls outcome table') (hne : orderId ≠ "")
    (hid : idOf data = .str orderId) (hdone : done ≠ []) (hnew : u ∉ undone)
    (hreturned : ∃ inv ∈ log, inv.state = u.stage.state ∧ inv.outcome = .returned result)
    (hresult : data.get ["results", u.stage.resultKey] = some result)
    (hd : u.detail result = some d) (hfloat : d.hasFloat = false)
    (htidy : Tidy ⟨u.state, data, calls, outcome⟩) :
    (outcome = .lost ∧
      Books orderId table₀ done undone [] table' (log ++ [⟨u.state, data, calls, outcome⟩])) ∨
    ∃ answer, outcome = .returned answer ∧
      Books orderId table₀ done (undone ++ [u]) [] table'
        (log ++ [⟨u.state, data, calls, outcome⟩]) := by
  have hstate : ∀ s : Stage, u.state ≠ s.state := fun s => Ne.symm stage_state_ne_undo
  rcases undo_attempt hattempt hne hid ⟨result, hresult, hd⟩ hfloat h.filed (h.opened hdone) htidy
    with ⟨rfl, hsame⟩ | ⟨⟨answer, rfl⟩, hfiled, hrecorded, hentries⟩
  · refine .inl ⟨rfl, ?_⟩
    apply h.sameSteps hsame hstate (by simp) []
    rw [returns_append_failed (by simp), List.append_nil]
  · refine .inr ⟨answer, rfl, ?_⟩
    obtain ⟨time, hentry⟩ := hrecorded
    exact {
      filed := hfiled
      opened := fun _ => opened_of_entry hentry
      settled := by
        intro u' hu'
        rcases List.mem_append.mp hu' with hold | hlast
        · have hother : u' ≠ u := fun heq => hnew (heq ▸ hold)
          exact (h.settled u' hold).append
            (hentries u'.name fun hname => hother (Undo.name_injective hname))
        · obtain rfl := List.mem_singleton.mp hlast
          obtain ⟨inv, hmem, hinv, houtcome⟩ := hreturned
          exact ⟨inv, List.mem_append_left _ hmem, result, d, hinv, houtcome, hd, time, hentry⟩
      blank := by
        intro hblank u' hu'
        rw [List.mem_append, List.mem_singleton, not_or] at hu'
        rw [hentries u'.name fun hname => hu'.2 (Undo.name_injective hname)]
        exact h.blank hblank u' hu'.1
      raises := h.raises_append (by simp)
      records := h.records_append fun s hs => absurd hs (hstate s)
      returned := by rw [returns_append rfl, h.returned]; simp }

/-- A bookkeeping attempt changes no step. -/
theorem Books.close (h : Books orderId table₀ done undone [] table log) {s : StateName}
    {newStatus : Json} {handler : Handler Json}
    (hhandler : SetsStatus data newStatus handler)
    (hattempt : Attempt (exec py) handler table calls outcome table') (hne : orderId ≠ "")
    (hid : idOf data = .str orderId) (hfloat : newStatus.hasFloat = false)
    (hstate : ∀ s' : Stage, s ≠ s'.state) :
    (outcome = .lost ∧
      Books orderId table₀ done undone [] table' (log ++ [⟨s, data, calls, outcome⟩])) ∨
    ∃ answer, outcome = .returned answer ∧ status orderId table' = some newStatus ∧
      Books orderId table₀ done undone [s] table' (log ++ [⟨s, data, calls, outcome⟩]) := by
  obtain ⟨hsame, rfl | ⟨⟨answer, rfl⟩, hstatus⟩⟩ :=
    setsStatus_attempt hhandler hattempt hne hid hfloat h.filed
  · refine .inl ⟨rfl, ?_⟩
    apply h.sameSteps hsame hstate (by simp) []
    rw [returns_append_failed (by simp), List.append_nil]
  · refine .inr ⟨answer, rfl, hstatus, ?_⟩
    exact h.sameSteps hsame hstate (by simp) [s] (returns_append rfl)

end OrderSaga
