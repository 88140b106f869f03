-- SUMMARY: Charges and reservations that nothing gives back: none remain when every recorded attempt is also reported.
import ServerlessPatterns.Saga.Attempts
import ServerlessPatterns.Saga.Wiring

/-!
# Orphans

An attempt may be reported as failed after its last write. A charge or a
reservation that was recorded in such an attempt is not in the state data, and no
compensation ever hears of it. Apart from that, what was issued is given back
whenever the saga is rolled back, whatever the input and the table hold.
-/

namespace OrderSaga

open Asl Workflow Program Relation

/-- Every id that the stage of `u` recorded was given to `u`, which recorded it as
    done. -/
def GivenBack (u : Undo) (key : String) (log : List Attempted) : Prop :=
  ∀ inv ∈ log, inv.state = u.stage.state → ∀ event ∈ inv.calls, ∀ detail,
    u.stage.Records detail event →
    ∃ id, detail = .obj [(key, id)] ∧ ∃ inv' ∈ log, inv'.state = u.state ∧
      ∃ orderId, ⟨.recordStep orderId u.name stepDone detail, .ok ()⟩ ∈ inv'.calls

/-- No charge and no reservation is left alone. -/
def NoOrphans (log : List Attempted) : Prop :=
  GivenBack .refundPayment "payment_id" log ∧ GivenBack .releaseInventory "reservation_id" log

/-- A charge or a reservation is not reported as failed after it was recorded. -/
def Acknowledged (inv : Attempted) : Prop :=
  inv.outcome = .lost → ∀ u : Undo, u.idKey.isSome → inv.state = u.stage.state →
    ∀ event ∈ inv.calls, ∀ detail, ¬ u.stage.Records detail event

/-! ## Where a state stands -/

/-- Where a state stands, seen from an undo: before its stage has returned, from
    then until the undo has returned, or after both. -/
inductive Position where
  | before
  | within
  | after
  deriving DecidableEq

def Undo.position (u : Undo) (s : StateName) : Position :=
  if rank u.stage.state ≤ rank s then .before
  else if rank u.state ≤ rank s then .within
  else .after

/-- Nothing was issued. -/
def Unissued (u : Undo) (log : List Attempted) : Prop :=
  ∀ inv ∈ log, inv.state = u.stage.state → ∀ event ∈ inv.calls, ∀ detail,
    ¬ u.stage.Records detail event

/-- All that was issued is in the data. -/
def Held (u : Undo) (data : Json) (log : List Attempted) : Prop :=
  ∃ d, u.Reads data d ∧ ∀ inv ∈ log, inv.state = u.stage.state → ∀ event ∈ inv.calls, ∀ detail,
    u.stage.Records detail event → detail = d

def Holds (u : Undo) (key : String) (data : Json) (log : List Attempted) : Position → Prop
  | .before => Unissued u log
  | .within => Held u data log
  | .after => GivenBack u key log

def Covered (u : Undo) (key : String) (c : Config) : Prop :=
  match c.execution with
  | .running s data _ => Holds u key data c.log (u.position s)
  | .failed .sagaFailed _ => GivenBack u key c.log
  | _ => True

variable {py : Python} {u : Undo} {key : String} {data data' : Json} {log : List Attempted}
  {inv : Attempted} {table table' : Table} {calls : List (Event Op Ans)}
  {outcome : Outcome Exc Json} {s s' : StateName} {t : Task StateName Function}

theorem Unissued.append (h : Unissued u log)
    (hinv : inv.state = u.stage.state → ∀ event ∈ inv.calls, ∀ detail,
      ¬ u.stage.Records detail event) : Unissued u (log ++ [inv]) := by
  intro inv' hmem
  rcases List.mem_append.mp hmem with hmem | hmem
  · exact h inv' hmem
  · rw [List.mem_singleton.mp hmem]
    exact hinv

theorem Held.append (h : Held u data log) (hreads : ∀ d, u.Reads data d → u.Reads data' d)
    (hinv : inv.state ≠ u.stage.state) : Held u data' (log ++ [inv]) := by
  obtain ⟨d, hd, hall⟩ := h
  refine ⟨d, hreads d hd, fun inv' hmem hstate => ?_⟩
  rcases List.mem_append.mp hmem with hmem | hmem
  · exact hall inv' hmem hstate
  · rw [List.mem_singleton.mp hmem] at hstate
    exact absurd hstate hinv

theorem GivenBack.append (h : GivenBack u key log) (hinv : inv.state ≠ u.stage.state) :
    GivenBack u key (log ++ [inv]) := by
  intro inv' hmem hstate event hevent detail hrecords
  rcases List.mem_append.mp hmem with hmem | hmem
  · obtain ⟨id, hid, inv'', hmem'', hgiven⟩ := h inv' hmem hstate event hevent detail hrecords
    exact ⟨id, hid, inv'', List.mem_append_left _ hmem'', hgiven⟩
  · rw [List.mem_singleton.mp hmem] at hstate
    exact absurd hstate hinv

theorem Unissued.givenBack (h : Unissued u log) : GivenBack u key log :=
  fun inv hmem hstate event hevent detail hrecords =>
    absurd hrecords (h inv hmem hstate event hevent detail)

/-! ## What the machine does -/

theorem enter_covered (h : Holds u key data log (u.position s)) :
    Covered u key ⟨machine.enter s data, table, log⟩ := by
  cases s with
  | sagaFailed => cases u <;> exact h
  | compensationFailed => trivial
  | _ => exact h

/-- A task that fails on its own account does not end in `SagaFailed`. -/
theorem failed_covered {err : TaskError} (h : machine.states s = .task t) :
    Covered u key ⟨.failed s err, table, log⟩ := by
  cases s with
  | sagaFailed => cases h
  | _ => trivial

/-- The state after `s`, other than the stage and the undo themselves, stands where
    `s` stands, or the stage is passed by, or it is the end. -/
def Follows (u : Undo) (s s' : StateName) : Prop :=
  u.position s' = u.position s ∨ (u.position s = .before ∧ u.position s' = .after) ∨
    s' = .compensationFailed

instance : Decidable (Follows u s s') := inferInstanceAs (Decidable (_ ∨ _))

theorem follows_next (h : machine.states s = .task t) (hnext : t.next = some s')
    (hstage : s ≠ u.stage.state) (hundo : s ≠ u.state) : Follows u s s' := by
  cases u <;> cases s <;> cases h <;> cases hnext <;> revert hstage hundo <;> decide

theorem follows_catcher (h : machine.states s = .task t) : ∀ c ∈ t.catchers, Follows u s c.next := by
  cases u <;> cases s <;> cases h <;> decide

theorem reads_of_put {path : Json.Path} {value d : Json} (hput : data.put path value = some data')
    (hapart : path.Apart ["results", u.stage.resultKey]) (h : u.Reads data d) : u.Reads data' d := by
  obtain ⟨result, hresult, hd⟩ := h
  exact ⟨result, (Json.get_put_apart hput hapart).trans hresult, hd⟩

/-- Other tasks than the stage and the undo change nothing. -/
theorem Holds.append {p : Position} (h : Holds u key data log p)
    (hstage : inv.state ≠ u.stage.state) (hreads : ∀ d, u.Reads data d → u.Reads data' d) :
    Holds u key data' (log ++ [inv]) p := by
  cases p with
  | before => exact Unissued.append h fun heq => absurd heq hstage
  | within => exact Held.append h hreads hstage
  | after => exact GivenBack.append h hstage

theorem Holds.follows (h : Holds u key data log (u.position s)) (hfollows : Follows u s s') :
    Covered u key ⟨machine.enter s' data, table, log⟩ := by
  rcases hfollows with heq | ⟨hbefore, hafter⟩ | rfl
  · exact enter_covered (heq ▸ h)
  · apply enter_covered
    rw [hbefore] at h
    rw [hafter]
    exact h.givenBack
  · trivial

/-! ## Attempts -/

/-- What becomes of an execution at a task: it goes on there with the same data,
    it fails, or it ends. -/
theorem covered_other {left : List Nat} {execution : Execution StateName}
    (hstate : machine.states s = .task t) (hstage : s ≠ u.stage.state) (hundo : s ≠ u.state)
    (h : Holds u key data log (u.position s))
    (hend : Concludes machine s t data left outcome execution) :
    Covered u key ⟨execution, table', log ++ [⟨s, data, calls, outcome⟩]⟩ := by
  obtain ⟨hresult, hcatch⟩ := paths_apart hstate hstage
  cases hend with
  | @returned result context =>
      rcases machine.complete_cases s t context data result with
        ⟨_, heq⟩ | ⟨data', hput, ⟨_, heq⟩ | ⟨s', hnext, heq⟩⟩
      · rw [heq]
        exact failed_covered hstate
      · rw [heq]
        trivial
      · rw [(task_direct hstate).output] at hput
        have hafter : Holds u key data' (log ++ [⟨s, data, calls, .returned result⟩]) (u.position s) :=
          h.append hstage fun d hd => reads_of_put hput hresult hd
        rw [heq]
        exact hafter.follows (follows_next hstate hnext hstage hundo)
  | @failed _ err _ =>
      rcases machine.fault_cases s t data left err with
        ⟨i, _, _, heq⟩ | ⟨c, hc, _, data', hput, heq⟩ | ⟨err', heq⟩
      · rw [heq]
        exact h.append hstage fun d hd => hd
      · have hafter : Holds u key data' (log ++ [⟨s, data, calls, outcome⟩]) (u.position s) :=
          h.append hstage fun d hd => reads_of_put hput (hcatch c hc) hd
        rw [heq]
        exact hafter.follows (follows_catcher hstate c hc)
      · rw [heq]
        exact failed_covered hstate

/-- The stage itself: it issues something only when it returns. -/
theorem covered_stage {left : List Nat} {execution : Execution StateName}
    (hkey : u.idKey = some key)
    (hattempt : Attempt (exec py) (u.stage.handler py data) table calls outcome table')
    (hacknowledged : Acknowledged ⟨u.stage.state, data, calls, outcome⟩) (h : Unissued u log)
    (hend : Concludes machine u.stage.state u.stage.task data left outcome execution) :
    Covered u key ⟨execution, table', log ++ [⟨u.stage.state, data, calls, outcome⟩]⟩ := by
  have hbefore : u.position u.stage.state = .before := by cases u <;> rfl
  have hsome : u.idKey.isSome := by rw [hkey]; rfl
  cases hend with
  | @returned result context =>
      cases forward_end hattempt with
      | returned performed hfits hrecords =>
          obtain ⟨d, hd, _, hdetail⟩ := hfits u (undo_eq_some.mpr rfl)
          rcases machine.complete_cases u.stage.state u.stage.task context data performed.result with
            ⟨_, heq⟩ | ⟨data', hput, ⟨hnone, heq⟩ | ⟨s', hnext, heq⟩⟩
          · rw [heq]
            exact failed_covered u.stage.states_state
          · rw [heq]
            trivial
          · have hwithin : u.position s' = .within := by
              rw [u.stage.task_next, Option.some.injEq] at hnext
              subst hnext
              cases u <;> rfl
            rw [u.stage.direct.output, u.stage.task_resultPath] at hput
            rw [heq]
            apply enter_covered
            rw [hwithin]
            refine ⟨d, ⟨_, Json.get_put hput, hd⟩, fun inv hmem hstate event hevent detail hrec => ?_⟩
            rcases List.mem_append.mp hmem with hmem | hmem
            · exact absurd hrec (h inv hmem hstate event hevent detail)
            · rw [List.mem_singleton.mp hmem] at hevent
              rw [hrecords event hevent detail hrec, hdetail hsome]
  | @failed _ err hfailed =>
      -- A raise comes before the record, and what is lost was not recorded.
      have hunissued : Unissued u (log ++ [⟨u.stage.state, data, calls, outcome⟩]) := by
        apply h.append
        intro _
        cases forward_end hattempt with
        | returned performed => exact absurd rfl (hfailed _)
        | raised e hnone => exact hnone
        | lost => exact hacknowledged rfl u hsome rfl
      have hholds : ∀ data', Holds u key data' (log ++ [⟨u.stage.state, data, calls, outcome⟩])
          (u.position u.stage.state) := fun data' => hbefore ▸ hunissued
      rcases machine.fault_cases u.stage.state u.stage.task data left err with
        ⟨i, _, _, heq⟩ | ⟨c, hc, _, data', _, heq⟩ | ⟨err', heq⟩
      · rw [heq]
        exact hholds data
      · rw [heq]
        exact (hholds data').follows (follows_catcher u.stage.states_state c hc)
      · rw [heq]
        exact failed_covered u.stage.states_state

/-- A compensation that found something to undo and returned has recorded it. -/
theorem undo_returned {d result : Json} (hkey : u.idKey = some key)
    (hattempt : Attempt (exec py) (u.handler data) table calls (.returned result) table')
    (hread : u.Reads data d) :
    ∃ orderId, ⟨.recordStep orderId u.name stepDone d, .ok ()⟩ ∈ calls := by
  have hsent : u.sent d = d := by
    cases u with
    | cancelOrder => cases hkey
    | _ => rfl
  cases horder : orderOf data with
  | error e =>
      have hraise : u.handler data = .raise e := by
        cases u with
        | cancelOrder => cases hkey
        | _ => simp [Undo.handler, releaseInventory, refundPayment, compensate, horder]
      have hcalls := hattempt.calls
      rw [hraise] at hcalls
      exact absurd hcalls not_calls_raise
  | ok order =>
      have hcommits : (u.handler data).Commits (Undo.Asks (idOf data)) (fun _ _ => True)
          (fun _ => True) (u.Refused (idOf data) d) fun commit _ => u.Commit (idOf data) d commit :=
        undo_commits u horder (fun _ _ => trivial) hread
      rcases hcommits.attempt hattempt (P := fun _ => True) trivial
          (fun _ _ _ _ _ _ _ => ⟨trivial, trivial⟩) with
        ⟨_, _, hlost | ⟨_, _, hraised⟩⟩ | ⟨front, event, table₁, rfl, _, _, _, hlast⟩
      · cases hlost
      · cases hraised
      · rcases hlast with ⟨_, hlost | ⟨_, hraised⟩⟩ | ⟨_, hcommit, _⟩
        · cases hlost
        · cases hraised
        · rw [Undo.Commit, hsent] at hcommit
          exact ⟨_, List.mem_append_right _ (List.mem_singleton.mpr hcommit.symm)⟩

/-- The undo itself: it gives back what is in the data. -/
theorem covered_undo {left : List Nat} {execution : Execution StateName}
    (hkey : u.idKey = some key)
    (hattempt : Attempt (exec py) (u.handler data) table calls outcome table')
    (h : Held u data log)
    (hend : Concludes machine u.state u.task data left outcome execution) :
    Covered u key ⟨execution, table', log ++ [⟨u.state, data, calls, outcome⟩]⟩ := by
  have hwithin : u.position u.state = .within := by cases u <;> rfl
  cases hend with
  | @returned result context =>
      rcases machine.complete_cases u.state u.task context data result with
        ⟨_, heq⟩ | ⟨data', hput, ⟨hnone, heq⟩ | ⟨s', hnext, heq⟩⟩
      · rw [heq]
        exact failed_covered u.states_state
      · rw [heq]
        trivial
      · have hafter : u.position s' = .after := by
          rw [u.task_next, Option.some.injEq] at hnext
          subst hnext
          cases u <;> rfl
        obtain ⟨d, hd, hall⟩ := h
        obtain ⟨orderId, hgiven⟩ := undo_returned hkey hattempt hd
        obtain ⟨stageResult, _, hdetail⟩ := hd
        obtain ⟨id, _, _, hid⟩ := Undo.detail_of_idKey hkey hdetail
        rw [heq]
        apply enter_covered
        rw [hafter]
        intro inv hmem hstate event hevent detail hrecords
        rcases List.mem_append.mp hmem with hmem | hmem
        · obtain rfl := hall inv hmem hstate event hevent detail hrecords
          exact ⟨id, hid, _, List.mem_append_right _ List.mem_cons_self, rfl, orderId, hgiven⟩
        · rw [List.mem_singleton.mp hmem] at hstate
          exact absurd hstate.symm stage_state_ne_undo
  | @failed _ err _ =>
      have hheld : Held u data (log ++ [⟨u.state, data, calls, outcome⟩]) :=
        h.append (fun _ hd => hd) (Ne.symm stage_state_ne_undo)
      have hholds : Holds u key data (log ++ [⟨u.state, data, calls, outcome⟩])
          (u.position u.state) := hwithin ▸ hheld
      rcases machine.fault_cases u.state u.task data left err with
        ⟨i, _, _, heq⟩ | ⟨c, hc, _, data', _, heq⟩ | ⟨err', heq⟩
      · rw [heq]
        exact hholds
      · rw [u.task_catchers, List.mem_singleton] at hc
        subst hc
        rw [heq]
        trivial
      · rw [heq]
        exact failed_covered u.states_state

/-! ## Every step -/

theorem covered_step {allowed : Attempted → Prop} {c c' : Config} (hkey : u.idKey = some key)
    (hallowed : ∀ inv, allowed inv → Acknowledged inv) (h : Covered u key c)
    (hstep : Step py allowed c c') : Covered u key c' := by
  obtain ⟨execution, table, log⟩ := c
  cases execution with
  | succeeded s data => exact absurd hstep (stuck_of_ended nofun _)
  | failed s err => exact absurd hstep (stuck_of_ended nofun _)
  | running s data left =>
      cases hstate : machine.states s with
      | pass result path next =>
          obtain rfl : StateName.initializeSaga = s := by cases s <;> first | rfl | cases hstate
          cases hstep with
          | pass hpass _ =>
              cases hpass
              apply enter_covered
              cases u <;> exact h
          | passError => trivial
          | route hroute => cases hroute
          | routeError => trivial
          | attempt htask => cases htask
          | eventError => trivial
      | wait path next => cases s <;> cases hstate
      | choice rules fallback => cases s <;> cases hstate
      | succeed => cases s <;> cases hstate
      | fail error cause =>
          cases hstep with
          | pass hpass _ => cases hstate.symm.trans hpass
          | passError hpass _ => cases hstate.symm.trans hpass
          | route hroute => cases s <;> cases hroute
          | routeError hroute => cases s <;> cases hroute
          | attempt htask => cases hstate.symm.trans htask
          | eventError htask _ => cases hstate.symm.trans htask
      | task t =>
          obtain ⟨calls, outcome, table', execution, hattempt, hinv, rfl, hend⟩ :=
            Workflow.Step.direct (show (workflow py).machine.states s = _ from hstate)
              (task_direct hstate) hstep
          by_cases hstage : s = u.stage.state
          · subst hstage
            cases u.stage.states_state.symm.trans hstate
            have hbefore : u.position u.stage.state = .before := by cases u <;> rfl
            have hunissued : Holds u key data log (u.position u.stage.state) := h
            rw [hbefore] at hunissued
            have hhandler : Attempt (exec py) (u.stage.handler py data) table calls outcome table' := by
              rw [← Stage.function_resource]
              exact hattempt
            exact covered_stage hkey hhandler (hallowed _ hinv) hunissued hend
          by_cases hundo : s = u.state
          · subst hundo
            cases u.states_state.symm.trans hstate
            have hwithin : u.position u.state = .within := by cases u <;> rfl
            have hheld : Holds u key data log (u.position u.state) := h
            rw [hwithin] at hheld
            have hhandler : Attempt (exec py) (u.handler data) table calls outcome table' := by
              rw [← Undo.function_resource]
              exact hattempt
            exact covered_undo hkey hhandler hheld hend
          exact covered_other hstate hstage hundo h hend

theorem covered_reachable {allowed : Attempted → Prop} {input : Json} {table₀ : Table} {c : Config}
    (hkey : u.idKey = some key) (hallowed : ∀ inv, allowed inv → Acknowledged inv)
    (h : ReflTransGen (Step py allowed) ((workflow py).init input table₀) c) : Covered u key c := by
  refine Transition.invariant h ?_ fun _ _ => covered_step hkey hallowed
  have hunissued : Unissued u [] := by simp [Unissued]
  have hholds : Holds u key input [] (u.position .initializeSaga) := by
    cases u <;> exact hunissued
  exact enter_covered hholds

/-- When every recorded charge and reservation is also reported, a saga that ends
    at `SagaFailed` leaves none of them alone. -/
theorem noOrphans_of_acknowledged (py : Python) (input : Json) (table₀ : Table) (c : Config)
    (hreach : ReflTransGen (Step py Acknowledged) ((workflow py).init input table₀) c)
    (hfailed : ∃ err, c.execution = .failed .sagaFailed err) : NoOrphans c.log := by
  obtain ⟨err, hfailed⟩ := hfailed
  have hcovered : ∀ u key, Undo.idKey u = some key → GivenBack u key c.log := by
    intro u key hkey
    have h := covered_reachable hkey (fun _ h => h) hreach
    unfold Covered at h
    rw [hfailed] at h
    exact h
  exact ⟨hcovered .refundPayment _ rfl, hcovered .releaseInventory _ rfl⟩

theorem acknowledged_of_not_lost {inv : Attempted} (h : inv.outcome.isLost = false) :
    Acknowledged inv := by
  intro hlost
  rw [hlost] at h
  cases h

def acknowledgedRun : Transition.MaximalRun (Step .sample Acknowledged)
    ((workflow .sample).init (sampleInput (.str "schedule_shipment")) fun _ => none) :=
  scheduled (answer .sample) answer_exec (fun _ => .smooth) _ 9
    (fun n hn inv hmem => acknowledged_of_not_lost (failedShipment_not_lost n hn inv hmem))
    failedShipment_ends

theorem noOrphans_of_acknowledged_failedShipment : NoOrphans (acknowledgedRun.state 9).log :=
  noOrphans_of_acknowledged .sample (sampleInput (.str "schedule_shipment")) (fun _ => none) _
    (acknowledgedRun.reachable 9) ⟨_, rfl⟩

/-- The charge is recorded, and then its attempt times out. -/
def chargeTimesOut (c : Config) : Fate :=
  match c.execution with
  | .running .chargePayment _ _ => .lostAfter 2 "States.Timeout"
  | _ => .smooth

def chargeTimesOutRun : Transition.MaximalRun (Step .sample fun _ => True)
    ((workflow .sample).init (sampleInput .null) fun _ => none) :=
  scheduled (answer .sample) answer_exec chargeTimesOut _ 5 (fun _ _ _ _ => trivial) rfl

/-- The saga ends as rolled back, with a charge that was never refunded. -/
theorem noOrphans_counterexample :
    ¬ ∀ (py : Python) (input : Json) (table₀ : Table) (c : Config),
      ReflTransGen (Step py fun _ => True) ((workflow py).init input table₀) c →
      (∃ err, c.execution = .failed .sagaFailed err) → NoOrphans c.log := by
  intro h
  obtain ⟨hpayment, _⟩ := h .sample (sampleInput .null) (fun _ => none) _
    (chargeTimesOutRun.reachable 5) ⟨_, rfl⟩
  have hcharge := List.mem_of_getElem?
    (rfl : (chargeTimesOutRun.state 5).log[1]? = some ⟨.chargePayment, _, _, _⟩)
  obtain ⟨_, _, inv, hmem, hrefund, _⟩ := hpayment _ hcharge rfl _
    (List.mem_of_getElem? (i := 1) rfl) _ ⟨_, rfl⟩
  have hnone : ∀ inv ∈ (chargeTimesOutRun.state 5).log, inv.state ≠ .refundPayment := by
    decide +kernel
  exact hnone inv hmem hrefund

end OrderSaga
