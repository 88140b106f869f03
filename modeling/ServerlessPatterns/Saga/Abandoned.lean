-- SUMMARY: A saga whose given-up attempts go on writing beside their retries and the later states: what the record still says.
import ServerlessPatterns.Library.Executions
import ServerlessPatterns.Saga.Courses

/-!
# Abandoned attempts

Step Functions gives an attempt up after thirty or sixty seconds, or when it loses the
connection, while the function behind it goes on. What it still writes comes over what
its retry and the later states have written, since no write of the store asks what is
there. The record is right for as long as no late write overrides one that counts.
-/

namespace OrderSaga

open Asl Program Workflow

abbrev Saga := Session StateName Op Ans

/-- What was performed by the attempts that returned, and by the one that is waited for. -/
def counted (s : Saga) : List (Event Op Ans) :=
  (s.log.filter (·.outcome.isReturned)).flatMap (·.calls) ++ s.current.elim [] (·.calls)

/-- A late operation overrides no write that counts. -/
def Harmless (s : Saga) (late : Bool) (op : Op) (_ : Table) : Prop :=
  late = true → ∀ event ∈ counted s, Writes event → op.overrides event.1 = false

/-- The result of a forward step: it returned it, or it is in the state data at the end. -/
def HasResult (s : Saga) (stage : Stage) (result : Json) : Prop :=
  (∃ inv ∈ s.log, inv.state = stage.state ∧ inv.outcome = .returned result) ∨
  ∃ state data, s.execution = .succeeded state data ∧
    data.get ["results", stage.resultKey] = some result

variable {py : Python} {id data : Json} {s s' : Saga} {table table' : Table}
  {log : List Attempted} {state : StateName} {calls : List (Event Op Ans)} {result : Json}

theorem mem_counted {event : Event Op Ans} : event ∈ counted s ↔
    (∃ inv ∈ s.log, (∃ result, inv.outcome = .returned result) ∧ event ∈ inv.calls) ∨
      ∃ u, s.current = some u ∧ event ∈ u.calls := by
  unfold counted
  cases s.current <;>
    simp [List.mem_flatMap, Outcome.isReturned_iff, and_assoc]

/-! ## The invariant -/

/-- What an attempt has done belongs to its state, and what it leaves for good stands. -/
structure InPlace (id : Json) (table : Table) (state : StateName) (calls : List (Event Op Ans)) :
    Prop where
  uses : ∀ event ∈ calls, Uses id state event.1
  stands : ∀ event ∈ calls, Writes event → Lasting state event.1 → event.1.Stands table

/-- Some attempt in the state has returned. -/
def ReturnedAt (state : StateName) (log : List Attempted) : Prop :=
  ∃ inv ∈ log, inv.state = state ∧ ∃ result, inv.outcome = .returned result

/-- The results in the data were returned. -/
def Gathered (data : Json) (log : List Attempted) : Prop :=
  ∀ (stage : Stage) (result : Json), data.get ["results", stage.resultKey] = some result →
    ∃ inv ∈ log, inv.state = stage.state ∧ inv.outcome = .returned result

/-- Where the execution stands, given which attempts have returned: it never comes back to
    a state, and it comes to an end of its own only through the last one. -/
inductive Located (id : Json) (log : List Attempted) : Execution StateName → Prop where
  | running {state : StateName} {data : Json} {left : List Nat} (horder : idOf data = id)
      (hpast : ∀ other, ReturnedAt other log →
        rank state < rank other ∧ other ≠ .completeSaga ∧ other ≠ .markFailed)
      (hresults : state = .initializeSaga ∨ Gathered data log) : Located id log (.running state data left)
  | succeeded {data : Json} (hreturned : ReturnedAt .completeSaga log)
      (hresults : Gathered data log) : Located id log (.succeeded .completeSaga data)
  | rolledBack {err : TaskError} (hreturned : ReturnedAt .markFailed log) :
      Located id log (.failed .sagaFailed err)
  | failed {state : StateName} {err : TaskError} (hstate : state ≠ .sagaFailed) :
      Located id log (.failed state err)

/-- The attempts that count and the record fit together. -/
structure Coherent (id : Json) (s : Saga) (table : Table) : Prop where
  place : Located id s.log s.execution
  returned : ∀ inv ∈ s.log, ∀ result, inv.outcome = .returned result →
    InPlace id table inv.state inv.calls ∧ Leaves id inv.state inv.calls result
  current : ∀ u, s.current = some u → ∃ state data left, s.execution = .running state data left ∧
    InPlace id table state u.calls ∧ Course id state u.calls u.program

/-- What stands after an operation, if it overrides nothing that was left for good. -/
theorem InPlace.kept {op : Op} {answer : Ans op} (h : InPlace id table state calls)
    (hexec : exec py op table answer table')
    (hkept : ∀ event ∈ calls, Writes event → Lasting state event.1 → op.overrides event.1 = false) :
    InPlace id table' state calls where
  uses := h.uses
  stands event hmem hwrites hlasting :=
    (h.stands event hmem hwrites hlasting).kept hexec (hkept event hmem hwrites hlasting)

/-! ## Turns -/

theorem ReturnedAt.append {inv : Attempted} (h : ReturnedAt state log) : ReturnedAt state (log ++ [inv]) := by
  obtain ⟨inv', hmem, hreturned⟩ := h
  exact ⟨inv', List.mem_append_left _ hmem, hreturned⟩

theorem returnedAt_append {inv : Attempted} (h : ReturnedAt state (log ++ [inv])) :
    ReturnedAt state log ∨ (inv.state = state ∧ ∃ result, inv.outcome = .returned result) := by
  obtain ⟨inv', hmem, hreturned⟩ := h
  cases List.mem_append.mp hmem with
  | inl hold => exact .inl ⟨inv', hold, hreturned⟩
  | inr hnew =>
      obtain rfl := List.mem_singleton.mp hnew
      exact .inr hreturned

theorem Gathered.append {inv : Attempted} (h : Gathered data log) : Gathered data (log ++ [inv]) := by
  intro stage result hresult
  obtain ⟨inv', hmem, hreturned⟩ := h stage result hresult
  exact ⟨inv', List.mem_append_left _ hmem, hreturned⟩

theorem Gathered.put {data' value : Json} {path : Json.Path} (h : Gathered data log)
    (hput : data.put path value = some data')
    (hapart : ∀ stage : Stage, path.Apart ["results", stage.resultKey]) : Gathered data' log := by
  intro stage result hresult
  rw [Json.get_put_apart hput (hapart stage)] at hresult
  exact h stage result hresult

/-- The result of a task goes into the data. -/
theorem Gathered.completed {t : Task StateName Function} {data' event : Json}
    (hstate : machine.states state = .task t) (h : Gathered data log)
    (hput : data.put t.resultPath result = some data') :
    Gathered data' (log ++ [⟨state, event, calls, .returned result⟩]) := by
  intro stage other hother
  by_cases hstage : state = stage.state
  · subst hstage
    obtain rfl : stage.task = t := State.task.inj (stage.states_state.symm.trans hstate)
    rw [stage.task_resultPath] at hput
    obtain rfl := Option.some.inj ((Json.get_put hput).symm.trans hother)
    exact ⟨_, List.mem_append_right _ List.mem_cons_self, rfl, rfl⟩
  · rw [Json.get_put_apart hput (paths_apart hstate hstage).1] at hother
    exact h.append stage other hother

theorem Located.enter (horder : idOf data = id) (hresults : Gathered data log)
    (hpast : ∀ other, ReturnedAt other log → rank state < rank other)
    (hopen : state ≠ .sagaFailed → ¬ ReturnedAt .completeSaga log ∧ ¬ ReturnedAt .markFailed log)
    (hend : state = .sagaFailed → ReturnedAt .markFailed log) :
    Located id log (machine.enter state data) := by
  have hrunning : ∀ left, state ≠ .sagaFailed → Located id log (.running state data left) := by
    intro left hstate
    refine .running horder (fun other hother => ⟨hpast other hother, ?_, ?_⟩) (.inr hresults)
    · rintro rfl
      exact (hopen hstate).1 hother
    · rintro rfl
      exact (hopen hstate).2 hother
  cases state with
  | sagaFailed => exact .rolledBack (hend rfl)
  | compensationFailed => exact .failed (by decide)
  | _ => exact hrunning _ (by decide)

theorem Located.move {e e' : Execution StateName} (h : Located id log e) (hmove : machine.Moves e e') :
    Located id log e' := by
  cases hmove with
  | @pass s _ _ _ _ _ _ hstate hput =>
      cases s <;> cases hstate
      cases h with
      | running horder hpast =>
          have hnone : ∀ other, ReturnedAt other log → False := by
            intro other hother
            have hrank := (hpast other hother).1
            cases other <;> simp [rank] at hrank
          apply Located.enter
          · rw [idOf_put hput (.inl (by decide)), horder]
          · intro stage result hresult
            have hempty := Json.get_put hput
            rw [Json.get_single] at hempty
            simp [hempty] at hresult
          · exact fun other hother => (hnone other hother).elim
          · exact fun _ => ⟨hnone _, hnone _⟩
          · exact fun heq => by cases heq
  | @passError s _ _ _ _ _ hstate _ =>
      refine .failed ?_
      rintro rfl
      cases hstate
  | @route s _ _ _ hroute => cases s <;> cases hroute
  | @routeError s _ _ hroute => cases s <;> cases hroute
  | @eventError s _ _ _ _ hstate _ =>
      refine .failed ?_
      rintro rfl
      cases hstate

theorem Located.fault {t : Task StateName Function} {left : List Nat} {err : TaskError}
    (hstate : machine.states state = .task t) (h : Located id log (.running state data left)) :
    Located id log (machine.fault state t data left err) := by
  cases h with
  | running horder hpast hresults =>
      have hgathered := hresults.resolve_left (task_ne_initializeSaga hstate)
      rcases machine.fault_cases state t data left err with
        ⟨i, _, _, heq⟩ | ⟨c, hc, _, data', hput, heq⟩ | ⟨err', heq⟩
      · rw [heq]
        exact .running horder hpast (.inr hgathered)
      · rw [heq]
        have hrank := machine_descends.catcher state t hstate c hc
        apply Located.enter
        · rw [idOf_put hput (catcher_resultPath_apart hstate hc), horder]
        · exact hgathered.put hput (catcher_spec hstate hc).2
        · exact fun other hother => lt_trans hrank (hpast other hother).1
        · exact fun _ => ⟨fun hother => (hpast _ hother).2.1 rfl, fun hother => (hpast _ hother).2.2 rfl⟩
        · exact fun hnext => absurd hnext (catcher_spec hstate hc).1
      · rw [heq]
        exact .failed (task_ne_sagaFailed hstate)

/-- An attempt that did not return changes nothing. -/
theorem Located.append {e : Execution StateName} {inv : Attempted} (h : Located id log e)
    (hnot : ∀ result, inv.outcome ≠ .returned result) : Located id (log ++ [inv]) e := by
  cases h with
  | running horder hpast hresults =>
      refine .running horder (fun other hother => ?_) (hresults.imp_right Gathered.append)
      cases returnedAt_append hother with
      | inl hold => exact hpast other hold
      | inr hnew =>
          obtain ⟨_, result, hreturned⟩ := hnew
          exact absurd hreturned (hnot result)
  | succeeded hreturned hresults => exact .succeeded hreturned.append hresults.append
  | rolledBack hreturned => exact .rolledBack hreturned.append
  | failed hstate => exact .failed hstate

theorem Located.complete {t : Task StateName Function} {left : List Nat} {context event : Json}
    (hstate : machine.states state = .task t) (h : Located id log (.running state data left)) :
    Located id (log ++ [⟨state, event, calls, .returned result⟩])
      (machine.complete state t context data result) := by
  have hnew : ReturnedAt state (log ++ [⟨state, event, calls, .returned result⟩]) :=
    ⟨_, List.mem_append_right _ List.mem_cons_self, rfl, result, rfl⟩
  cases h with
  | running horder hpast hresults =>
      have hgathered := hresults.resolve_left (task_ne_initializeSaga hstate)
      rcases machine.complete_cases state t context data result with
        ⟨_, heq⟩ | ⟨data', hput, ⟨hnext, heq⟩ | ⟨next, hnext, heq⟩⟩
      · rw [heq]
        exact .failed (task_ne_sagaFailed hstate)
      · rw [heq]
        rw [(task_direct hstate).output] at hput
        obtain rfl := eq_completeSaga_of_end hstate hnext
        exact .succeeded hnew (hgathered.completed hstate hput)
      · rw [heq]
        rw [(task_direct hstate).output] at hput
        have hrank := machine_descends.next state t hstate next hnext
        apply Located.enter
        · rw [idOf_put hput (task_resultPath_apart hstate), horder]
        · exact hgathered.completed hstate hput
        · intro other hother
          cases returnedAt_append hother with
          | inl hold => exact lt_trans hrank (hpast other hold).1
          | inr hlast =>
              obtain rfl : state = other := hlast.1
              exact hrank
        · intro hopen
          obtain ⟨hcomplete, hfailed⟩ := next_spec hstate hnext
          constructor
          · intro hother
            cases returnedAt_append hother with
            | inl hold => exact (hpast _ hold).2.1 rfl
            | inr hlast => exact hcomplete hlast.1
          · intro hother
            cases returnedAt_append hother with
            | inl hold => exact (hpast _ hold).2.2 rfl
            | inr hlast => exact hopen (hfailed.mpr hlast.1)
        · intro hend
          obtain rfl := (next_spec hstate hnext).2.mp hend
          exact hnew

/-! ## Operations -/

/-- A late operation that is harmless. -/
theorem Coherent.late {op : Op} {answer : Ans op} {late : List (Underway Op Ans)} (h : Coherent id s table)
    (hexec : exec py op table answer table') (hharmless : Harmless s true op table) :
    Coherent id ⟨s.execution, s.current, s.log, late⟩ table' where
  place := h.place
  returned inv hmem result hreturned := by
    obtain ⟨hinplace, hleaves⟩ := h.returned inv hmem result hreturned
    refine ⟨hinplace.kept hexec fun event hevent hwrites _ => ?_, hleaves⟩
    exact hharmless rfl event (mem_counted.mpr (.inl ⟨inv, hmem, ⟨result, hreturned⟩, hevent⟩)) hwrites
  current u hu := by
    obtain ⟨state, data, left, hrunning, hinplace, hcourse⟩ := h.current u hu
    refine ⟨state, data, left, hrunning, hinplace.kept hexec fun event hevent hwrites _ => ?_, hcourse⟩
    exact hharmless rfl event (mem_counted.mpr (.inr ⟨u, hu, hevent⟩)) hwrites

/-- An operation of the attempt that is waited for. -/
theorem Coherent.performed {e : Execution StateName} {u : Underway Op Ans}
    {late : List (Underway Op Ans)} {op : Op} {k : Ans op → Handler Json} {answer : Ans op}
    (h : Coherent id ⟨e, some u, log, late⟩ table) (hprogram : u.program = .call op k)
    (hexec : exec py op table answer table') :
    Coherent id ⟨e, some (u.answered op answer (k answer)), log, late⟩ table' := by
  obtain ⟨state, data, left, hrunning, hinplace, hcourse⟩ := h.current u rfl
  rw [hprogram] at hcourse
  obtain ⟨⟨huses, hown⟩, hrest⟩ := hcourse
  constructor
  · exact h.place
  · intro inv hmem result hreturned
    obtain ⟨hpast, hleaves⟩ := h.returned inv hmem result hreturned
    refine ⟨hpast.kept hexec fun event hevent _ hlasting => ?_, hleaves⟩
    have hplace : Located id log e := h.place
    have hrunning' : e = .running state data left := hrunning
    rw [hrunning'] at hplace
    cases hplace with
    | running _ hbefore =>
        obtain ⟨hrank, hcomplete, hfailed⟩ := hbefore inv.state ⟨inv, hmem, rfl, result, hreturned⟩
        exact huses.overrides_lasting (hpast.uses event hevent) hlasting hrank hcomplete hfailed
  · intro u' hu'
    obtain rfl := Option.some.inj hu'
    refine ⟨state, data, left, hrunning, ⟨?_, ?_⟩, hrest answer (answers_of_exec hexec)⟩
    · exact List.forall_mem_append.mpr ⟨hinplace.uses, List.forall_mem_singleton.mpr huses⟩
    · have hold := hinplace.kept hexec fun event hevent _ hlasting => hown event hevent hlasting
      refine List.forall_mem_append.mpr ⟨hold.stands, List.forall_mem_singleton.mpr ?_⟩
      exact fun hwrites _ => stands_of_exec hexec hwrites

/-! ## Runs -/

/-- What an execution does without an operation. -/
theorem Coherent.turn (h : Coherent id s table) (hturn : s.Turn (workflow py) s') : Coherent id s' table := by
  obtain ⟨hplace, hreturned, hcurrent⟩ := h
  cases hturn with
  | move hmove => exact ⟨hplace.move hmove, hreturned, nofun⟩
  | @invoke state t context data left log late event hstate hevent =>
      refine ⟨hplace, hreturned, fun u hu => ?_⟩
      obtain rfl := Option.some.inj hu
      rw [(task_direct hstate).event, Option.some.injEq] at hevent
      subst hevent
      refine ⟨state, data, left, rfl, ⟨by simp, by simp⟩, ?_⟩
      cases hplace with
      | running horder =>
          subst horder
          exact handler_course hstate
  | @report state t data left u log late outcome report hstate hat hreport =>
      have hdirect := task_direct hstate
      obtain ⟨state', data', left', hrunning, hinplace, hcourse⟩ := hcurrent u rfl
      cases hrunning
      by_cases hreturn : ∃ result, outcome = .returned result
      · obtain ⟨result, rfl⟩ := hreturn
        obtain rfl := hreport.ok (by rw [hdirect.integration]; decide)
        rw [hdirect.wrap]
        rw [show u.program = .ret result from hat] at hcourse
        refine ⟨hplace.complete hstate, fun inv hmem other hother => ?_, nofun⟩
        cases List.mem_append.mp hmem with
        | inl hold => exact hreturned inv hold other hother
        | inr hnew =>
            obtain rfl := List.mem_singleton.mp hnew
            cases hother
            exact ⟨hinplace, hcourse⟩
      · have hnot : ∀ result, outcome ≠ .returned result := fun result heq => hreturn ⟨result, heq⟩
        obtain ⟨err, rfl⟩ := hreport.error (by rw [hdirect.integration]; decide) hnot
        refine ⟨(hplace.fault hstate).append hnot, fun inv hmem other hother => ?_, nofun⟩
        cases List.mem_append.mp hmem with
        | inl hold => exact hreturned inv hold other hother
        | inr hnew =>
            obtain rfl := List.mem_singleton.mp hnew
            exact absurd hother (hnot other)

theorem Coherent.start {input : Json} : Coherent (idOf input) (.start (workflow py) input) table where
  place := .running rfl (by rintro other ⟨inv, hmem, _⟩; cases hmem) (.inl rfl)
  returned inv hmem := by cases hmem
  current u hu := by cases hu

/-- Whether the execution has succeeded, and in which state it came to an end. -/
def ending (s : Saga) : Option (Bool × StateName) :=
  match s.execution with
  | .running .. => none
  | .succeeded state _ => some (true, state)
  | .failed state _ => some (false, state)

end OrderSaga
