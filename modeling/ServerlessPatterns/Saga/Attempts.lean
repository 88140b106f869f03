-- SUMMARY: What one attempt of a task leaves in the record of its order, whether it returns, raises or is given up.
import ServerlessPatterns.Saga.Ledger
import ServerlessPatterns.Saga.Stages

/-!
# Attempts

The contracts of the handlers, read on the table. A forward step leaves the
record open and the entries of the compensations alone. A compensation that
returns has recorded what it undid.
-/

namespace OrderSaga

open Program

/-- An operation that wrote a step or the status. -/
def Writes : Event Op Ans → Prop
  | ⟨.recordStep .., answer⟩ => answer = .ok ()
  | ⟨.setStatus .., answer⟩ => answer = .ok ()
  | _ => False

/-- The operation recorded the stage as done. -/
def Stage.Records (s : Stage) (detail : Json) (event : Event Op Ans) : Prop :=
  ∃ orderId, event = ⟨.recordStep orderId s.name stepDone detail, .ok ()⟩

theorem Stage.Records.writes {s : Stage} {detail : Json} {event : Event Op Ans}
    (h : s.Records detail event) : Writes event := by
  obtain ⟨orderId, rfl⟩ := h
  exact rfl

variable {py : Python} {orderId : String} {table table' : Table} {event : Json}
  {events : List (Event Op Ans)} {outcome : Outcome Exc Json}

theorem orderOf_of_idOf (h : idOf event = .str orderId) : ∃ order, orderOf event = .ok order := by
  unfold idOf at h
  cases horder : orderOf event with
  | ok order => exact ⟨order, rfl⟩
  | error e => simp [horder] at h

/-! ## Forward steps -/

/-- What a forward attempt may do to the record. -/
structure Forward (orderId : String) (table table' : Table) : Prop where
  filed : Filed orderId table → Filed orderId table'
  opened : Opened orderId table → Opened orderId table'
  blank : ∀ u : Undo, entry orderId u.name table = none → entry orderId u.name table' = none

theorem Forward.refl : Forward orderId table table := ⟨id, id, fun _ => id⟩

theorem Forward.trans {table'' : Table} (h : Forward orderId table table')
    (h' : Forward orderId table' table'') : Forward orderId table table'' where
  filed hfiled := h'.filed (h.filed hfiled)
  opened hopened := h'.opened (h.opened hopened)
  blank u hblank := h'.blank u (h.blank u hblank)

theorem stage_name_ne_undo {s : Stage} {u : Undo} : u.name ≠ s.name := by
  cases u <;> cases s <;> decide

theorem Stage.Asks.forward {s : Stage} {op : Op} {answer : Ans op} (hasks : s.Asks (.str orderId) op)
    (h : exec py op table answer table') : Forward orderId table table' := by
  cases op with
  | start id customerId amount currency ttlSeconds =>
      obtain ⟨_, rfl⟩ := hasks
      rcases start_exec h with ⟨e, _, rfl⟩ | ⟨_, hfiled, hopened, hblank⟩
      · exact .refl
      · exact ⟨hfiled, fun _ => hopened, fun u _ => hblank u.name⟩
  | incrementAttempt id step =>
      obtain rfl := hasks
      obtain ⟨hfiled, hopened, hentries⟩ := incrementAttempt_exec h
      exact ⟨hfiled, hopened, fun u hu => (hentries u.name).trans hu⟩
  | newId idPrefix =>
      obtain ⟨rfl, _⟩ := h
      exact .refl
  | recordStep id step stepStatus detail => exact hasks.elim
  | setStatus id newStatus => exact hasks.elim

theorem recordStep_forward {s : Stage} {detail : Json} {answer : Except Exc Unit}
    (h : exec py (.recordStep (.str orderId) s.name stepDone detail) table answer table') :
    Forward orderId table table' ∧ (answer = .ok () → Opened orderId table') := by
  rcases recordStep_exec h with ⟨e, rfl, rfl⟩ | ⟨_, hfiled, ⟨time, hentry⟩, hentries⟩
  · exact ⟨.refl, nofun⟩
  · have hopened := opened_of_entry hentry
    exact ⟨⟨hfiled, fun _ => hopened,
      fun u hu => (hentries u.name stage_name_ne_undo).trans hu⟩, fun _ => hopened⟩

/-- What is to be known of a forward attempt: a raise comes before the step is
    recorded, and a return after it. -/
inductive ForwardEnd (s : Stage) (events : List (Event Op Ans)) : Outcome Exc Json → Prop
  | returned (performed : Performed) (hfits : s.Fits performed)
      (hrecords : ∀ event ∈ events, ∀ detail, s.Records detail event → detail = performed.detail) :
      ForwardEnd s events (.returned performed.result)
  | raised (e : Exc) (hrecords : ∀ event ∈ events, ∀ detail, ¬ s.Records detail event) :
      ForwardEnd s events (.raised e)
  | lost : ForwardEnd s events .lost

theorem Stage.Asks.not_records {s : Stage} {id detail : Json} {event : Event Op Ans}
    (h : s.Asks id event.1) : ¬ s.Records detail event := by
  rintro ⟨_, rfl⟩
  exact h

theorem Stage.Refused.not_records {s : Stage} {id detail : Json} {event : Event Op Ans}
    (h : s.Refused id event) : ¬ s.Records detail event := by
  obtain ⟨detail', e, rfl⟩ := h
  rintro ⟨_, heq⟩
  cases heq

/-- How a forward attempt ends, on whatever table. -/
theorem forward_end {s : Stage}
    (h : Attempt (exec py) (s.handler py event) table events outcome table') :
    ForwardEnd s events outcome := by
  rcases (forward_commits py s event).attempt h (P := fun _ => True) trivial
      (fun op _ answer _ _ _ hexec => ⟨answers_of_exec hexec, trivial⟩) with
    ⟨_, hasks, rfl | ⟨e, _, rfl⟩⟩ | ⟨front, event, table₁, rfl, hasks, _, _, hlast⟩
  · exact .lost
  · exact .raised e fun event hmem detail => (hasks event hmem).not_records
  · rcases hlast with ⟨hrefused, rfl | ⟨e, rfl⟩⟩ | ⟨result, ⟨performed, hfits, rfl, rfl⟩, rfl | rfl⟩
    · exact .lost
    · refine .raised e fun event hmem detail => ?_
      rcases List.mem_append.mp hmem with hmem | hmem
      · exact (hasks event hmem).not_records
      · rw [List.mem_singleton.mp hmem]
        exact hrefused.not_records
    · exact .lost
    · refine .returned performed hfits fun event hmem detail hrecords => ?_
      rcases List.mem_append.mp hmem with hmem | hmem
      · exact absurd hrecords (hasks event hmem).not_records
      · rw [List.mem_singleton.mp hmem] at hrecords
        obtain ⟨_, heq⟩ := hrecords
        cases heq
        rfl

/-- What a forward attempt does to the record of its order. -/
theorem forward_attempt {s : Stage}
    (h : Attempt (exec py) (s.handler py event) table events outcome table')
    (hid : idOf event = .str orderId) :
    Forward orderId table table' ∧ ∀ result, outcome = .returned result → Opened orderId table' := by
  have hcommits := forward_commits py s event
  rw [hid] at hcommits
  rcases hcommits.attempt h (P := Forward orderId table) .refl
      (fun op _ answer _ hasks hforward hexec =>
        ⟨answers_of_exec hexec, hforward.trans (hasks.forward hexec)⟩) with
    ⟨hforward, _, rfl | ⟨e, _, rfl⟩⟩ | ⟨front, event, table₁, rfl, hasks, hforward, hexec, hlast⟩
  · exact ⟨hforward, nofun⟩
  · exact ⟨hforward, nofun⟩
  · rcases hlast with ⟨⟨detail, e, rfl⟩, houtcome⟩ | ⟨result, ⟨performed, _, rfl, rfl⟩, houtcome⟩
    · refine ⟨hforward.trans (recordStep_forward hexec).1, ?_⟩
      rcases houtcome with rfl | ⟨e', rfl⟩
      · exact nofun
      · exact nofun
    · obtain ⟨hrecord, hopened⟩ := recordStep_forward hexec
      exact ⟨hforward.trans hrecord, fun _ _ => hopened rfl⟩

/-! ## Compensations -/

/-- What stays the same of a record while only its status is set. -/
structure SameSteps (orderId : String) (table table' : Table) : Prop where
  filed : Filed orderId table'
  opened : Opened orderId table → Opened orderId table'
  entries : ∀ step, entry orderId step table' = entry orderId step table

theorem SameSteps.refl (h : Filed orderId table) : SameSteps orderId table table :=
  ⟨h, id, fun _ => rfl⟩

theorem SameSteps.setStatus {newStatus : Json} {answer : Except Exc Unit} {table'' : Table}
    (h : SameSteps orderId table table')
    (hexec : exec py (.setStatus (.str orderId) newStatus) table' answer table'')
    (hne : orderId ≠ "") (hfloat : newStatus.hasFloat = false) :
    answer = .ok () ∧ status orderId table'' = some newStatus ∧
      SameSteps orderId table table'' := by
  obtain ⟨hanswer, hfiled, hstatus, hopened, hentries⟩ := setStatus_exec hexec hne h.filed hfloat
  exact ⟨hanswer, hstatus, hfiled, fun hopen => hopened (h.opened hopen),
    fun step => (hentries step).trans (h.entries step)⟩

/-- The status is set whenever it is asked for. -/
def Succeeds : (op : Op) → Ans op → Prop
  | .setStatus .., answer => answer = .ok ()
  | _, _ => True

/-- What a compensation that finds something to undo does to the record. When it
    is given up, it has not written anything yet. -/
theorem undo_attempt {u : Undo} {d : Json}
    (h : Attempt (exec py) (u.handler event) table events outcome table') (hne : orderId ≠ "")
    (hid : idOf event = .str orderId) (hread : u.Reads event d) (hfloat : d.hasFloat = false)
    (hfiled : Filed orderId table) (hopened : Opened orderId table)
    (hlost : outcome = .lost → ∀ event ∈ events, ¬ Writes event) :
    (outcome = .lost ∧ SameSteps orderId table table') ∨
    ((∃ result, outcome = .returned result) ∧ Filed orderId table' ∧
      Recorded orderId u.name stepDone d table' ∧
      ∀ other, other ≠ u.name → entry orderId other table' = entry orderId other table) := by
  obtain ⟨order, horder⟩ := orderOf_of_idOf hid
  have hcommits : (u.handler event).Commits (Undo.Asks (.str orderId)) Succeeds (fun _ => False)
      (u.Refused (.str orderId) d) fun commit _ => u.Commit (.str orderId) d commit :=
    hid ▸ undo_commits u horder nofun hread
  -- Up to the record only the status is set, and that is never refused.
  rcases hcommits.attempt h (P := SameSteps orderId table) (.refl hfiled) (by
      rintro op table₁ answer table₂ rfl hsame hexec
      obtain ⟨hanswer, _, hsame'⟩ := hsame.setStatus hexec hne rfl
      exact ⟨hanswer, hsame'⟩) with
    ⟨hsame, _, rfl | ⟨e, hfalse, _⟩⟩ | ⟨front, event, table₁, rfl, _, hsame, hexec, hlast⟩
  · exact .inl ⟨rfl, hsame⟩
  · exact hfalse.elim
  obtain ⟨result, _, hd⟩ := hread
  rcases hlast with ⟨⟨e, rfl⟩, _⟩ | ⟨result, rfl, houtcome⟩
  · have hok := recordStep_succeeds hexec hne (hsame.opened hopened) rfl (Undo.sent_hasFloat hfloat)
    cases hok
  · rcases houtcome with rfl | rfl
    · exact absurd rfl (hlost rfl _ (List.mem_append_right _ List.mem_cons_self))
    · rcases recordStep_exec hexec with ⟨e, herror, _⟩ | ⟨_, hfiled', hrecorded, hentries⟩
      · cases herror
      · rw [Undo.sent_orElse hd] at hrecorded
        exact .inr ⟨⟨result, rfl⟩, hfiled' hsame.filed, hrecorded,
          fun other hother => (hentries other hother).trans (hsame.entries other)⟩

/-! ## Bookkeeping -/

/-- A bookkeeping handler never raises, and has set the status when it returns. -/
theorem setsStatus_attempt {newStatus : Json} {handler : Handler Json}
    (hhandler : SetsStatus event newStatus handler)
    (h : Attempt (exec py) handler table events outcome table') (hne : orderId ≠ "")
    (hid : idOf event = .str orderId) (hfloat : newStatus.hasFloat = false)
    (hfiled : Filed orderId table) :
    SameSteps orderId table table' ∧ (outcome = .lost ∨
      (∃ result, outcome = .returned result) ∧ status orderId table' = some newStatus) := by
  obtain ⟨result, rfl⟩ := hhandler
  obtain ⟨hcalls, heffects⟩ := h
  rw [hid] at hcalls
  rcases calls_call.mp hcalls with ⟨rfl, rfl⟩ | ⟨answer, rest, rfl, hrest⟩
  · rw [effects_nil] at heffects
    subst heffects
    exact ⟨.refl hfiled, .inl rfl⟩
  · obtain ⟨table₁, hexec, hend⟩ := effects_cons.mp heffects
    obtain ⟨rfl, hstatus, hsame⟩ := (SameSteps.refl hfiled).setStatus hexec hne hfloat
    obtain ⟨rfl, houtcome⟩ := calls_ret.mp hrest
    rw [effects_nil] at hend
    subst hend
    exact ⟨hsame, houtcome.symm.imp id fun heq => ⟨⟨result, heq⟩, hstatus⟩⟩

end OrderSaga
