-- SUMMARY: Compensations run at least once: what repeated and abandoned attempts leave is what one complete attempt leaves, apart from times.
import ServerlessPatterns.Library.AtLeastOnce
import ServerlessPatterns.Saga.Courses

/-!
# Compensations run again

Seen without its times, a record is changed by a compensation in two ways only: the
status is set, and the entry of the compensation is written. Both stay done when they
are done again, in whatever order attempts are given up and repeated.
-/

namespace OrderSaga

open Program Relation

/-! ## Records without times -/

/-- An entry without the time it was made. -/
def entryUntimed : Json → Json
  | .obj fields => .obj (Fields.adjust "at" (fun _ => .null) fields)
  | v => v

def stepsUntimed : Json → Json
  | .obj steps => .obj (steps.map fun step => (step.1, entryUntimed step.2))
  | v => v

/-- A record without its times: their places are kept, their values are not. -/
def untimed : Json → Json
  | .obj fields =>
    .obj (Fields.adjust "updated_at" (fun _ => .null) (Fields.adjust "step_status" stepsUntimed fields))
  | item => item

def untimedTable (table : Table) : Table := fun k => (table k).map untimed

/-- `set_status` on a record without times. -/
def statusEdit (newStatus : Json) : Json → Option Json
  | .obj fields => some (.obj (Fields.put "updated_at" .null (Fields.put "status" newStatus fields)))
  | _ => none

/-- `record_step` on a record without times. -/
def stepEdit (step : String) (value : Json) : Json → Option Json
  | .obj fields =>
    match fields.lookup "step_status" with
    | some (.obj steps) =>
      some (.obj (Fields.put "updated_at" .null
        (Fields.put "step_status" (.obj (Fields.put step value steps)) fields)))
    | _ => none
  | _ => none

/-- Edit the record of an order, as `update_item` would. -/
def revise (id : Json) (hasFloat : Bool) (edit : Json → Option Json) (table : Table) :
    Except Exc Unit × Table :=
  match Table.keyOf id with
  | .error e => (.error e.exc, table)
  | .ok k =>
    if hasFloat then (.error DbError.serialization.exc, table)
    else
      match edit ((table k).getD (.obj [("order_id", id)])) with
      | none => (.error DbError.validation.exc, table)
      | some item => (.ok (), table.write k item)

/-- The entry that `record_step` writes, without its time. -/
def stepValue (status detail : Json) : Json :=
  .obj [("status", status), ("detail", detail.orElse (.obj [])), ("at", .null)]

/-- The operations on tables without times. -/
def act (py : Python) : (op : Op) → Table → Ans op × Table
  | .setStatus id newStatus => revise id newStatus.hasFloat (statusEdit newStatus)
  | .recordStep id step stepStatus detail =>
    revise id (stepValue stepStatus detail).hasFloat (stepEdit step (stepValue stepStatus detail))
  | op => answer py op

/-! ## Edits that stay done -/

section

variable {id : Json} {hasFloat hasFloat' : Bool} {edit edit' : Json → Option Json} {table table' : Table}
  {result result' : Except Exc Unit}

theorem write_same {k : String} {item : Json} (h : table k = some item) : table.write k item = table := by
  unfold Table.write
  rw [← h, Function.update_eq_self]

theorem revise_again (hedit : ∀ item item', edit item = some item' → edit item' = some item')
    (h : revise id hasFloat edit table = (result, table')) :
    revise id hasFloat edit table' = (result, table') := by
  unfold revise at h ⊢
  cases hkey : Table.keyOf id with
  | error e =>
      rw [hkey] at h
      cases h
      rfl
  | ok k =>
      rw [hkey] at h
      dsimp only at h ⊢
      by_cases hfloat : hasFloat = true
      · rw [if_pos hfloat] at h
        cases h
        rw [if_pos hfloat]
      rw [if_neg hfloat] at h ⊢
      cases hitem : edit ((table k).getD (.obj [("order_id", id)])) with
      | none =>
          rw [hitem] at h
          cases h
          rw [hitem]
      | some item =>
          rw [hitem] at h
          cases h
          rw [Table.write_self, Option.getD_some, hedit _ _ hitem]
          dsimp only
          rw [write_same Table.write_self]

theorem revise_stays
    (hsome : ∀ item item', edit item = some item → edit' item = some item' → edit item' = some item')
    (hnone : ∀ item item', edit item = none → edit' item = some item' → edit item' = none)
    (h : revise id hasFloat edit table = (result, table))
    (h' : revise id hasFloat' edit' table = (result', table')) :
    revise id hasFloat edit table' = (result, table') := by
  unfold revise at h h' ⊢
  cases hkey : Table.keyOf id with
  | error e =>
      rw [hkey] at h h'
      cases h'
      exact h
  | ok k =>
      rw [hkey] at h h'
      dsimp only at h h' ⊢
      by_cases hfloat' : hasFloat' = true
      · rw [if_pos hfloat'] at h'
        cases h'
        exact h
      rw [if_neg hfloat'] at h'
      cases hitem' : edit' ((table k).getD (.obj [("order_id", id)])) with
      | none =>
          rw [hitem'] at h'
          cases h'
          exact h
      | some item' =>
          rw [hitem'] at h'
          cases h'
          by_cases hfloat : hasFloat = true
          · rw [if_pos hfloat] at h ⊢
            cases h
            rfl
          rw [if_neg hfloat] at h ⊢
          rw [Table.write_self, Option.getD_some]
          cases hitem : edit ((table k).getD (.obj [("order_id", id)])) with
          | none =>
              rw [hitem] at h
              cases h
              rw [hnone _ _ hitem hitem']
          | some item =>
              rw [hitem] at h
              obtain ⟨rfl, htable⟩ := Prod.mk.inj h
              -- The record is what the edit makes of it.
              have hread : table k = some item := by rw [← htable, Table.write_self]
              rw [hread, Option.getD_some] at hitem hitem'
              rw [hsome _ _ hitem hitem']
              dsimp only
              rw [write_same Table.write_self]

end

section

variable {fields steps : List (String × Json)} {newStatus value item item' : Json} {step : String}

/-- The record has been edited. -/
structure Edited (fields fields' : List (String × Json)) (kept : String) : Prop where
  time : fields'.lookup "updated_at" = some .null
  same : fields'.lookup kept = fields.lookup kept

theorem statusEdit_inv (h : statusEdit newStatus item = some item') :
    ∃ fields fields', item = .obj fields ∧ item' = .obj fields' ∧
      fields'.lookup "status" = some newStatus ∧ Edited fields fields' "step_status" := by
  cases item with
  | obj fields =>
      obtain rfl := Option.some.inj h
      refine ⟨fields, _, rfl, rfl, ?_, ⟨Fields.lookup_put_self, ?_⟩⟩
      · rw [Fields.lookup_put_ne (by decide), Fields.lookup_put_self]
      · rw [Fields.lookup_put_ne (by decide), Fields.lookup_put_ne (by decide)]
  | _ => cases h

theorem stepEdit_inv (h : stepEdit step value item = some item') :
    ∃ fields fields' steps', item = .obj fields ∧ item' = .obj fields' ∧
      fields'.lookup "step_status" = some (.obj steps') ∧ steps'.lookup step = some value ∧
      Edited fields fields' "status" := by
  cases item with
  | obj fields =>
      unfold stepEdit at h
      dsimp only at h
      split at h
      next steps hsteps =>
        obtain rfl := Option.some.inj h
        refine ⟨fields, _, Fields.put step value steps, rfl, rfl, ?_, Fields.lookup_put_self,
          ⟨Fields.lookup_put_self, ?_⟩⟩
        · rw [Fields.lookup_put_ne (by decide), Fields.lookup_put_self]
        · rw [Fields.lookup_put_ne (by decide), Fields.lookup_put_ne (by decide)]
      next => cases h
  | _ => cases h

theorem statusEdit_done (hstatus : fields.lookup "status" = some newStatus)
    (htime : fields.lookup "updated_at" = some .null) :
    statusEdit newStatus (.obj fields) = some (.obj fields) := by
  rw [statusEdit, Fields.put_lookup hstatus, Fields.put_lookup htime]

theorem stepEdit_done (hsteps : fields.lookup "step_status" = some (.obj steps))
    (hvalue : steps.lookup step = some value) (htime : fields.lookup "updated_at" = some .null) :
    stepEdit step value (.obj fields) = some (.obj fields) := by
  simp only [stepEdit, hsteps, Fields.put_lookup hvalue, Fields.put_lookup hsteps,
    Fields.put_lookup htime]

theorem statusEdit_again (h : statusEdit newStatus item = some item') :
    statusEdit newStatus item' = some item' := by
  obtain ⟨_, fields', _, rfl, hstatus, hedited⟩ := statusEdit_inv h
  exact statusEdit_done hstatus hedited.time

theorem stepEdit_again (h : stepEdit step value item = some item') :
    stepEdit step value item' = some item' := by
  obtain ⟨_, fields', steps', _, rfl, hsteps, hvalue, hedited⟩ := stepEdit_inv h
  exact stepEdit_done hsteps hvalue hedited.time

/-- A status stays set while a step is recorded. -/
theorem statusEdit_stays (h : statusEdit newStatus item = some item)
    (h' : stepEdit step value item = some item') : statusEdit newStatus item' = some item' := by
  obtain ⟨_, fields, rfl, heq, hstatus, _⟩ := statusEdit_inv h
  obtain ⟨_, fields', _, hobj, rfl, _, _, hedited⟩ := stepEdit_inv h'
  cases heq
  cases hobj
  exact statusEdit_done (hedited.same.trans hstatus) hedited.time

/-- A step stays recorded while the status is set. -/
theorem stepEdit_stays (h : stepEdit step value item = some item)
    (h' : statusEdit newStatus item = some item') : stepEdit step value item' = some item' := by
  obtain ⟨_, fields, steps, rfl, heq, hsteps, hvalue, _⟩ := stepEdit_inv h
  obtain ⟨_, fields', hobj, rfl, _, hedited⟩ := statusEdit_inv h'
  cases heq
  cases hobj
  exact stepEdit_done (hedited.same.trans hsteps) hvalue hedited.time

theorem statusEdit_none (h : statusEdit newStatus item = none)
    (h' : stepEdit step value item = some item') : statusEdit newStatus item' = none := by
  obtain ⟨fields, _, _, rfl, _⟩ := stepEdit_inv h'
  cases h

/-- A record without the map stays without it. -/
theorem stepEdit_none (h : stepEdit step value item = none)
    (h' : statusEdit newStatus item = some item') : stepEdit step value item' = none := by
  obtain ⟨fields, fields', rfl, rfl, _, hedited⟩ := statusEdit_inv h'
  have hlookup : fields'.lookup "step_status" = fields.lookup "step_status" := hedited.same
  unfold stepEdit at h ⊢
  dsimp only at h ⊢
  rw [hlookup]
  split at h
  next => cases h
  next => rfl

end

/-! ## The operations without times -/

section

variable {py : Python} {id : Json} {table : Table} {item : Json} {fields : List (String × Json)}
  {clock : Clock} {newStatus stepStatus detail : Json} {step : String}

theorem untimed_getD {k : String} :
    (untimedTable table k).getD (.obj [("order_id", id)]) =
      untimed ((table k).getD (.obj [("order_id", id)])) := by
  unfold untimedTable
  cases table k with
  | none => simp [untimed, Fields.adjust]
  | some item => rfl

theorem untimedTable_write {k : String} :
    untimedTable (table.write k item) = (untimedTable table).write k (untimed item) := by
  funext k'
  by_cases hk : k' = k
  · subst hk
    simp [untimedTable]
  · simp [untimedTable, hk]

/-- An update is the edit that it is on records without times. -/
theorem updateItem_untimed {clauses : List (Json.Path × Operand)} {hasFloat : Bool}
    {edit : Json → Option Json} (hfloat : clauses.any (·.2.hasFloat) = hasFloat)
    (hedit : ∀ item, (Table.updated clauses item).map untimed = edit (untimed item)) :
    revise id hasFloat edit (untimedTable table) =
      (((table.updateItem "order_id" id clauses none).1.mapError DbError.exc).map fun _ => (),
        untimedTable (table.updateItem "order_id" id clauses none).2) := by
  unfold revise Table.updateItem
  cases hkey : Table.keyOf id with
  | error e => rfl
  | ok k =>
      dsimp only
      rw [hfloat]
      by_cases htrue : hasFloat = true
      · rw [if_pos htrue, if_pos htrue]
        rfl
      · rw [if_neg htrue, if_neg htrue, untimed_getD, ← hedit]
        simp only [Option.all_none, if_true]
        cases Table.updated clauses ((table k).getD (.obj [("order_id", id)])) with
        | none => rfl
        | some item =>
            simp only [Option.map_some, untimedTable_write]
            rfl

theorem statusClauses_edit (item : Json) :
    (Table.updated (SagaStore.statusClauses clock newStatus) item).map untimed =
      statusEdit newStatus (untimed item) := by
  cases item with
  | obj fields =>
      have hupdated : Table.updated (SagaStore.statusClauses clock newStatus) (.obj fields) =
          some (.obj (Fields.put "updated_at" (SagaStore.seconds (clock 0))
            (Fields.put "status" newStatus fields))) := rfl
      rw [hupdated]
      simp only [Option.map_some, untimed, statusEdit]
      rw [Fields.adjust_put_ne (by decide), Fields.adjust_put_self, Fields.adjust_put_ne (by decide),
        Fields.adjust_put_ne (by decide)]
  | _ => rfl

theorem stepsUntimed_put {steps : List (String × Json)} {value : Json} :
    (Fields.put step value steps).map (fun step => (step.1, entryUntimed step.2)) =
      Fields.put step (entryUntimed value) (steps.map fun step => (step.1, entryUntimed step.2)) := by
  induction steps with
  | nil => rfl
  | cons field rest ih =>
      obtain ⟨k, v⟩ := field
      by_cases hk : k = step
      · simp [Fields.put, hk]
      · simp only [Fields.put, if_neg hk, List.map_cons, ih]

theorem stepClauses_edit (item : Json) :
    (Table.updated (SagaStore.stepClauses clock step stepStatus detail) item).map untimed =
      stepEdit step (stepValue stepStatus detail) (untimed item) := by
  cases item with
  | obj fields =>
      have hmap : (Fields.adjust "updated_at" (fun _ => .null)
          (Fields.adjust "step_status" stepsUntimed fields)).lookup "step_status" =
            (fields.lookup "step_status").map stepsUntimed := by
        rw [Fields.lookup_adjust_ne (by decide), Fields.lookup_adjust_self]
      simp only [untimed, stepEdit, hmap]
      cases hlookup : fields.lookup "step_status" with
      | none =>
          simp [Table.updated, Table.evalAll, SagaStore.stepClauses, Operand.eval, Table.setAll,
            Json.set, hlookup]
      | some steps =>
          cases steps with
          | obj steps =>
              have hupdated : Table.updated (SagaStore.stepClauses clock step stepStatus detail)
                  (.obj fields) = some (.obj (Fields.put "updated_at" (SagaStore.seconds (clock 1))
                    (Fields.put "step_status" (.obj (Fields.put step (.obj [("status", stepStatus),
                      ("detail", detail.orElse (.obj [])), ("at", SagaStore.seconds (clock 0))]) steps))
                      fields))) := by
                simp [Table.updated, Table.evalAll, SagaStore.stepClauses, Operand.eval, Table.setAll,
                  Json.set, hlookup]
              rw [hupdated]
              simp only [Option.map_some, stepsUntimed, untimed]
              rw [Fields.adjust_put_ne (by decide), Fields.adjust_put_self, Fields.adjust_put_self,
                Fields.adjust_put_ne (by decide), stepsUntimed, stepsUntimed_put]
              rfl
          | _ =>
              simp [Table.updated, Table.evalAll, SagaStore.stepClauses, Operand.eval, Table.setAll,
                Json.set, hlookup, stepsUntimed]
  | _ => rfl

/-- What a compensation asks for: its status and, once it is known what to record, its
    own entry. -/
def Compensates (id : Json) (step : String) (stepStatus detail : Json) (op : Op) : Prop :=
  op = .setStatus id statusCompensating ∨ op = .recordStep id step stepStatus detail

/-- Both operations of a compensation stay done. -/
theorem compensates_repeatable : Repeatable (exec py) (Compensates id step stepStatus detail)
    untimedTable (act py) where
  seen := by
    rintro op table table' answer (rfl | rfl) ⟨clock, heq⟩
    · obtain ⟨rfl, rfl⟩ := Prod.mk.inj heq
      refine updateItem_untimed ?_ statusClauses_edit
      simp [SagaStore.statusClauses, Operand.hasFloat, SagaStore.seconds, Json.hasFloat]
    · obtain ⟨rfl, rfl⟩ := Prod.mk.inj heq
      refine updateItem_untimed ?_ stepClauses_edit
      simp [SagaStore.stepClauses, stepValue, Operand.hasFloat, SagaStore.seconds, Json.hasFloat,
        Json.hasFloatFields]
  again := by
    rintro op table table' answer (rfl | rfl) hact
    · exact revise_again (fun _ _ => statusEdit_again) hact
    · exact revise_again (fun _ _ => stepEdit_again) hact
  stays := by
    rintro op op' table table' answer answer' (rfl | rfl) (rfl | rfl) hact hact'
    · obtain ⟨rfl, rfl⟩ := Prod.mk.inj (hact.symm.trans hact')
      exact hact
    · exact revise_stays (fun _ _ => statusEdit_stays) (fun _ _ => statusEdit_none) hact hact'
    · exact revise_stays (fun _ _ => stepEdit_stays) (fun _ _ => stepEdit_none) hact hact'
    · obtain ⟨rfl, rfl⟩ := Prod.mk.inj (hact.symm.trans hact')
      exact hact

end

/-! ## Compensations -/

variable {py : Python} {u : Undo} {event : Json} {table table' : Table}

theorem compensate_only {step resultKey idKey newStatus : String} : ∃ stepStatus detail,
    (compensate step resultKey idKey newStatus event).Only
      (Compensates (idOf event) step stepStatus detail) := by
  -- The event decides what there is to undo.
  obtain ⟨found, hfound⟩ : ∃ found, ∀ block id, completedDetail event resultKey = .ok block →
      Python.get block idKey = .ok id → id = found := by
    cases hblock : completedDetail event resultKey with
    | error e => exact ⟨.null, nofun⟩
    | ok block =>
        cases hid : Python.get block idKey with
        | error e =>
            refine ⟨.null, fun block' id heq hget => ?_⟩
            cases heq
            cases hid.symm.trans hget
        | ok id =>
            refine ⟨id, fun block' id' heq hget => ?_⟩
            cases heq
            cases hid.symm.trans hget
            rfl
  refine ⟨if found.truthy then stepDone else stepSkipped,
    if found.truthy then .obj [(idKey, found)] else .null, ?_⟩
  unfold compensate
  refine (meets_ofExcept (fun _ h => h) fun _ _ => trivial).bind fun order horder => ?_
  rw [idOf_of_orderOf horder]
  refine meets_call (.inl rfl) fun _ _ => meets_any.bind fun _ _ => ?_
  refine (meets_ofExcept (fun _ h => h) fun _ _ => trivial).bind fun block hblock => ?_
  refine (meets_ofExcept (fun _ h => h) fun _ _ => trivial).bind fun id hid => ?_
  obtain rfl := hfound block id hblock hid
  cases htruthy : id.truthy with
  | true => exact meets_call (.inr rfl) fun _ _ => meets_any.bind fun _ _ => meets_ret trivial
  | false => exact meets_call (.inr rfl) fun _ _ => meets_any.bind fun _ _ => meets_ret trivial

theorem undo_only (u : Undo) (event : Json) : ∃ stepStatus detail,
    (u.handler event).Only (Compensates (idOf event) u.name stepStatus detail) := by
  cases u with
  | releaseInventory => exact compensate_only
  | refundPayment => exact compensate_only
  | cancelOrder =>
      refine ⟨stepDone, .null, ?_⟩
      unfold Undo.handler cancelOrder
      refine (meets_ofExcept (fun _ h => h) fun _ _ => trivial).bind fun order horder => ?_
      rw [idOf_of_orderOf horder]
      refine meets_call (.inl rfl) fun _ _ => meets_any.bind fun _ _ => ?_
      exact meets_call (.inr rfl) fun _ _ => meets_any.bind fun _ _ => meets_ret trivial

/-- Nothing but the status, the times and the entry of the compensation is changed in
    any record. -/
structure OthersKept (u : Undo) (table table' : Table) : Prop where
  entries : ∀ orderId step, step ≠ u.name → entry orderId step table' = entry orderId step table
  attempts : ∀ orderId, table'.attr orderId ["attempts"] = table.attr orderId ["attempts"]

theorem OthersKept.trans {table'' : Table} (h : OthersKept u table table') (h' : OthersKept u table' table'') :
    OthersKept u table table'' where
  entries orderId step hne := (h'.entries orderId step hne).trans (h.entries orderId step hne)
  attempts orderId := (h'.attempts orderId).trans (h.attempts orderId)

theorem Compensates.othersKept {id stepStatus detail : Json} {op : Op} {answer : Ans op}
    (h : Compensates id u.name stepStatus detail op) (hexec : exec py op table answer table') :
    OthersKept u table table' := by
  have hsame : ∀ orderId key rest, key ≠ "order_id" → key ≠ "updated_at" → key ≠ "status" →
      ¬ (key = "step_status" ∧ rest = [u.name]) → (key = "step_status" → ∃ step, rest = [step]) →
      table'.attr orderId (key :: rest) = table.attr orderId (key :: rest) := by
    intro orderId key rest hid htime hstatus hown hentry
    apply attr_same hexec hid htime
    rcases h with rfl | rfl
    · simp [Op.Sets, Json.Path.Apart, hstatus.symm]
    · rintro ⟨_, hnot⟩
      apply hnot
      by_cases hkey : key = "step_status"
      · obtain ⟨step, rfl⟩ := hentry hkey
        refine .inr ⟨hkey.symm, .inl fun heq => hown ⟨hkey, by rw [heq]⟩⟩
      · exact .inl (Ne.symm hkey)
  refine ⟨fun orderId step hne => ?_, fun orderId => ?_⟩
  · exact hsame _ _ _ (by decide) (by decide) (by decide) (by simpa using hne) fun _ => ⟨step, rfl⟩
  · exact hsame _ _ _ (by decide) (by decide) (by decide) (by simp) (by simp)

theorem attempt_othersKept {calls : List (Event Op Ans)} {outcome : Outcome Exc Json}
    (h : Attempt (exec py) (u.handler event) table calls outcome table') : OthersKept u table table' := by
  obtain ⟨stepStatus, detail, honly⟩ := undo_only u event
  refine h.effects.preserves (P := OthersKept u table) (fun call hmem t t' hkept hexec => ?_)
    ⟨fun _ _ _ => rfl, fun _ => rfl⟩
  exact hkept.trans ((Only.asks honly h.calls call hmem).othersKept hexec)

/-- One attempt at a compensation, complete or given up anywhere. -/
def Tried (py : Python) (u : Undo) (event : Json) (table table' : Table) : Prop :=
  ∃ calls outcome, Attempt (exec py) (u.handler event) table calls outcome table'

/-- After any number of attempts, complete or given up at any point, a complete attempt
    at a compensation ends as it would have without them, and leaves the same records
    but for their times. The entries of other steps and the attempt counters stay as
    they were. -/
theorem compensation_repeatable (py : Python) (u : Undo) (event : Json) {table table₁ table₂ table₂' : Table}
    {calls calls' : List (Event Op Ans)} {outcome outcome' : Outcome Exc Json}
    (hbefore : ReflTransGen (Tried py u event) table table₁)
    (hlast : Attempt (exec py) (u.handler event) table₁ calls outcome table₂) (hcomplete : outcome ≠ .lost)
    (honly : Attempt (exec py) (u.handler event) table calls' outcome' table₂')
    (hcomplete' : outcome' ≠ .lost) :
    outcome = outcome' ∧ untimedTable table₂ = untimedTable table₂' ∧ OthersKept u table table₂ := by
  obtain ⟨stepStatus, detail, hasks⟩ := undo_only u event
  obtain ⟨houtcome, hrecords⟩ :=
    compensates_repeatable.at_least_once hasks hbefore hlast hcomplete honly hcomplete'
  have hkept : OthersKept u table table₁ := by
    refine Transition.invariant (P := OthersKept u table) hbefore ⟨fun _ _ _ => rfl, fun _ => rfl⟩ ?_
    rintro t t' hkept ⟨calls, outcome, hattempt⟩
    exact hkept.trans (attempt_othersKept hattempt)
  exact ⟨houtcome, hrecords, hkept.trans (attempt_othersKept hlast)⟩

/-! ## A refund that crashes -/

/-- The payment of the order was charged. -/
def refundEvent : Json := .obj [("order", .obj [("order_id", .str "ord-1001")]),
  ("results", .obj [("payment", .obj [("payment_id", .str "pay-1")])])]

/-- The record of the order, with what was done before. -/
def chargedTable : Table :=
  Table.write (fun _ => none) "ord-1001" (.obj [("order_id", .str "ord-1001"), ("status", statusStarted),
    ("step_status", .obj [("charge_payment", .obj [("status", stepDone)])]), ("attempts", .obj [])])

/-- An attempt at the refund that is cut off after some of its writes, or at none. -/
def refundAttempt (cut : Option Nat) (table : Table) : List (Event Op Ans) × Outcome Exc Json × Table :=
  (Undo.refundPayment.handler refundEvent).run (answer .sample) cut table

/-- The record after a crash between the two writes. -/
def crashedTable : Table := (refundAttempt (some 1) chargedTable).2.2

theorem compensation_repeatable_crashed :
    (refundAttempt none crashedTable).2.1 = (refundAttempt none chargedTable).2.1 ∧
      untimedTable (refundAttempt none crashedTable).2.2 =
        untimedTable (refundAttempt none chargedTable).2.2 ∧
      OthersKept .refundPayment chargedTable (refundAttempt none crashedTable).2.2 :=
  compensation_repeatable .sample .refundPayment refundEvent
    (.single ⟨_, _, run_attempt answer_exec _ (some 1) chargedTable⟩)
    (run_attempt answer_exec _ none crashedTable) (run_none_ne_lost _ _)
    (run_attempt answer_exec _ none chargedTable) (run_none_ne_lost _ _)

example : (refundAttempt none crashedTable).2.1 =
    .returned (.obj [("status", .str "REFUNDED"), ("payment_id", .str "pay-1")]) := rfl

end OrderSaga
