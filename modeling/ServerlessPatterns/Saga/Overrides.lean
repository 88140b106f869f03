-- SUMMARY: What an operation has written into the record of an order, and which operations put something else in its place.
import ServerlessPatterns.Saga.Attempts

/-!
# Overridden writes

No write of the saga store asks what is there. What a step or a status was set to stands
until an operation on the same order puts something else in its place.
-/

namespace OrderSaga

/-- What the operation wrote is in the record. -/
def Op.Stands : Op → Table → Prop
  | .recordStep id step stepStatus detail, table =>
    ∃ orderId, id = .str orderId ∧ Recorded orderId step stepStatus (detail.orElse (.obj [])) table
  | .setStatus id newStatus, table => ∃ orderId, id = .str orderId ∧ status orderId table = some newStatus
  | _, _ => True

/-- The first operation puts something else in the place of what the second one writes. -/
def Op.overrides : Op → Op → Bool
  | .start id .., .recordStep id' .. => id = id'
  | .start id .., .setStatus id' _ => id = id'
  | .recordStep id step stepStatus detail, .recordStep id' step' stepStatus' detail' =>
    id = id' && step = step' && !(stepStatus = stepStatus' && detail = detail')
  | .setStatus id newStatus, .setStatus id' newStatus' => id = id' && newStatus ≠ newStatus'
  | _, _ => false

variable {py : Python} {op op' : Op} {answer : Ans op} {table table' : Table}

/-- A step is recorded, or the record is left as it is. -/
theorem recordStep_stands {id stepStatus detail : Json} {step : String} {answer : Except Exc Unit}
    (h : exec py (.recordStep id step stepStatus detail) table answer table') :
    (∃ e, answer = .error e ∧ table' = table) ∨ (Op.recordStep id step stepStatus detail).Stands table' := by
  cases id with
  | str orderId =>
      rcases recordStep_exec h with hrefused | ⟨_, _, hrecorded, _⟩
      · exact .inl hrefused
      · exact .inr ⟨orderId, rfl, hrecorded⟩
  | _ =>
      obtain ⟨clock, heq⟩ := h
      obtain ⟨hanswer, htable⟩ := Prod.mk.inj heq
      exact .inl ⟨_, hanswer, htable⟩

/-- The status is set, or the record is left as it is. -/
theorem setStatus_stands {id newStatus : Json} {answer : Except Exc Unit}
    (h : exec py (.setStatus id newStatus) table answer table') :
    (∃ e, answer = .error e ∧ table' = table) ∨ (Op.setStatus id newStatus).Stands table' := by
  obtain ⟨clock, heq⟩ := h
  unfold SagaStore.setStatus at heq
  rcases Table.updateItem_cases "order_id" id (SagaStore.statusClauses clock newStatus) none table with
    ⟨e, hupdate⟩ | ⟨k, item, rfl, _, _, hitem, hupdate⟩
  · simp only [hupdate, Prod.mk.injEq] at heq
    exact .inl ⟨e.exc, heq⟩
  · simp only [hupdate, Prod.mk.injEq] at heq
    obtain ⟨_, rfl⟩ := heq
    refine .inr ⟨k, rfl, ?_⟩
    rw [status, Table.attr_write_self]
    exact Table.updated_get hitem 0 rfl (by simp [SagaStore.statusClauses, Json.Path.Apart])

/-- A write that was accepted stands. -/
theorem stands_of_exec (h : exec py op table answer table') (hwrites : Writes ⟨op, answer⟩) :
    op.Stands table' := by
  cases op with
  | recordStep id step stepStatus detail =>
      obtain rfl : answer = .ok () := hwrites
      exact (recordStep_stands h).resolve_left (by simp)
  | setStatus id newStatus =>
      obtain rfl : answer = .ok () := hwrites
      exact (setStatus_stands h).resolve_left (by simp)
  | _ => trivial

/-- What stands is kept by every operation that does not override it. -/
theorem Op.Stands.kept (hstands : op'.Stands table) (h : exec py op table answer table')
    (hkept : op.overrides op' = false) : op'.Stands table' := by
  cases op' with
  | recordStep id' step stepStatus detail =>
      obtain ⟨orderId, rfl, time, hentry⟩ := hstands
      by_cases hsets : op.Sets orderId ["step_status", step]
      · cases op with
        | start id customerId amount currency ttlSeconds =>
            obtain rfl : id = .str orderId := hsets
            simp [Op.overrides] at hkept
        | recordStep id step' stepStatus' detail' =>
            obtain ⟨rfl, rfl⟩ : id = .str orderId ∧ step' = step := by
              simpa [Op.Sets, Json.Path.Apart] using hsets
            obtain ⟨rfl, rfl⟩ : stepStatus' = stepStatus ∧ detail' = detail := by
              simpa [Op.overrides] using hkept
            rcases recordStep_stands h with ⟨_, _, rfl⟩ | hagain
            · exact ⟨orderId, rfl, time, hentry⟩
            · exact hagain
        | _ => simp [Op.Sets, Json.Path.Apart] at hsets
      · exact ⟨orderId, rfl, time, (attr_same h (by decide) (by decide) hsets).trans hentry⟩
  | setStatus id' newStatus =>
      obtain ⟨orderId, rfl, hstatus⟩ := hstands
      by_cases hsets : op.Sets orderId ["status"]
      · cases op with
        | start id customerId amount currency ttlSeconds =>
            obtain rfl : id = .str orderId := hsets
            simp [Op.overrides] at hkept
        | setStatus id newStatus' =>
            obtain rfl : id = .str orderId := hsets.1
            obtain rfl : newStatus' = newStatus := by simpa [Op.overrides] using hkept
            rcases setStatus_stands h with ⟨_, _, rfl⟩ | hagain
            · exact ⟨orderId, rfl, hstatus⟩
            · exact hagain
        | _ => simp [Op.Sets, Json.Path.Apart] at hsets
      · exact ⟨orderId, rfl, (attr_same h (by decide) (by decide) hsets).trans hstatus⟩
  | _ => trivial

end OrderSaga
