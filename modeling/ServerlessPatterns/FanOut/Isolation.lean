-- SUMMARY: Which bodies make the fan-out worker raise, and what it does with all others.
import ServerlessPatterns.FanOut.Worker
import ServerlessPatterns.Library.BatchFunction

/-!
# Isolation of fan-out records

The worker catches two classes of exceptions around `json.loads`. Another one that
it raises ends the invocation, with all other records of the batch.
-/

namespace FanOut

open Program BatchFunction

/-- What `process_record` raises is an `Exception`. -/
def Expected : (op : Op) → Ans op → Prop
  | .processRecord .., answer => Python.Ordinary answer

/-- `json.loads` raises on the body what the worker does not catch. -/
def Escapes (py : Python) (body : String) : Prop :=
  ∃ e, py.loads body = .error e ∧ unparseable e = false

variable {py : Python} {record : Record}

theorem handler_loops : Loops (handler py) (handleRecord py) := fun _ => rfl

theorem exists_expected (op : Op) : ∃ answer, Expected op answer := by
  cases op with
  | processRecord => exact ⟨.ok (), Python.ordinary_ok⟩

/-- The loop body on a record of the queue. -/
theorem handleRecord_json :
    handleRecord py record.json =
      match py.loads record.body with
      | .error e => if unparseable e then ret none else .raise e
      | .ok body =>
        .call (.processRecord (.str record.messageId) body record.systemAttributes) fun answer =>
          (ofExcept answer >>= fun _ => ret none).tryCatch
            (reportFailure (.str record.messageId)) := by
  have hbody : (Python.item record.json "body" >>= py.jsonLoads) = py.loads record.body := rfl
  unfold handleRecord
  rw [hbody]
  change (match py.loads record.body with
    | .error e => _
    | .ok body => _) = _
  cases py.loads record.body <;> rfl

theorem handleRecord_escapes (h : Escapes py record.body) :
    ∃ e, handleRecord py record.json = .raise e := by
  obtain ⟨e, hloads, hclass⟩ := h
  refine ⟨e, ?_⟩
  rw [handleRecord_json, hloads]
  simp [hclass]

theorem handleRecord_contained (h : ¬ Escapes py record.body) :
    Contained Expected (handleRecord py record.json) := by
  rw [handleRecord_json]
  cases hloads : py.loads record.body with
  | error e =>
      have hclass : unparseable e = true := by
        by_contra hclass
        exact h ⟨e, hloads, by simpa using hclass⟩
      simp only [hclass, if_true]
      exact meets_ret trivial
  | ok body =>
      apply meets_call trivial
      intro answer hanswer
      cases answer with
      | ok done => exact meets_ret trivial
      | error e =>
          have he : e.isInstance "Exception" = true := hanswer e rfl
          simp only [ofExcept_error, raise_bind, tryCatch_raise, reportFailure, he, if_true]
          exact meets_ret trivial

/-- A batch is isolated if and only if `json.loads` raises on none of its bodies
    what the worker does not catch. -/
theorem isolated_iff_escapes {records : List Record} :
    Isolated Expected (handler py) (records.map Record.json) ↔
      ∀ record ∈ records, ¬ Escapes py record.body :=
  isolated_iff handler_loops exists_expected (fun _ _ => handleRecord_escapes)
    fun _ _ => handleRecord_contained

end FanOut
