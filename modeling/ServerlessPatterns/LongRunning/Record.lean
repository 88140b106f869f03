-- SUMMARY: What the record of a job says, and what each operation of the store makes it say.
import ServerlessPatterns.LongRunning.StateMachine

/-!
# The record of a job

Seen from the handlers, a record is the five attributes that they read or compute.
Once a job is created, every operation on it succeeds and is a function on these.
-/

namespace LongRunning

structure JobRecord where
  succeedAfter : Int
  failJob : Bool
  attempts : Int
  status : Json
  progress : Int

def JobRecord.fresh (succeedAfter : Int) (failJob : Bool) : JobRecord where
  succeedAfter := succeedAfter
  failJob := failJob
  attempts := 0
  status := statusSubmitted
  progress := 0

/-- The attributes of an item under their names. -/
structure JobRecord.Describes (r : JobRecord) (item : Json) : Prop where
  succeedAfter : item.get ["succeed_after_attempts"] = some (.num (.decimal r.succeedAfter))
  failJob : item.get ["fail_job"] = some (.bool r.failJob)
  attempts : item.get ["attempts"] = some (.num (.decimal r.attempts))
  status : item.get ["status"] = some r.status
  progress : item.get ["progress"] = some (.num (.decimal r.progress))

/-- The table has this record of the job. -/
def Shows (k : String) (r : JobRecord) (table : Table) : Prop :=
  ∃ item, table k = some item ∧ r.Describes item

variable {py : Python} {reads : Reads} {k : String} {r : JobRecord} {table : Table} {w w' : World}

instance {item : Json} : Decidable (r.Describes item) :=
  decidable_of_iff
    (item.get ["succeed_after_attempts"] = some (.num (.decimal r.succeedAfter)) ∧
      item.get ["fail_job"] = some (.bool r.failJob) ∧
      item.get ["attempts"] = some (.num (.decimal r.attempts)) ∧
      item.get ["status"] = some r.status ∧
      item.get ["progress"] = some (.num (.decimal r.progress)))
    ⟨fun ⟨h₁, h₂, h₃, h₄, h₅⟩ => ⟨h₁, h₂, h₃, h₄, h₅⟩,
      fun ⟨h₁, h₂, h₃, h₄, h₅⟩ => ⟨h₁, h₂, h₃, h₄, h₅⟩⟩

instance : Decidable (Shows k r table) :=
  decidable_of_iff ((table k).any (fun item => decide (r.Describes item)) = true)
    (by simp only [Option.any_eq_true, decide_eq_true_eq]; rfl)

theorem JobRecord.Describes.obj {item : Json} (h : r.Describes item) : ∃ fields, item = .obj fields := by
  have hstatus := h.status
  rw [Json.get_single] at hstatus
  cases item with
  | obj fields => exact ⟨fields, rfl⟩
  | _ => cases hstatus

/-- An item is described by one record only. -/
theorem JobRecord.Describes.unique {r' : JobRecord} {item : Json} (h : r.Describes item)
    (h' : r'.Describes item) : r = r' := by
  have hsucceed := h.succeedAfter.symm.trans h'.succeedAfter
  have hfail := h.failJob.symm.trans h'.failJob
  have hattempts := h.attempts.symm.trans h'.attempts
  have hstatus := h.status.symm.trans h'.status
  have hprogress := h.progress.symm.trans h'.progress
  simp only [Option.some.injEq, Json.num.injEq, Number.decimal.injEq, Json.bool.injEq,
    Int.cast_inj] at hsucceed hfail hattempts hstatus hprogress
  cases r
  cases r'
  simp_all

theorem Shows.unique {r' : JobRecord} (h : Shows k r table) (h' : Shows k r' table) : r = r' := by
  obtain ⟨item, hitem, hdescribes⟩ := h
  obtain ⟨item', hitem', hdescribes'⟩ := h'
  rw [hitem, Option.some.injEq] at hitem'
  subst hitem'
  exact hdescribes.unique hdescribes'

/-! ## Numbers -/

/-- The integers that a `Decimal` holds are read back as they are. -/
theorem int_decimal {n : Int} : py.int (.num (.decimal n)) = .ok n := by
  simp [Python.int]

/-! ## Updates of a record -/

/-- An update of some attributes of a record succeeds, and the new item differs in
    these only. -/
theorem updateItem_record (clauses : List (Json.Path × Operand)) (hne : k ≠ "")
    (h : Shows k r table) (hfloat : clauses.any (·.2.hasFloat) = false)
    (hflat : ∀ item, r.Describes item → ∀ c ∈ clauses, ∃ key v, c.1 = [key] ∧ c.2.eval item = some v) :
    ∃ item item', r.Describes item ∧ Table.updated clauses item = some item' ∧
      table.updateItem "job_id" (.str k) clauses none = (.ok item', table.write k item') := by
  obtain ⟨item, hitem, hdescribes⟩ := h
  obtain ⟨fields, rfl⟩ := hdescribes.obj
  obtain ⟨fields', hupdated⟩ := Table.updated_flat (hflat _ hdescribes)
  refine ⟨_, _, hdescribes, hupdated, ?_⟩
  apply Table.updateItem_ok hne hfloat (by simp)
  rw [hitem]
  exact hupdated

/-- The counter after one more attempt. -/
theorem attempts_plus {item : Json} {fallback : Operand} (h : r.Describes item) :
    Operand.eval item (.plus (.ifNotExists ["attempts"] fallback) (.value (.num (.decimal 1)))) =
      some (.num (.decimal (r.attempts + 1 : Int))) := by
  simp only [Operand.eval, h.attempts, Number.exact, Option.bind_some, Option.map_some]
  push_cast
  rfl

theorem incrementAttempt_record (py : Python) (hne : k ≠ "") (h : Shows k r table) (clock : Clock) :
    ∃ item, JobStore.incrementAttempt py clock (.str k) table =
        (.ok (r.attempts + 1), table.write k item) ∧
      { r with attempts := r.attempts + 1 }.Describes item := by
  obtain ⟨item, item', hdescribes, hupdated, hupdate⟩ :=
    updateItem_record (JobStore.attemptClauses clock) hne h rfl (by
      intro item hdescribes c hmem
      simp only [JobStore.attemptClauses, List.mem_cons, List.not_mem_nil, or_false] at hmem
      rcases hmem with rfl | rfl
      · exact ⟨_, _, rfl, attempts_plus hdescribes⟩
      · exact ⟨_, _, rfl, rfl⟩)
  have hcount : item'.get ["attempts"] = some (.num (.decimal (r.attempts + 1 : Int))) :=
    (Table.updated_get hupdated 0 rfl (by simp [JobStore.attemptClauses, Json.Path.Apart])).trans
      (attempts_plus hdescribes)
  refine ⟨item', ?_, ?_⟩
  · have hvalue : py.int ((item'.get ["attempts"]).getD .null) = .ok (r.attempts + 1) := by
      rw [hcount]
      exact int_decimal
    simp only [JobStore.incrementAttempt, hupdate]
    exact congrArg (·, _) hvalue
  · exact {
      succeedAfter := Table.updated_keeps hupdated hdescribes.succeedAfter
        (by simp [JobStore.attemptClauses, Json.Path.Apart])
      failJob := Table.updated_keeps hupdated hdescribes.failJob
        (by simp [JobStore.attemptClauses, Json.Path.Apart])
      attempts := hcount
      status := Table.updated_keeps hupdated hdescribes.status
        (by simp [JobStore.attemptClauses, Json.Path.Apart])
      progress := Table.updated_keeps hupdated hdescribes.progress
        (by simp [JobStore.attemptClauses, Json.Path.Apart]) }

/-- Attributes of a record are set to constants that the client can send. -/
theorem setAttributes_record (clauses : List (Json.Path × Operand)) (hne : k ≠ "")
    (h : Shows k r table) (hfloat : clauses.any (·.2.hasFloat) = false)
    (hconstants : ∀ c ∈ clauses, ∃ key v, c = ([key], .value v)) :
    ∃ item item', r.Describes item ∧ Table.updated clauses item = some item' ∧
      JobStore.setAttributes (.str k) clauses table = (.ok (), table.write k item') := by
  obtain ⟨item, item', hdescribes, hupdated, hupdate⟩ := updateItem_record clauses hne h hfloat (by
    intro item _ c hmem
    obtain ⟨key, v, rfl⟩ := hconstants c hmem
    exact ⟨key, v, rfl, rfl⟩)
  refine ⟨item, item', hdescribes, hupdated, ?_⟩
  simp only [JobStore.setAttributes, hupdate]
  rfl

theorem updateProgress_record {status : Json} {progress : Int} (hne : k ≠ "")
    (h : Shows k r table) (hfloat : status.hasFloat = false) (clock : Clock) :
    ∃ item, JobStore.updateProgress clock (.str k) status progress table =
        (.ok (), table.write k item) ∧
      { r with status := status, progress := progress }.Describes item := by
  obtain ⟨item, item', hdescribes, hupdated, hset⟩ :=
    setAttributes_record (JobStore.progressClauses clock status progress) hne h
      (by simp [JobStore.progressClauses, Operand.hasFloat, hfloat, Json.hasFloat, JobStore.seconds])
      (by simp [JobStore.progressClauses])
  exact ⟨item', hset, {
    succeedAfter := Table.updated_keeps hupdated hdescribes.succeedAfter
      (by simp [JobStore.progressClauses, Json.Path.Apart])
    failJob := Table.updated_keeps hupdated hdescribes.failJob
      (by simp [JobStore.progressClauses, Json.Path.Apart])
    attempts := Table.updated_keeps hupdated hdescribes.attempts
      (by simp [JobStore.progressClauses, Json.Path.Apart])
    status := Table.updated_get hupdated 0 rfl (by simp [JobStore.progressClauses, Json.Path.Apart])
    progress := Table.updated_get hupdated 1 rfl (by simp [JobStore.progressClauses, Json.Path.Apart]) }⟩

theorem setStatus_record {status : Json} (hne : k ≠ "") (h : Shows k r table)
    (hfloat : status.hasFloat = false) (clock : Clock) :
    ∃ item, JobStore.setStatus clock (.str k) status table = (.ok (), table.write k item) ∧
      { r with status := status }.Describes item := by
  obtain ⟨item, item', hdescribes, hupdated, hset⟩ :=
    setAttributes_record (JobStore.statusClauses clock status) hne h
      (by simp [JobStore.statusClauses, Operand.hasFloat, hfloat, Json.hasFloat, JobStore.seconds])
      (by simp [JobStore.statusClauses])
  exact ⟨item', hset, {
    succeedAfter := Table.updated_keeps hupdated hdescribes.succeedAfter
      (by simp [JobStore.statusClauses, Json.Path.Apart])
    failJob := Table.updated_keeps hupdated hdescribes.failJob
      (by simp [JobStore.statusClauses, Json.Path.Apart])
    attempts := Table.updated_keeps hupdated hdescribes.attempts
      (by simp [JobStore.statusClauses, Json.Path.Apart])
    status := Table.updated_get hupdated 0 rfl (by simp [JobStore.statusClauses, Json.Path.Apart])
    progress := Table.updated_keeps hupdated hdescribes.progress
      (by simp [JobStore.statusClauses, Json.Path.Apart]) }⟩

/-- The record that `create` leaves, when it is not refused. -/
theorem create_cases (clock : Clock) (jobId : Json) (n : Int) (fail : Bool) (payload : Json)
    (ttl : Option Int) (table : Table) :
    (∃ e, JobStore.create clock jobId n fail payload ttl table = (.error e, table)) ∨
    ∃ k item, jobId = .str k ∧ k ≠ "" ∧
      JobStore.create clock jobId n fail payload ttl table = (.ok (), table.write k item) ∧
      (JobRecord.fresh n fail).Describes item := by
  unfold JobStore.create
  rcases Table.putItem_cases "job_id" (JobStore.newItem clock jobId n fail payload ttl) table with
    ⟨e, hput⟩ | ⟨k, hfield, hne, hput⟩
  · exact .inl ⟨e.exc, by simp only [hput]; rfl⟩
  · refine .inr ⟨k, _, ?_, hne, by simp only [hput]; rfl, ?_⟩
    · simpa [JobStore.newItem] using hfield
    · constructor <;> simp [JobStore.newItem, JobRecord.fresh, List.lookup_cons]

/-- Only the payload of a new item may hold a `float`. -/
theorem newItem_hasFloat (clock : Clock) (k : String) (n : Int) (fail : Bool) (payload : Json)
    (ttl : Option Int) : (JobStore.newItem clock (.str k) n fail payload ttl).hasFloat =
      (payload.orElse (.obj [])).hasFloat := by
  have hexpiry : Json.hasFloatFields (JobStore.expiry clock ttl) = false := by
    cases ttl with
    | none => rfl
    | some ttl =>
        simp only [JobStore.expiry]
        split_ifs <;> rfl
  rw [JobStore.newItem, Json.hasFloat, Json.hasFloatFields_append, hexpiry]
  simp [Json.hasFloatFields, Json.hasFloat, statusSubmitted, JobStore.seconds]

/-- A proper id decides where `create` puts the item, and a `float` in the payload whether. -/
theorem create_eq {k : String} (hne : k ≠ "") (clock : Clock) (n : Int) (fail : Bool) (payload : Json)
    (ttl : Option Int) (table : Table) : JobStore.create clock (.str k) n fail payload ttl table =
      if (payload.orElse (.obj [])).hasFloat then (.error DbError.serialization.exc, table)
      else (.ok (), table.write k (JobStore.newItem clock (.str k) n fail payload ttl)) := by
  have hkey : (JobStore.newItem clock (.str k) n fail payload ttl).field "job_id" = some (.str k) := by
    simp [JobStore.newItem]
  rw [JobStore.create, Table.putItem_eq hkey hne, newItem_hasFloat]
  split_ifs <;> rfl

/-- A job id and a payload that the client can send are not refused. -/
theorem create_ok {k : String} {payload : Json} (hne : k ≠ "") (hfloat : payload.hasFloat = false)
    (clock : Clock) (n : Int) (fail : Bool) (ttl : Option Int) (table : Table) :
    (JobStore.create clock (.str k) n fail payload ttl table).1 = .ok () := by
  rw [create_eq hne, Json.hasFloat_orElse hfloat]
  rfl

/-- A token that the client cannot send leaves the table as it is, any other is
    stored beside the record. -/
theorem attachToken_record (token : Json) (hne : k ≠ "") (h : Shows k r table) (clock : Clock) :
    ∃ answer, JobStore.attachToken clock (.str k) token table = (answer, table) ∨
      ∃ item, JobStore.attachToken clock (.str k) token table = (answer, table.write k item) ∧
        r.Describes item := by
  cases hfloat : token.hasFloat with
  | true =>
      refine ⟨.error DbError.serialization.exc, .inl ?_⟩
      have hany : (JobStore.tokenClauses clock token).any (·.2.hasFloat) = true := by
        simp [JobStore.tokenClauses, Operand.hasFloat, hfloat]
      simp only [JobStore.attachToken, JobStore.setAttributes, Table.updateItem, Table.keyOf_str hne,
        hany, if_true]
      rfl
  | false =>
      obtain ⟨item, item', hdescribes, hupdated, hset⟩ :=
        setAttributes_record (JobStore.tokenClauses clock token) hne h
          (by simp [JobStore.tokenClauses, Operand.hasFloat, hfloat, Json.hasFloat, JobStore.seconds])
          (by simp [JobStore.tokenClauses])
      exact ⟨.ok (), .inr ⟨item', hset, {
        succeedAfter := Table.updated_keeps hupdated hdescribes.succeedAfter
          (by simp [JobStore.tokenClauses, Json.Path.Apart])
        failJob := Table.updated_keeps hupdated hdescribes.failJob
          (by simp [JobStore.tokenClauses, Json.Path.Apart])
        attempts := Table.updated_keeps hupdated hdescribes.attempts
          (by simp [JobStore.tokenClauses, Json.Path.Apart])
        status := Table.updated_keeps hupdated hdescribes.status
          (by simp [JobStore.tokenClauses, Json.Path.Apart])
        progress := Table.updated_keeps hupdated hdescribes.progress
          (by simp [JobStore.tokenClauses, Json.Path.Apart]) }⟩⟩

/-! ## Operations -/

section

variable {jobId : Json}

theorem exec_create {n : Int} {fail : Bool} {payload : Json} {ttl : Option Int}
    {answer : Except Exc Unit} (h : exec py reads (.create jobId n fail payload ttl) w answer w') :
    (∃ e, answer = .error e ∧ w' = w.store w.table) ∨
    ∃ k item, jobId = .str k ∧ k ≠ "" ∧ answer = .ok () ∧ w' = w.store (w.table.write k item) ∧
      (JobRecord.fresh n fail).Describes item := by
  obtain ⟨clock, rfl, rfl⟩ := h
  rcases create_cases clock jobId n fail payload ttl w.table with
    ⟨e, hcreate⟩ | ⟨k, item, hk, hne, hcreate, hdescribes⟩
  · exact .inl ⟨e, by simp only [hcreate], by simp only [hcreate]⟩
  · exact .inr ⟨k, item, hk, hne, by simp only [hcreate], by simp only [hcreate], hdescribes⟩

theorem exec_incrementAttempt {answer : Except Exc Int} (hne : k ≠ "") (hshows : Shows k r w.table)
    (h : exec py reads (.incrementAttempt (.str k)) w answer w') :
    answer = .ok (r.attempts + 1) ∧ ∃ item, w' = w.store (w.table.write k item) ∧
      { r with attempts := r.attempts + 1 }.Describes item := by
  obtain ⟨clock, rfl, rfl⟩ := h
  obtain ⟨item, hincrement, hdescribes⟩ := incrementAttempt_record py hne hshows clock
  exact ⟨by simp only [hincrement], item, by simp only [hincrement], hdescribes⟩

theorem exec_updateProgress {status : Json} {progress : Int} {answer : Except Exc Unit}
    (hne : k ≠ "") (hshows : Shows k r w.table) (hfloat : status.hasFloat = false)
    (h : exec py reads (.updateProgress (.str k) status progress) w answer w') :
    answer = .ok () ∧ ∃ item, w' = w.store (w.table.write k item) ∧
      { r with status := status, progress := progress }.Describes item := by
  obtain ⟨clock, rfl, rfl⟩ := h
  obtain ⟨item, hupdate, hdescribes⟩ := updateProgress_record hne hshows hfloat clock
  exact ⟨by simp only [hupdate], item, by simp only [hupdate], hdescribes⟩

theorem exec_setStatus {status : Json} {answer : Except Exc Unit} (hne : k ≠ "")
    (hshows : Shows k r w.table) (hfloat : status.hasFloat = false)
    (h : exec py reads (.setStatus (.str k) status) w answer w') :
    answer = .ok () ∧ ∃ item, w' = w.store (w.table.write k item) ∧
      { r with status := status }.Describes item := by
  obtain ⟨clock, rfl, rfl⟩ := h
  obtain ⟨item, hset, hdescribes⟩ := setStatus_record hne hshows hfloat clock
  exact ⟨by simp only [hset], item, by simp only [hset], hdescribes⟩

theorem exec_attachToken {token : Json} {answer : Except Exc Unit} (hne : k ≠ "")
    (hshows : Shows k r w.table) (h : exec py reads (.attachToken (.str k) token) w answer w') :
    w' = w.store w.table ∨ ∃ item, w' = w.store (w.table.write k item) ∧ r.Describes item := by
  obtain ⟨clock, rfl, rfl⟩ := h
  obtain ⟨answer, hrefused | ⟨item, hattach, hdescribes⟩⟩ :=
    attachToken_record token hne hshows clock
  · exact .inl (by simp only [hrefused])
  · exact .inr ⟨item, by simp only [hattach], hdescribes⟩

end

end LongRunning
