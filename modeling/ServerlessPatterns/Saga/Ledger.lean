-- SUMMARY: What the operations of the saga leave in the record of an order, one lemma for each of them.
import ServerlessPatterns.Saga.StateMachine

/-!
# The record of an order

The handlers of one execution all work on one record. Seen from the execution,
the record is its status and, for every step, the entry that `record_step` left.
-/

namespace OrderSaga

/-- What `record_step` left for a step. -/
def entry (orderId step : String) (table : Table) : Option Json :=
  table.attr orderId ["step_status", step]

def status (orderId : String) (table : Table) : Option Json := table.attr orderId ["status"]

/-- The record of the order, if there is one, carries its id. -/
def Filed (orderId : String) (table : Table) : Prop :=
  ∀ item, table orderId = some item → item.get ["order_id"] = some (.str orderId)

/-- The record has the map that `record_step` writes into. -/
def Opened (orderId : String) (table : Table) : Prop :=
  ∃ steps, table.attr orderId ["step_status"] = some (.obj steps)

/-- A step was recorded with a status and a detail. -/
def Recorded (orderId step : String) (stepStatus detail : Json) (table : Table) : Prop :=
  ∃ time, entry orderId step table = some (.obj [("status", stepStatus), ("detail", detail),
    ("at", SagaStore.seconds time)])

variable {py : Python} {orderId : String} {table table' : Table}

theorem filed_write {item : Json} (h : item.get ["order_id"] = some (.str orderId)) :
    Filed orderId (table.write orderId item) := by
  intro item' hread
  rw [Table.write_self, Option.some.injEq] at hread
  rw [← hread, h]

/-- An update starts from an item that carries the id. -/
theorem Filed.getD (h : Filed orderId table) :
    ((table orderId).getD (.obj [("order_id", .str orderId)])).get ["order_id"] =
      some (.str orderId) := by
  cases hread : table orderId with
  | none => simp
  | some item => exact h item hread

theorem Opened.fields (h : Opened orderId table) :
    ∃ fields steps, table orderId = some (.obj fields) ∧
      fields.lookup "step_status" = some (.obj steps) := by
  obtain ⟨steps, hsteps⟩ := h
  unfold Table.attr at hsteps
  obtain ⟨item, hitem, hget⟩ := Option.bind_eq_some_iff.mp hsteps
  rw [Json.get_single] at hget
  cases item with
  | obj fields => exact ⟨fields, steps, hitem, hget⟩
  | _ => simp [Json.field] at hget

theorem opened_of_entry {step : String} {value : Json} (h : entry orderId step table = some value) :
    Opened orderId table := Table.attr_parent h

/-! ## What an operation leaves alone -/

/-- The operation writes at the path of the order's record. -/
def Op.Sets (orderId : String) (path : Json.Path) : Op → Prop
  | .start id .. => id = .str orderId
  | .recordStep id step .. => id = .str orderId ∧ ¬ Json.Path.Apart ["step_status", step] path
  | .setStatus id _ => id = .str orderId ∧ ¬ Json.Path.Apart ["status"] path
  | .incrementAttempt id step => id = .str orderId ∧ ¬ Json.Path.Apart ["attempts", step] path
  | .newId _ => False

/-- An order is started with a whole item, or nothing happens. -/
theorem start_cases {id : Json} {customerId currency : String} {amount : PyFloat} {ttlSeconds : Int}
    {answer : Except Exc Unit}
    (h : exec py (.start id customerId amount currency ttlSeconds) table answer table') :
    (∃ e, answer = .error e ∧ table' = table) ∨
    ∃ k clock x, id = .str k ∧ k ≠ "" ∧ answer = .ok () ∧
      table' = table.write k (SagaStore.newItem clock (.str k) customerId x currency ttlSeconds) := by
  obtain ⟨clock, heq⟩ := h
  unfold SagaStore.start at heq
  cases hamount : py.toDecimal amount with
  | error e =>
      simp only [hamount, Prod.mk.injEq] at heq
      exact .inl ⟨e, heq⟩
  | ok x =>
      rcases Table.putItem_cases "order_id" (SagaStore.newItem clock id customerId x currency ttlSeconds)
        table with ⟨e, hput⟩ | ⟨k, hfield, hne, hput⟩
      · simp only [hamount, hput, Prod.mk.injEq] at heq
        exact .inl ⟨e.exc, heq⟩
      · simp only [hamount, hput, Prod.mk.injEq] at heq
        obtain ⟨hanswer, htable⟩ := heq
        obtain rfl : id = .str k := by simpa [SagaStore.newItem] using hfield
        exact .inr ⟨k, clock, x, rfl, hne, hanswer, htable⟩

theorem newItem_maps {clock : Clock} {id : Json} {customerId currency : String} {x : ℚ}
    {ttlSeconds : Int} :
    (SagaStore.newItem clock id customerId x currency ttlSeconds).field "step_status" = some (.obj []) ∧
    (SagaStore.newItem clock id customerId x currency ttlSeconds).field "attempts" = some (.obj []) := by
  simp [SagaStore.newItem, List.lookup_cons]

theorem start_attr_ne {id : Json} {customerId currency : String} {amount : PyFloat} {ttlSeconds : Int}
    {answer : Except Exc Unit} {path : Json.Path}
    (h : exec py (.start id customerId amount currency ttlSeconds) table answer table')
    (hne : id ≠ .str orderId) : table'.attr orderId path = table.attr orderId path := by
  rcases start_cases h with ⟨_, _, rfl⟩ | ⟨k, clock, x, rfl, _, _, rfl⟩
  · rfl
  · apply Table.attr_write_ne
    rintro rfl
    exact hne rfl

/-- An attribute only changes when it is written, apart from the time of the update. -/
theorem attr_same {op : Op} {answer : Ans op} {key : String} {rest : Json.Path}
    (h : exec py op table answer table') (hkey : key ≠ "order_id") (htime : key ≠ "updated_at")
    (hnot : ¬ op.Sets orderId (key :: rest)) :
    table'.attr orderId (key :: rest) = table.attr orderId (key :: rest) := by
  have hupdate : ∀ {id time : Json} {path : Json.Path} {operand : Operand},
      ¬ (id = .str orderId ∧ ¬ Json.Path.Apart path (key :: rest)) →
      (table.updateItem "order_id" id [(path, operand), (["updated_at"], .value time)] none).2.attr
        orderId (key :: rest) = table.attr orderId (key :: rest) := by
    intro id time path operand hnot
    apply Table.attr_updateItem hkey
    intro hid c hc
    rcases List.mem_pair.mp hc with rfl | rfl
    · by_contra hapart
      exact hnot ⟨hid, hapart⟩
    · exact .inl htime.symm
  cases op with
  | start id customerId amount currency ttlSeconds => exact start_attr_ne h hnot
  | recordStep id step stepStatus detail =>
      obtain ⟨clock, heq⟩ := h
      obtain rfl : table' = _ := congrArg Prod.snd heq
      exact hupdate hnot
  | setStatus id newStatus =>
      obtain ⟨clock, heq⟩ := h
      obtain rfl : table' = _ := congrArg Prod.snd heq
      exact hupdate hnot
  | incrementAttempt id step =>
      obtain ⟨clock, heq⟩ := h
      obtain rfl : table' = _ := congrArg Prod.snd heq
      exact hupdate hnot
  | newId idPrefix =>
      obtain ⟨rfl, _⟩ := h
      rfl

/-- The order whose record an operation writes. -/
def Op.subject : Op → Option Json
  | .start id .. | .recordStep id .. | .setStatus id _ | .incrementAttempt id _ => some id
  | .newId _ => none

/-- An operation leaves the records of other orders alone. -/
theorem record_same {op : Op} {answer : Ans op} {k : String} (h : exec py op table answer table')
    (hne : ∀ id ∈ op.subject, Table.keyOf id ≠ .ok k) : table' k = table k := by
  have hupdate : ∀ {id : Json} {clauses : List (Json.Path × Operand)}, Table.keyOf id ≠ .ok k →
      (table.updateItem "order_id" id clauses none).2 k = table k := by
    intro id clauses hne
    rcases Table.updateItem_cases "order_id" id clauses none table with
      ⟨e, hrefused⟩ | ⟨k', item, rfl, hk', _, _, hwritten⟩
    · rw [hrefused]
    · rw [hwritten]
      exact Table.write_ne fun heq => hne (by rw [heq, Table.keyOf_str hk'])
  cases op with
  | start id customerId amount currency ttlSeconds =>
      rcases start_cases h with ⟨_, _, rfl⟩ | ⟨k', clock, x, rfl, hk', _, rfl⟩
      · rfl
      · exact Table.write_ne fun heq => hne _ rfl (by rw [heq, Table.keyOf_str hk'])
  | recordStep id step stepStatus detail =>
      obtain ⟨clock, heq⟩ := h
      obtain rfl : table' = _ := congrArg Prod.snd heq
      exact hupdate (hne id rfl)
  | setStatus id newStatus =>
      obtain ⟨clock, heq⟩ := h
      obtain rfl : table' = _ := congrArg Prod.snd heq
      exact hupdate (hne id rfl)
  | incrementAttempt id step =>
      obtain ⟨clock, heq⟩ := h
      obtain rfl : table' = _ := congrArg Prod.snd heq
      exact hupdate (hne id rfl)
  | newId idPrefix =>
      obtain ⟨rfl, _⟩ := h
      rfl

/-! ## Operations -/

theorem start_exec {customerId currency : String} {amount : PyFloat} {ttlSeconds : Int}
    {answer : Except Exc Unit}
    (h : exec py (.start (.str orderId) customerId amount currency ttlSeconds) table answer table') :
    (∃ e, answer = .error e ∧ table' = table) ∨
    (answer = .ok () ∧ (Filed orderId table → Filed orderId table') ∧
      Opened orderId table' ∧ ∀ step, entry orderId step table' = none) := by
  rcases start_cases h with hrefused | ⟨k, clock, x, hid, _, hanswer, rfl⟩
  · exact .inl hrefused
  · obtain rfl : orderId = k := Json.str.inj hid
    refine .inr ⟨hanswer, fun _ => ?_, ⟨[], ?_⟩, fun step => ?_⟩
    · exact filed_write (by simp [SagaStore.newItem])
    · rw [Table.attr_write_self, Json.get_single, newItem_maps.1]
    · rw [entry, Table.attr_write_self, Json.get_cons, newItem_maps.1]
      rfl

theorem recordStep_exec {step : String} {stepStatus detail : Json} {answer : Except Exc Unit}
    (h : exec py (.recordStep (.str orderId) step stepStatus detail) table answer table') :
    (∃ e, answer = .error e ∧ table' = table) ∨
    (answer = .ok () ∧ (Filed orderId table → Filed orderId table') ∧
      Recorded orderId step stepStatus (detail.orElse (.obj [])) table' ∧
      ∀ other, other ≠ step → entry orderId other table' = entry orderId other table) := by
  have hsame : ∀ other, other ≠ step → entry orderId other table' = entry orderId other table :=
    fun other hne => attr_same h (by decide) (by decide) (by simp [Op.Sets, Json.Path.Apart, Ne.symm hne])
  obtain ⟨clock, heq⟩ := h
  unfold SagaStore.recordStep at heq
  rcases Table.updateItem_cases "order_id" (.str orderId)
      (SagaStore.stepClauses clock step stepStatus detail) none table with
    ⟨e, hupdate⟩ | ⟨k, item, hk, _, _, hitem, hupdate⟩
  · simp only [hupdate, Prod.mk.injEq] at heq
    exact .inl ⟨e.exc, heq⟩
  · simp only [hupdate, Prod.mk.injEq] at heq
    obtain ⟨hanswer, rfl⟩ := heq
    obtain rfl : orderId = k := by simpa using hk
    refine .inr ⟨hanswer, fun hfiled => ?_, ⟨clock 0, ?_⟩, hsame⟩
    · have hid : item.get ["order_id"] = _ :=
        Table.updated_apart hitem (by simp [SagaStore.stepClauses, Json.Path.Apart])
      exact filed_write (hid.trans hfiled.getD)
    · rw [entry, Table.attr_write_self]
      exact Table.updated_get hitem 0 rfl (by simp [SagaStore.stepClauses, Json.Path.Apart])

/-- An entry of a map that is there can be written. -/
theorem updated_entry {fields inner : List (String × Json)} {key entry : String} {operand : Operand}
    {v time : Json} (hmap : fields.lookup key = some (.obj inner))
    (hvalue : operand.eval (.obj fields) = some v) :
    ∃ item, Table.updated [([key, entry], operand), (["updated_at"], .value time)] (.obj fields) =
      some item := by
  have htime : (Operand.value time).eval (.obj fields) = some time := rfl
  simp [Table.updated, Table.evalAll, hvalue, htime, Table.setAll, Json.set, hmap]

/-- A record that has been opened takes every step. -/
theorem recordStep_succeeds {step : String} {stepStatus detail : Json} {answer : Except Exc Unit}
    (h : exec py (.recordStep (.str orderId) step stepStatus detail) table answer table')
    (hne : orderId ≠ "") (hopened : Opened orderId table) (hstatus : stepStatus.hasFloat = false)
    (hdetail : detail.hasFloat = false) : answer = .ok () := by
  obtain ⟨clock, heq⟩ := h
  obtain ⟨fields, steps, hread, hsteps⟩ := hopened.fields
  have hfloat : (detail.orElse (.obj [])).hasFloat = false := Json.hasFloat_orElse hdetail
  obtain ⟨item, hitem⟩ : ∃ item,
      Table.updated (SagaStore.stepClauses clock step stepStatus detail) (.obj fields) =
        some item := updated_entry hsteps rfl
  have hupdate : table.updateItem "order_id" (.str orderId)
      (SagaStore.stepClauses clock step stepStatus detail) none =
        (.ok item, table.write orderId item) := by
    refine Table.updateItem_ok hne ?_ (by simp) (by simpa [hread] using hitem)
    simp [SagaStore.stepClauses, Operand.hasFloat, Json.hasFloat, Json.hasFloatFields, hstatus,
      hfloat, SagaStore.seconds]
  simp only [SagaStore.recordStep, hupdate, Prod.mk.injEq] at heq
  exact heq.1

theorem setStatus_exec {newStatus : Json} {answer : Except Exc Unit}
    (h : exec py (.setStatus (.str orderId) newStatus) table answer table')
    (hne : orderId ≠ "") (hfiled : Filed orderId table) (hfloat : newStatus.hasFloat = false) :
    answer = .ok () ∧ Filed orderId table' ∧ status orderId table' = some newStatus ∧
      (Opened orderId table → Opened orderId table') ∧
      ∀ step, entry orderId step table' = entry orderId step table := by
  have hsame : ∀ rest, table'.attr orderId ("step_status" :: rest) =
      table.attr orderId ("step_status" :: rest) :=
    fun rest => attr_same h (by decide) (by decide) (by simp [Op.Sets, Json.Path.Apart])
  obtain ⟨clock, heq⟩ := h
  obtain ⟨fields, hfields⟩ : ∃ fields,
      (table orderId).getD (.obj [("order_id", .str orderId)]) = .obj fields := by
    have hid := hfiled.getD
    cases hitem : (table orderId).getD (.obj [("order_id", .str orderId)]) with
    | obj fields => exact ⟨fields, rfl⟩
    | _ => simp [hitem, Json.field] at hid
  obtain ⟨fields', hitem⟩ : ∃ fields',
      Table.updated (SagaStore.statusClauses clock newStatus) (.obj fields) =
        some (.obj fields') :=
    Table.updated_constants (by simp [SagaStore.statusClauses])
  rw [← hfields] at hitem
  have hupdate : table.updateItem "order_id" (.str orderId)
      (SagaStore.statusClauses clock newStatus) none =
        (.ok (.obj fields'), table.write orderId (.obj fields')) := by
    refine Table.updateItem_ok hne ?_ (by simp) hitem
    simp [SagaStore.statusClauses, Operand.hasFloat, Json.hasFloat, hfloat, SagaStore.seconds]
  simp only [SagaStore.setStatus, hupdate, Prod.mk.injEq] at heq
  obtain ⟨hanswer, rfl⟩ := heq
  refine ⟨hanswer, ?_, ?_, ?_, fun step => hsame [step]⟩
  · have hid : (Json.obj fields').get ["order_id"] = _ :=
      Table.updated_apart hitem (by simp [SagaStore.statusClauses, Json.Path.Apart])
    exact filed_write (hid.trans hfiled.getD)
  · rw [status, Table.attr_write_self]
    exact Table.updated_get hitem 0 rfl (by simp [SagaStore.statusClauses, Json.Path.Apart])
  · rintro ⟨steps, hsteps⟩
    exact ⟨steps, (hsame []).trans hsteps⟩

theorem incrementAttempt_exec {step : String} {answer : Except Exc Int}
    (h : exec py (.incrementAttempt (.str orderId) step) table answer table') :
    (Filed orderId table → Filed orderId table') ∧
      (Opened orderId table → Opened orderId table') ∧
      ∀ other, entry orderId other table' = entry orderId other table := by
  have hsame : ∀ rest, table'.attr orderId ("step_status" :: rest) =
      table.attr orderId ("step_status" :: rest) :=
    fun rest => attr_same h (by decide) (by decide) (by simp [Op.Sets, Json.Path.Apart])
  obtain ⟨clock, heq⟩ := h
  unfold SagaStore.incrementAttempt at heq
  rcases Table.updateItem_cases "order_id" (.str orderId) (SagaStore.attemptClauses clock step) none
      table with
    ⟨e, hupdate⟩ | ⟨k, item, hk, _, _, hitem, hupdate⟩
  · simp only [hupdate, Prod.mk.injEq] at heq
    obtain ⟨_, rfl⟩ := heq
    exact ⟨id, id, fun _ => rfl⟩
  · simp only [hupdate, Prod.mk.injEq] at heq
    obtain ⟨_, rfl⟩ := heq
    obtain rfl : orderId = k := by simpa using hk
    refine ⟨fun hfiled => ?_, ?_, fun other => hsame [other]⟩
    · have hid : item.get ["order_id"] = _ :=
        Table.updated_apart hitem (by simp [SagaStore.attemptClauses, Json.Path.Apart])
      exact filed_write (hid.trans hfiled.getD)
    · rintro ⟨steps, hsteps⟩
      exact ⟨steps, (hsame []).trans hsteps⟩

end OrderSaga
