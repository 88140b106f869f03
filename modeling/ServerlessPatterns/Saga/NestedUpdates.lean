-- SUMMARY: The nested updates of any number of sagas always find the maps that they write into.
import ServerlessPatterns.Library.RelyGuarantee
import ServerlessPatterns.Saga.Ledger
import ServerlessPatterns.Saga.Wiring

/-!
# Nested updates

`record_step` and `increment_attempt` write into maps of the record, which only `start`
creates. `set_status` also makes a record where there is none, without the maps. No
operation takes the maps away, so once a saga has started its order, they are there
for all that it does later, whatever other sagas do to the same order.
-/

namespace OrderSaga

open Asl Program Workflow

/-- The record has both maps, and the counters are numbers. -/
structure Supported (orderId : String) (table : Table) : Prop where
  named : orderId ≠ ""
  opened : Opened orderId table
  counting : ∃ counts, table.attr orderId ["attempts"] = some (.obj counts)
  counts : ∀ step v, table.attr orderId ["attempts", step] = some v → ∃ x : ℚ, v = .num (.decimal x)

/-- The operation does not write into maps that may be missing. -/
def Ready : Op → Table → Prop
  | .recordStep id .., table | .incrementAttempt id _, table =>
    ∃ orderId, id = .str orderId ∧ Supported orderId table
  | _, _ => True

/-- The operation was refused for its document path. -/
def PathRefused : (op : Op) → Ans op → Prop
  | .recordStep .., answer => answer = .error DbError.validation.exc
  | .incrementAttempt .., answer => answer = .error DbError.validation.exc
  | _, _ => False

def Keeps (table table' : Table) : Prop := ∀ orderId, Supported orderId table → Supported orderId table'

variable {py : Python} {orderId : String} {table table' : Table} {event data data' : Json}

/-! ## Operations -/

theorem Supported.congr (h : Supported orderId table) (hopened : Opened orderId table')
    (hsame : ∀ rest, table'.attr orderId ("attempts" :: rest) = table.attr orderId ("attempts" :: rest)) :
    Supported orderId table' where
  named := h.named
  opened := hopened
  counting := by
    rw [hsame]
    exact h.counting
  counts step v hv := by
    rw [hsame] at hv
    exact h.counts step v hv

theorem Supported.opened_congr (h : Supported orderId table)
    (hsame : table'.attr orderId ["step_status"] = table.attr orderId ["step_status"]) :
    Opened orderId table' := by
  unfold Opened
  rw [hsame]
  exact h.opened

/-- A new item has both maps. -/
theorem newItem_supported {clock : Clock} {customerId currency : String} {x : ℚ} {ttlSeconds : Int}
    (hne : orderId ≠ "") : Supported orderId
      (table.write orderId (SagaStore.newItem clock (.str orderId) customerId x currency ttlSeconds)) := by
  refine ⟨hne, ⟨[], ?_⟩, ⟨[], ?_⟩, ?_⟩
  · rw [Table.attr_write_self, Json.get_single, newItem_maps.1]
  · rw [Table.attr_write_self, Json.get_single, newItem_maps.2]
  · intro step v hv
    rw [Table.attr_write_self, Json.get_cons, newItem_maps.2] at hv
    cases hv

theorem start_supported {id : Json} {customerId currency : String} {amount : PyFloat} {ttlSeconds : Int}
    (h : exec py (.start id customerId amount currency ttlSeconds) table (.ok ()) table') :
    ∃ orderId, id = .str orderId ∧ Supported orderId table' := by
  rcases start_cases h with ⟨_, herror, _⟩ | ⟨k, clock, x, rfl, hne, _, rfl⟩
  · cases herror
  · exact ⟨k, rfl, newItem_supported hne⟩

/-- A counter can be increased, and is a number again. -/
theorem attemptOperand_eval {step : String} {item : Json}
    (hcounts : ∀ v, item.get ["attempts", step] = some v → ∃ x : ℚ, v = .num (.decimal x)) :
    ∃ x : ℚ, (Operand.plus (.ifNotExists ["attempts", step] (.value (.num (.decimal 0))))
      (.value (.num (.decimal 1)))).eval item = some (.num (.decimal x)) := by
  cases hold : item.get ["attempts", step] with
  | none => exact ⟨0 + 1, by simp only [Operand.eval, hold, Number.exact, Option.bind_some, Option.map_some]⟩
  | some old =>
      obtain ⟨x, rfl⟩ := hcounts old hold
      exact ⟨x + 1, by simp only [Operand.eval, hold, Number.exact, Option.bind_some, Option.map_some]⟩

theorem incrementAttempt_keeps {step : String} {answer : Except Exc Int}
    (h : exec py (.incrementAttempt (.str orderId) step) table answer table')
    (hsupported : Supported orderId table) : Supported orderId table' := by
  have hopened : Opened orderId table' := hsupported.opened_congr
    (attr_same h (by decide) (by decide) (by simp [Op.Sets, Json.Path.Apart]))
  have hothers : ∀ other, other ≠ step →
      table'.attr orderId ["attempts", other] = table.attr orderId ["attempts", other] :=
    fun other hne => attr_same h (by decide) (by decide) (by simp [Op.Sets, Json.Path.Apart, Ne.symm hne])
  obtain ⟨clock, heq⟩ := h
  unfold SagaStore.incrementAttempt at heq
  rcases Table.updateItem_cases "order_id" (.str orderId) (SagaStore.attemptClauses clock step) none
      table with ⟨e, hupdate⟩ | ⟨k, item, hid, _, _, hitem, hupdate⟩
  · simp only [hupdate, Prod.mk.injEq] at heq
    obtain ⟨_, rfl⟩ := heq
    exact hsupported
  · simp only [hupdate, Prod.mk.injEq] at heq
    obtain ⟨_, rfl⟩ := heq
    obtain rfl : orderId = k := Json.str.inj hid
    have hold : ((table orderId).getD (.obj [("order_id", .str orderId)])).get ["attempts", step] =
        table.attr orderId ["attempts", step] := Table.getD_get (by decide)
    obtain ⟨x, hx⟩ := attemptOperand_eval fun v hv => hsupported.counts step v (hold.symm.trans hv)
    have hnew : (table.write orderId item).attr orderId ["attempts", step] = some (.num (.decimal x)) :=
      Table.attr_write_self.trans ((Table.updated_get hitem 0 rfl
        (by simp [SagaStore.attemptClauses, Json.Path.Apart])).trans hx)
    refine ⟨hsupported.named, hopened, Table.attr_parent hnew, ?_⟩
    intro other v hv
    by_cases hother : other = step
    · subst hother
      exact ⟨x, Option.some.inj (hv.symm.trans hnew)⟩
    · rw [hothers other hother] at hv
      exact hsupported.counts other v hv

/-- Whatever is done to the table, no maps are taken away. -/
theorem exec_keeps {op : Op} {answer : Ans op} (h : exec py op table answer table') :
    Keeps table table' := by
  intro orderId hsupported
  have hsame : ∀ {key : String} {rest : Json.Path}, key ≠ "order_id" → key ≠ "updated_at" →
      ¬ op.Sets orderId (key :: rest) →
      table'.attr orderId (key :: rest) = table.attr orderId (key :: rest) :=
    fun hkey htime hnot => attr_same h hkey htime hnot
  cases op with
  | start id customerId amount currency ttlSeconds =>
      rcases start_cases h with ⟨_, _, rfl⟩ | ⟨k, clock, x, rfl, hne, _, rfl⟩
      · exact hsupported
      · by_cases hk : orderId = k
        · subst hk
          exact newItem_supported hne
        · exact hsupported.congr (hsupported.opened_congr (Table.attr_write_ne hk))
            fun _ => Table.attr_write_ne hk
  | recordStep id step stepStatus detail =>
      refine hsupported.congr ?_ fun rest =>
        hsame (by decide) (by decide) (by simp [Op.Sets, Json.Path.Apart])
      by_cases hid : id = .str orderId
      · subst hid
        rcases recordStep_exec h with ⟨_, _, rfl⟩ | ⟨_, _, ⟨time, hentry⟩, _⟩
        · exact hsupported.opened
        · exact opened_of_entry hentry
      · exact hsupported.opened_congr (hsame (by decide) (by decide) fun hsets => hid hsets.1)
  | setStatus id newStatus =>
      exact hsupported.congr
        (hsupported.opened_congr (hsame (by decide) (by decide) (by simp [Op.Sets, Json.Path.Apart])))
        fun rest => hsame (by decide) (by decide) (by simp [Op.Sets, Json.Path.Apart])
  | incrementAttempt id step =>
      by_cases hid : id = .str orderId
      · subst hid
        exact incrementAttempt_keeps h hsupported
      · exact hsupported.congr
          (hsupported.opened_congr (hsame (by decide) (by decide) fun hsets => hid hsets.1))
          fun rest => hsame (by decide) (by decide) fun hsets => hid hsets.1
  | newId idPrefix =>
      obtain ⟨rfl, _⟩ := h
      exact hsupported

/-- Where the maps are, both nested updates find their paths. -/
theorem Ready.not_pathRefused {op : Op} {answer : Ans op} (hready : Ready op table)
    (h : exec py op table answer table') : ¬ PathRefused op answer := by
  have hserialization : DbError.serialization.exc ≠ DbError.validation.exc := by decide
  cases op with
  | recordStep id step stepStatus detail =>
      obtain ⟨orderId, rfl, hsupported⟩ := hready
      obtain ⟨fields, steps, hread, hsteps⟩ := hsupported.opened.fields
      obtain ⟨clock, heq⟩ := h
      obtain ⟨item, hitem⟩ : ∃ item, Table.updated (SagaStore.stepClauses clock step stepStatus detail)
          ((table orderId).getD (.obj [("order_id", .str orderId)])) = some item := by
        rw [hread]
        exact updated_entry hsteps rfl
      have hanswer := congrArg Prod.fst heq
      simp only [SagaStore.recordStep] at hanswer
      rcases Table.updateItem_fits hsupported.named hitem with hok | hfloat
      · rw [hok] at hanswer
        rw [hanswer]
        intro hrefused
        cases hrefused
      · rw [hfloat] at hanswer
        rw [hanswer]
        exact fun hrefused => hserialization (Except.error.inj hrefused)
  | incrementAttempt id step =>
      obtain ⟨orderId, rfl, hsupported⟩ := hready
      obtain ⟨fields, _, hread, _⟩ := hsupported.opened.fields
      obtain ⟨counts, hcounting⟩ := hsupported.counting
      obtain ⟨clock, heq⟩ := h
      have hmap : fields.lookup "attempts" = some (.obj counts) := by
        simpa only [Table.attr, hread, Option.bind_some, Json.get_single, Json.field_obj] using hcounting
      obtain ⟨x, hx⟩ := attemptOperand_eval (fun v (hv : (Json.obj fields).get ["attempts", step] = some v) =>
        hsupported.counts step v (by rw [Table.attr, hread]; exact hv))
      obtain ⟨item, hitem⟩ : ∃ item, Table.updated (SagaStore.attemptClauses clock step)
          ((table orderId).getD (.obj [("order_id", .str orderId)])) = some item := by
        rw [hread]
        exact updated_entry hmap hx
      have hvalue : item.get ["attempts", step] = some (.num (.decimal x)) :=
        (Table.updated_get hitem 0 rfl (by simp [SagaStore.attemptClauses, Json.Path.Apart])).trans
          (by rw [hread]; exact hx)
      have hanswer := congrArg Prod.fst heq
      simp only [SagaStore.incrementAttempt] at hanswer
      rcases Table.updateItem_fits hsupported.named hitem with hok | hfloat
      · rw [hok] at hanswer
        have hint : answer = py.int ((item.get ["attempts", step]).getD .null) := hanswer
        rw [hint, hvalue]
        intro hrefused
        cases hrefused
      · rw [hfloat] at hanswer
        rw [hanswer]
        exact fun hrefused => hserialization (Except.error.inj hrefused)
  | _ => exact id

/-! ## Handlers -/

def discipline (py : Python) : Discipline (exec py) where
  allowed _ _ := True
  ready := Ready
  rely := Keeps
  refl _ _ h := h
  trans h h' orderId hsupported := h' orderId (h orderId hsupported)

/-- An operation that is ready whatever others do. -/
theorem assured_call {α : Type} {op : Op} {k : Ans op → Handler α} {post : α → Table → Prop}
    (hready : ∀ table', Keeps table table' → Ready op table')
    (h : ∀ answer table₁ table', Keeps table table₁ → exec py op table₁ answer table' →
      (discipline py).Assured post (k answer) table') :
    (discipline py).Assured post (.call op k) table :=
  fun table₁ hrely => ⟨hready table₁ hrely, fun _ answer table' hexec =>
    ⟨exec_keeps hexec, h answer table₁ table' hrely hexec⟩⟩

theorem Supported.ready_recordStep {stepStatus detail : Json} {step : String}
    (h : Supported orderId table) (table' : Table) (hkeeps : Keeps table table') :
    Ready (.recordStep (.str orderId) step stepStatus detail) table' :=
  ⟨orderId, rfl, hkeeps orderId h⟩

theorem Supported.ready_incrementAttempt {step : String} (h : Supported orderId table)
    (table' : Table) (hkeeps : Keeps table table') :
    Ready (.incrementAttempt (.str orderId) step) table' :=
  ⟨orderId, rfl, hkeeps orderId h⟩

theorem maybeInjectTransient_assured {step : String} (h : Supported orderId table) :
    (discipline py).Assured (fun _ => Supported orderId)
      (maybeInjectTransient py (.str orderId) step event) table := by
  unfold maybeInjectTransient
  apply Discipline.assured_ofExcept_bind
  intro flaky _
  apply Discipline.assured_ofExcept_bind
  intro succeedOn _
  split
  · exact fun table' hkeeps => hkeeps orderId h
  · apply assured_call h.ready_incrementAttempt
    intro answer table₁ table' hkeeps hexec
    have h' := exec_keeps hexec orderId (hkeeps orderId h)
    apply Discipline.assured_ofExcept_bind
    intro attempt _
    apply Discipline.assured_ofExcept_bind
    intro limit _
    split
    · trivial
    · exact fun table' hkeeps => hkeeps orderId h'

theorem maybeInjectBusinessFailure_assured {step : String} (h : Supported orderId table) :
    (discipline py).Assured (fun _ => Supported orderId)
      (maybeInjectBusinessFailure event step) table := by
  unfold maybeInjectBusinessFailure
  apply Discipline.assured_ofExcept_bind
  intro failAt _
  split
  · trivial
  · exact fun table' hkeeps => hkeeps orderId h

/-- The last call of a forward step. -/
theorem recordStep_assured {step : String} {stepStatus detail result : Json} (h : Supported orderId table) :
    (discipline py).Assured (fun _ => Supported orderId)
      (call (.recordStep (.str orderId) step stepStatus detail) .ofExcept >>=
        fun _ => (pure result : Handler Json)) table := by
  apply assured_call h.ready_recordStep
  intro answer table₁ table' hkeeps hexec
  have h' := exec_keeps hexec orderId (hkeeps orderId h)
  apply Discipline.assured_ofExcept_bind
  exact fun _ _ table' hkeeps => hkeeps orderId h'

theorem forwardStep_assured {step : String} {work : Json → Handler Performed}
    (hid : idOf event = .str orderId) (h : Supported orderId table)
    (hwork : ∀ order table, Supported orderId table →
      (discipline py).Assured (fun _ => Supported orderId) (work order) table) :
    (discipline py).Assured (fun _ => Supported orderId) (forwardStep py step work event) table := by
  unfold forwardStep
  apply Discipline.assured_ofExcept_bind
  intro order horder
  rw [idOf_of_orderOf horder, hid]
  apply (maybeInjectTransient_assured h).bind
  intro _ table₁ h₁
  apply (maybeInjectBusinessFailure_assured h₁).bind
  intro _ table₂ h₂
  apply (hwork order table₂ h₂).bind
  intro performed table₃ h₃
  exact recordStep_assured h₃

/-- The work of a forward step asks for ids only. -/
theorem newId_assured {α : Type} {idPrefix : String} {k : String → Handler α} (h : Supported orderId table)
    (hk : ∀ id table, Supported orderId table →
      (discipline py).Assured (fun _ => Supported orderId) (k id) table) :
    (discipline py).Assured (fun _ => Supported orderId) (.call (.newId idPrefix) k) table := by
  apply assured_call
  · exact fun _ _ => trivial
  intro id table₁ table' hkeeps hexec
  exact hk id table' (exec_keeps hexec orderId (hkeeps orderId h))

theorem stage_assured (s : Stage) (hs : s ≠ .createOrder) (hid : idOf event = .str orderId)
    (h : Supported orderId table) :
    (discipline py).Assured (fun _ => Supported orderId) (s.handler py event) table := by
  cases s with
  | createOrder => exact absurd rfl hs
  | chargePayment =>
      apply forwardStep_assured hid h
      intro order table h
      apply newId_assured h
      intro paymentId table h
      apply Discipline.assured_ofExcept_bind
      intro _ _
      apply Discipline.assured_ofExcept_bind
      intro _ _
      apply Discipline.assured_ofExcept_bind
      exact fun _ _ table' hkeeps => hkeeps orderId h
  | reserveInventory =>
      apply forwardStep_assured hid h
      intro order table h
      apply newId_assured h
      intro reservationId table h
      apply Discipline.assured_ofExcept_bind
      exact fun _ _ table' hkeeps => hkeeps orderId h
  | scheduleShipment =>
      apply forwardStep_assured hid h
      intro order table h
      apply newId_assured h
      intro shipmentId table h
      apply newId_assured h
      exact fun trackingId table h table' hkeeps => hkeeps orderId h

/-- The first step creates the maps before it needs them. -/
theorem createOrder_assured :
    (discipline py).Assured (fun _ table' => ∃ orderId, idOf event = .str orderId ∧ Supported orderId table')
      (createOrder py event) table := by
  unfold createOrder
  apply Discipline.assured_ofExcept_bind
  intro order horder
  rw [idOf_of_orderOf horder]
  apply Discipline.assured_ofExcept_bind
  intro given _
  apply Discipline.assured_ofExcept_bind
  intro amount _
  apply Discipline.assured_ofExcept_bind
  intro items _
  split
  · trivial
  dsimp only
  split
  · trivial
  apply Discipline.assured_ofExcept_bind
  intro customer _
  apply Discipline.assured_ofExcept_bind
  intro currency _
  apply assured_call
  · exact fun _ _ => trivial
  intro answer table₁ table₂ _ hexec
  cases answer with
  | error e => trivial
  | ok =>
      obtain ⟨orderId, hid, h⟩ := start_supported hexec
      rw [hid]
      have hnamed : ∀ {p : Handler Json}, (discipline py).Assured (fun _ => Supported orderId) p table₂ →
          (discipline py).Assured (fun _ table' => ∃ k, Json.str orderId = .str k ∧ Supported k table')
            p table₂ :=
        fun hp => hp.mono fun _ table' h => ⟨orderId, rfl, h⟩
      apply hnamed
      apply (maybeInjectTransient_assured h).bind
      intro _ table₃ h₃
      apply (maybeInjectBusinessFailure_assured h₃).bind
      intro _ table₄ h₄
      apply Discipline.assured_ofExcept_bind
      intro lineItems _
      exact recordStep_assured h₄

theorem setStatus_assured {α : Type} {id newStatus : Json} {k : Except Exc Unit → Handler α}
    {post : α → Table → Prop}
    (hk : ∀ answer table', Keeps table table' → (discipline py).Assured post (k answer) table') :
    (discipline py).Assured post (.call (.setStatus id newStatus) k) table := by
  apply assured_call
  · exact fun _ _ => trivial
  · intro answer table₁ table' hkeeps hexec
    exact hk answer table' fun orderId h => exec_keeps hexec orderId (hkeeps orderId h)

theorem compensate_assured {step resultKey idKey newStatus : String} (hid : idOf event = .str orderId)
    (h : Supported orderId table) :
    (discipline py).Assured (fun _ => Supported orderId)
      (compensate step resultKey idKey newStatus event) table := by
  unfold compensate
  apply Discipline.assured_ofExcept_bind
  intro order horder
  rw [idOf_of_orderOf horder, hid]
  apply setStatus_assured
  intro answer table' hkeeps
  have h' := hkeeps orderId h
  apply Discipline.assured_ofExcept_bind
  intro _ _
  apply Discipline.assured_ofExcept_bind
  intro block _
  apply Discipline.assured_ofExcept_bind
  intro id _
  split
  · exact recordStep_assured h'
  · exact recordStep_assured h'

theorem undo_assured (u : Undo) (hid : idOf event = .str orderId) (h : Supported orderId table) :
    (discipline py).Assured (fun _ => Supported orderId) (u.handler event) table := by
  cases u with
  | releaseInventory => exact compensate_assured hid h
  | refundPayment => exact compensate_assured hid h
  | cancelOrder =>
      show (discipline py).Assured _ (cancelOrder event) table
      unfold cancelOrder
      apply Discipline.assured_ofExcept_bind
      intro order horder
      rw [idOf_of_orderOf horder, hid]
      apply setStatus_assured
      intro answer table' hkeeps
      apply Discipline.assured_ofExcept_bind
      intro _ _
      exact recordStep_assured (hkeeps orderId h)

theorem completeSaga_assured :
    (discipline py).Assured (fun _ table' => Keeps table table') (completeSaga event) table := by
  unfold completeSaga
  apply Discipline.assured_ofExcept_bind
  intro order _
  apply setStatus_assured
  intro answer table₁ hkeeps₁
  apply Discipline.assured_ofExcept_bind
  exact fun _ _ table₂ hkeeps₂ orderId h => hkeeps₂ orderId (hkeeps₁ orderId h)

theorem markFailed_assured :
    (discipline py).Assured (fun _ _ => True) (markFailed event) table := by
  unfold markFailed
  apply Discipline.assured_ofExcept_bind
  intro order _
  apply setStatus_assured
  intro answer table₁ _
  apply Discipline.assured_ofExcept_bind
  intro _ _
  apply Discipline.assured_ofExcept_bind
  intro _ _
  apply Discipline.assured_ofExcept_bind
  exact fun _ _ _ _ => trivial

/-! ## The execution -/

/-- Where an execution stands: it needs no maps before its first step has returned and
    once it only marks the saga as failed, and everywhere else its order has them. -/
inductive Placed : Execution StateName → Table → Prop where
  | early {s : StateName} {data : Json} {left : List Nat} {table : Table}
      (hs : s = .initializeSaga ∨ s = .createOrder ∨ s = .markFailed) :
      Placed (.running s data left) table
  | started {s : StateName} {data : Json} {left : List Nat} {table : Table} {orderId : String}
      (horder : ForOrder orderId data) (h : Supported orderId table) : Placed (.running s data left) table
  | ended {e : Execution StateName} {table : Table} (h : ∀ s data left, e ≠ .running s data left) :
      Placed e table

theorem Placed.stable {e : Execution StateName} (h : Placed e table) (hkeeps : Keeps table table') :
    Placed e table' := by
  cases h with
  | early hs => exact .early hs
  | @started _ _ _ _ orderId horder h => exact .started horder (hkeeps orderId h)
  | ended h => exact .ended h

theorem Placed.runtimeError {s : StateName} : Placed (.runtimeError s) table := .ended nofun

theorem Placed.retried {s : StateName} {left left' : List Nat} (h : Placed (.running s data left) table) :
    Placed (.running s data left') table := by
  cases h with
  | early hs => exact .early hs
  | started horder h => exact .started horder h
  | ended h => exact absurd rfl (h s data left)

theorem Placed.entered {s : StateName}
    (h : (s = .initializeSaga ∨ s = .createOrder ∨ s = .markFailed ∨ s = .sagaFailed) ∨
      ∃ orderId, ForOrder orderId data ∧ Supported orderId table) :
    Placed (machine.enter s data) table := by
  have hrunning : (∃ left, machine.enter s data = .running s data left) ∨
      ∃ err, machine.enter s data = .failed s err := by
    cases s <;> first | exact .inl ⟨_, rfl⟩ | exact .inr ⟨_, rfl⟩
  rcases hrunning with ⟨left, heq⟩ | ⟨err, heq⟩
  · rw [heq]
    rcases h with (hs | hs | hs | hs) | ⟨orderId, horder, h⟩
    · exact .early (.inl hs)
    · exact .early (.inr (.inl hs))
    · exact .early (.inr (.inr hs))
    · subst hs
      cases heq
    · exact .started horder h
  · rw [heq]
    exact .ended nofun

theorem Placed.fault {s : StateName} {t : Task StateName Function} {left : List Nat} {err : TaskError}
    (hstate : machine.states s = .task t) (h : Placed (.running s data left) table) :
    Placed (machine.fault s t data left err) table := by
  rcases machine.fault_cases s t data left err with
    ⟨i, _, _, heq⟩ | ⟨c, hc, _, data', hput, heq⟩ | ⟨err', heq⟩
  · rw [heq]
    exact h.retried
  · rw [heq]
    apply Placed.entered
    cases h with
    | early hs =>
        -- Only the first step has a catcher here, and it leads to the end.
        rcases hs with rfl | rfl | rfl
        · cases hstate
        · cases hstate
          simp only [createOrderTask, forwardTask, List.mem_singleton] at hc
          subst hc
          exact .inl (.inr (.inr (.inl rfl)))
        · cases hstate
          cases hc
    | started horder h =>
        exact .inr ⟨_, horder.put hput (catcher_resultPath_apart hstate hc), h⟩
    | ended h => exact absurd rfl (h s data left)
  · rw [heq]
    exact .ended nofun

theorem Placed.complete {s : StateName} {t : Task StateName Function} {context result : Json}
    (hstate : machine.states s = .task t)
    (h : s = .markFailed ∨ ∃ orderId, ForOrder orderId data ∧ Supported orderId table) :
    Placed (machine.complete s t context data result) table := by
  rcases machine.complete_cases s t context data result with
    ⟨_, heq⟩ | ⟨data', hput, ⟨_, heq⟩ | ⟨s', hnext, heq⟩⟩
  · rw [heq]
    exact .ended nofun
  · rw [heq]
    exact .ended nofun
  · rw [heq]
    rw [(task_direct hstate).output] at hput
    apply Placed.entered
    rcases h with rfl | ⟨orderId, horder, h⟩
    · cases hstate
      cases hnext
      exact .inl (.inr (.inr (.inr rfl)))
    · exact .inr ⟨orderId, horder.put hput (task_resultPath_apart hstate), h⟩

/-- A handler that returns has left its order with the maps. -/
theorem handler_assured {s : StateName} {t : Task StateName Function} {left : List Nat}
    (hstate : machine.states s = .task t) (h : Placed (.running s data left) table) :
    (discipline py).Assured (fun _ table' => s = .markFailed ∨
      ∃ orderId, ForOrder orderId data ∧ Supported orderId table') (function py t.resource data) table := by
  have hcreate : (discipline py).Assured (fun _ table' => s = .markFailed ∨
      ∃ orderId, ForOrder orderId data ∧ Supported orderId table') (createOrder py data) table := by
    refine createOrder_assured.mono fun _ table' hcreated => ?_
    obtain ⟨orderId, hid, h⟩ := hcreated
    exact .inr ⟨orderId, forOrder_of_idOf hid, h⟩
  cases h with
  | early hs =>
      rcases hs with rfl | rfl | rfl
      · cases hstate
      · cases hstate
        exact hcreate
      · cases hstate
        exact markFailed_assured.mono fun _ _ _ => .inl rfl
  | @started _ _ _ _ orderId horder h =>
      have hid := idOf_of_forOrder horder
      have hkept : ∀ table', Supported orderId table' → s = .markFailed ∨
          ∃ orderId, ForOrder orderId data ∧ Supported orderId table' :=
        fun table' h' => .inr ⟨orderId, horder, h'⟩
      cases s with
      | createOrder =>
          cases hstate
          exact hcreate
      | chargePayment =>
          cases hstate
          exact (stage_assured .chargePayment nofun hid h).mono fun _ => hkept
      | reserveInventory =>
          cases hstate
          exact (stage_assured .reserveInventory nofun hid h).mono fun _ => hkept
      | scheduleShipment =>
          cases hstate
          exact (stage_assured .scheduleShipment nofun hid h).mono fun _ => hkept
      | completeSaga =>
          cases hstate
          exact completeSaga_assured.mono fun _ table' hkeeps => hkept table' (hkeeps orderId h)
      | releaseInventory =>
          cases hstate
          exact (undo_assured .releaseInventory hid h).mono fun _ => hkept
      | refundPayment =>
          cases hstate
          exact (undo_assured .refundPayment hid h).mono fun _ => hkept
      | cancelOrder =>
          cases hstate
          exact (undo_assured .cancelOrder hid h).mono fun _ => hkept
      | markFailed =>
          cases hstate
          exact markFailed_assured.mono fun _ _ _ => .inl rfl
      | _ => cases hstate
  | ended h => exact absurd rfl (h s data left)

/-- Where the maps are needed, as an annotation of the machine. -/
def supporting (py : Python) : Annotation (workflow py) (discipline py) where
  holds e _ table := Placed e table
  stable h hkeeps := h.stable hkeeps
  move h hmove := by
    cases hmove with
    | pass hstate hput =>
        apply Placed.entered
        rename_i s _ _ _ _ _ _
        cases s <;> cases hstate
        exact .inl (.inr (.inl rfl))
    | @route s _ _ _ hroute => cases s <;> cases hroute
    | _ => exact .runtimeError
  invoke hstate hevent h := by
    rw [(task_direct hstate).event, Option.some.injEq] at hevent
    subst hevent
    refine (handler_assured hstate h).mono fun _ table' hreturned _ report hreport => ?_
    have hreturn := hreport.ok (by rw [(task_direct hstate).integration]; decide)
    subst hreturn
    exact Placed.complete hstate hreturned
  fault hstate _ h hnot hreport := by
    obtain ⟨err, rfl⟩ := hreport.error (by rw [(task_direct hstate).integration]; decide) hnot
    exact h.fault hstate

/-! ## Any number of executions -/

/-- Whenever any execution records a step or counts an attempt, the record and its maps
    are there, and the update is not refused for its path. -/
theorem nested_updates_ready {ι : Type} [DecidableEq ι] {input : ι → Json} {table₀ : Table}
    {sys : System ι StateName Op Ans Table}
    (h : Relation.ReflTransGen (System.Step (workflow py) fun _ _ _ _ => True)
      (.init (workflow py) input table₀) sys) {i : ι} {op : Op} (hasks : (sys.session i).Asks op) :
    Ready op sys.world ∧
      ∀ answer table', exec py op sys.world answer table' → ¬ PathRefused op answer := by
  have hready : Ready op sys.world :=
    ((supporting py).kept (fun _ _ _ _ _ => trivial) (fun _ => .early (.inl rfl)) h i).ready hasks
  exact ⟨hready, fun answer table' hexec => hready.not_pathRefused hexec⟩

/-- The step that an operation records. -/
def Op.recorded : Op → Option String
  | .recordStep _ step _ _ => some step
  | _ => none

/-- An order is rejected, and its record has no maps. Then the same order is placed
    again, and is about to be recorded. -/
theorem nested_updates_ready_rejectedBefore : ∃ (sys : System Bool StateName Op Ans Table) (op : Op),
    (sys.session true).Asks op ∧ op.recorded = some "create_order" ∧ Ready op sys.world := by
  have hrun : ((System.run (workflow .sample) (answer .sample) (fun _ _ _ _ => true)
      (.init (workflow .sample) (fun placed => if placed then sampleInput .null else
        .obj [("order", .obj [("order_id", .str "ord-1001")])]) fun _ => none)
      (System.goOn false 6 ++ System.goOn true 3)).any fun sys =>
        ((sys.session true).current.bind Underway.next).any fun op =>
          op.recorded = some "create_order") = true := by
    decide +kernel
  obtain ⟨sys, hreach, hnext⟩ := System.exists_of_run answer_exec (fun _ _ _ _ _ => trivial) hrun
  obtain ⟨op, hop, hrecorded⟩ := (Option.any_eq_true _ _).mp hnext
  obtain ⟨u, hu, hasks⟩ := Option.bind_eq_some_iff.mp hop
  exact ⟨sys, op, .inl ⟨u, hu, hasks⟩, of_decide_eq_true hrecorded,
    (nested_updates_ready hreach (.inl ⟨u, hu, hasks⟩)).1⟩

end OrderSaga
