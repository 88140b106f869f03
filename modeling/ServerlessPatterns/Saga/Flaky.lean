-- SUMMARY: Orders whose steps are made to fail at first: on which attempt a step succeeds, and where the saga ends.
import ServerlessPatterns.Library.WeakestPre
import ServerlessPatterns.Saga.NestedUpdates
import ServerlessPatterns.Saga.Rollback

/-!
# Flaky steps

A step that is to succeed on its `n`-th attempt counts its attempts in the record of the
order. The record is put anew by every attempt of the first step, with all counters gone.
-/

namespace OrderSaga

open Asl Program Workflow

/-- The attempt on which a step is to succeed, the first unless another is asked for. -/
def succeedsOn (flaky : List (String × Json)) (s : Stage) : Int :=
  match flaky.lookup s.name with
  | some (.num (.int n)) => n
  | _ => 1

/-- An order that passes its validation and that the store takes. -/
structure Accepted (py : Python) (orderId : String) (fields : List (String × Json)) : Prop where
  id : fields.lookup "order_id" = some (.str orderId)
  named : orderId ≠ ""
  amount : ∃ amount x, py.float ((fields.lookup "amount").getD (.num (.int 0))) = .ok amount ∧
    amount.nonpos = false ∧ py.toDecimal amount = .ok x
  items : ∃ items n, fields.lookup "items" = some items ∧ items.truthy = true ∧
    Python.len items = .ok n

/-- The event is about an accepted order, no step of which is made to fail for good. The
    steps in `flaky` are to succeed on the attempts that are given there. -/
structure FlakyOrder (py : Python) (orderId : String) (flaky : List (String × Json))
    (event : Json) : Prop where
  order : ∃ fields, event.get ["order"] = some (.obj fields) ∧ Accepted py orderId fields
  failAt : (event.get ["fail_at"]).getD .null = .null
  steps : event.get ["flaky_steps"] = some (.obj flaky)
  positive : ∀ s : Stage, ∀ v, flaky.lookup s.name = some v → ∃ n : Int, 0 < n ∧ v = .num (.int n)

/-- The counter of a step stands at `i`. -/
def Counter (orderId step : String) (i : Nat) (table : Table) : Prop :=
  (table.attr orderId ["attempts", step]).getD (.num (.decimal 0)) = .num (.decimal i)

/-- The record of the order has its id and its maps. -/
structure Established (orderId : String) (table : Table) : Prop where
  filed : Filed orderId table
  supported : Supported orderId table

variable {py : Python} {orderId : String} {flaky : List (String × Json)} {event : Json}
  {table table' : Table} {s : Stage} {i : Nat}

/-! ## Operations -/

theorem Established.exec {op : Op} {answer : Ans op} (h : Established orderId table)
    (hexec : exec py op table answer table') (hfiled : Filed orderId table → Filed orderId table') :
    Established orderId table' :=
  ⟨hfiled h.filed, exec_keeps hexec orderId h.supported⟩

/-- A counter moves only when its own step is counted. -/
theorem Counter.same {op : Op} {answer : Ans op} {step : String} (h : Counter orderId step i table)
    (hexec : OrderSaga.exec py op table answer table')
    (hnot : ¬ op.Sets orderId ["attempts", step]) : Counter orderId step i table' := by
  unfold Counter
  rw [attr_same hexec (by decide) (by decide) hnot]
  exact h

/-- Counting an attempt answers with the number of the attempt. -/
theorem incrementAttempt_counts {step : String} {answer : Except Exc Int}
    (hexec : exec py (.incrementAttempt (.str orderId) step) table answer table')
    (h : Supported orderId table) (hcounter : Counter orderId step i table) :
    answer = .ok (i + 1 : Int) ∧ Counter orderId step (i + 1) table' := by
  obtain ⟨clock, heq⟩ := hexec
  obtain ⟨fields, _, hread, _⟩ := h.opened.fields
  obtain ⟨counts, hcounting⟩ := h.counting
  have hmap : fields.lookup "attempts" = some (.obj counts) := by
    simpa only [Table.attr, hread, Option.bind_some, Json.get_single, Json.field_obj] using hcounting
  have hvalue : (Operand.plus (.ifNotExists ["attempts", step] (.value (.num (.decimal 0))))
      (.value (.num (.decimal 1)))).eval (.obj fields) = some (.num (.decimal (i + 1))) := by
    have hold : Table.attr table orderId ["attempts", step] = (Json.obj fields).get ["attempts", step] := by
      rw [Table.attr, hread, Option.bind_some]
    unfold Counter at hcounter
    rw [hold] at hcounter
    cases hentry : (Json.obj fields).get ["attempts", step] with
    | none =>
        rw [hentry, Option.getD_none, Json.num.injEq, Number.decimal.injEq] at hcounter
        simp only [Operand.eval, hentry, Number.exact, Option.bind_some, Option.map_some, hcounter]
    | some old =>
        rw [hentry, Option.getD_some] at hcounter
        simp only [Operand.eval, hentry, hcounter, Number.exact, Option.bind_some, Option.map_some]
  obtain ⟨item, hitem⟩ : ∃ item, Table.updated (SagaStore.attemptClauses clock step) (.obj fields) = some item :=
    updated_entry hmap hvalue
  have hupdate : table.updateItem "order_id" (.str orderId) (SagaStore.attemptClauses clock step) none =
      (.ok item, table.write orderId item) := by
    refine Table.updateItem_ok h.named ?_ (by simp) (by simpa [hread] using hitem)
    simp [SagaStore.attemptClauses, Operand.hasFloat, Json.hasFloat, SagaStore.seconds]
  have hnew : item.get ["attempts", step] = some (.num (.decimal (i + 1))) :=
    (Table.updated_get hitem 0 rfl (by simp [SagaStore.attemptClauses, Json.Path.Apart])).trans hvalue
  simp only [SagaStore.incrementAttempt, hupdate, Prod.mk.injEq] at heq
  obtain ⟨hanswer, rfl⟩ := heq
  constructor
  · have hint : answer = py.int ((item.get ["attempts", step]).getD .null) := hanswer
    have hfloor : ⌊(i + 1 : ℚ)⌋ = (i + 1 : Int) := by exact_mod_cast Int.floor_intCast (R := ℚ) (i + 1)
    rw [hint, hnew, Option.getD_some, Python.int, if_pos (by positivity), hfloor]
  · unfold Counter
    rw [Table.attr_write_self, hnew, Option.getD_some]
    push_cast
    rfl

/-- A step of an established order is recorded. -/
theorem recordStep_establishes {step : String} {detail : Json} {answer : Except Exc Unit}
    (hexec : exec py (.recordStep (.str orderId) step stepDone detail) table answer table')
    (h : Established orderId table) (hfloat : detail.hasFloat = false) :
    answer = .ok () ∧ Established orderId table' := by
  refine ⟨recordStep_succeeds hexec h.supported.named h.supported.opened rfl hfloat, ?_⟩
  apply h.exec hexec
  rcases recordStep_exec hexec with ⟨_, _, rfl⟩ | ⟨_, hfiled, _⟩
  · exact id
  · exact hfiled

/-- Starting an accepted order puts its record anew, with all counters gone. -/
theorem start_establishes {customerId currency : String} {amount : PyFloat} {x : ℚ} {ttlSeconds : Int}
    {answer : Except Exc Unit}
    (hexec : exec py (.start (.str orderId) customerId amount currency ttlSeconds) table answer table')
    (hne : orderId ≠ "") (hamount : py.toDecimal amount = .ok x) :
    answer = .ok () ∧ Established orderId table' ∧ ∀ step, Counter orderId step 0 table' := by
  obtain ⟨clock, heq⟩ := hexec
  have hput : table.putItem "order_id"
      (SagaStore.newItem clock (.str orderId) customerId x currency ttlSeconds) =
        (.ok (), table.write orderId (SagaStore.newItem clock (.str orderId) customerId x currency ttlSeconds)) := by
    have hfloat : (SagaStore.newItem clock (.str orderId) customerId x currency ttlSeconds).hasFloat = false := by
      unfold SagaStore.newItem
      split <;> simp [Json.hasFloat, Json.hasFloatFields, statusStarted, SagaStore.seconds]
    have hid : (SagaStore.newItem clock (.str orderId) customerId x currency ttlSeconds).field "order_id" =
        some (.str orderId) := by
      simp [SagaStore.newItem]
    rw [Table.putItem_eq hid hne, hfloat]
    rfl
  simp only [SagaStore.start, hamount, hput, Prod.mk.injEq] at heq
  obtain ⟨hanswer, rfl⟩ := heq
  refine ⟨hanswer, ⟨filed_write (by simp [SagaStore.newItem]), newItem_supported hne⟩, fun step => ?_⟩
  unfold Counter
  rw [Table.attr_write_self, Json.get_cons, newItem_maps.2]
  simp

/-! ## Events -/

namespace FlakyOrder

variable {event' : Json}

/-- The order and its faults are read from three places of the event. -/
theorem of_get (h : FlakyOrder py orderId flaky event)
    (horder : event'.get ["order"] = event.get ["order"])
    (hfailAt : event'.get ["fail_at"] = event.get ["fail_at"])
    (hsteps : event'.get ["flaky_steps"] = event.get ["flaky_steps"]) :
    FlakyOrder py orderId flaky event' where
  order := by
    rw [horder]
    exact h.order
  failAt := by
    rw [hfailAt]
    exact h.failAt
  steps := by
    rw [hsteps]
    exact h.steps
  positive := h.positive

theorem forOrder (h : FlakyOrder py orderId flaky event) : ForOrder orderId event := by
  obtain ⟨fields, horder, haccepted⟩ := h.order
  exact ⟨fields, horder, haccepted.id⟩

theorem event_obj (h : FlakyOrder py orderId flaky event) : ∃ fields, event = .obj fields := by
  have hsteps := h.steps
  cases event with
  | obj fields => exact ⟨fields, rfl⟩
  | _ => simp [Json.field] at hsteps

theorem orderOf (h : FlakyOrder py orderId flaky event) :
    ∃ fields, OrderSaga.orderOf event = .ok (.obj fields) ∧ Accepted py orderId fields ∧
      orderIdOf (.obj fields) = .str orderId := by
  obtain ⟨fields, horder, haccepted⟩ := h.order
  obtain ⟨eventFields, rfl⟩ := h.event_obj
  rw [Json.get_single, Json.field_obj] at horder
  refine ⟨fields, ?_, haccepted, by simp [orderIdOf, haccepted.id]⟩
  simp only [OrderSaga.orderOf, Python.get_obj, horder, Option.getD_some, Bind.bind, Except.bind,
    haccepted.id, Option.isSome_some, if_true]
  rfl

/-- No step is made to fail for good. -/
theorem noBusinessFailure (h : FlakyOrder py orderId flaky event) (step : String) :
    maybeInjectBusinessFailure event step = .ret () := by
  have hfailAt := h.failAt
  obtain ⟨fields, rfl⟩ := h.event_obj
  rw [Json.get_single, Json.field_obj] at hfailAt
  simp [maybeInjectBusinessFailure, Python.get_obj, hfailAt]

end FlakyOrder

/-! ## Handlers -/

/-- The error that a step raises until its attempt has come. -/
def InjectedTransient (e : Exc) : Prop := ∃ message, e = sagaTransientError message

/-- A step raises until its attempt has come, and every raise has been counted. -/
theorem inject_wp (h : FlakyOrder py orderId flaky event) (hestablished : Established orderId table)
    (hcounter : Counter orderId s.name i table) {others : Table → Prop} (hothers : others table)
    (hcount : ∀ answer t t', others t → exec py (.incrementAttempt (.str orderId) s.name) t answer t' →
      others t') :
    (maybeInjectTransient py (.str orderId) s.name event).wp (exec py)
      (fun _ t => succeedsOn flaky s ≤ i + 1 ∧ Established orderId t ∧ others t)
      (fun e t => i + 1 < succeedsOn flaky s ∧ InjectedTransient e ∧ Established orderId t ∧
        Counter orderId s.name (i + 1) t ∧ others t) table := by
  have hsteps := h.steps
  have hpositive := h.positive s
  obtain ⟨fields, rfl⟩ := h.event_obj
  rw [Json.get_single, Json.field_obj] at hsteps
  unfold maybeInjectTransient
  simp only [Python.get_obj, hsteps, Option.getD_some, ofExcept_ok, ret_bind, Json.orElse_obj]
  cases hlookup : flaky.lookup s.name with
  | none =>
      have hfirst : succeedsOn flaky s = 1 := by simp [succeedsOn, hlookup]
      rw [hfirst]
      exact ⟨by omega, hestablished, hothers⟩
  | some v =>
      obtain ⟨n, hn, rfl⟩ := hpositive v hlookup
      have hgiven : succeedsOn flaky s = n := by simp [succeedsOn, hlookup]
      have htruthy : (Json.num (.int n)).truthy = true := by
        simp only [Json.truthy, decide_eq_true_eq]
        omega
      simp only [Option.getD_some, htruthy, Bool.not_true, Bool.false_eq_true, if_false, hgiven,
        call_bind, Python.int, ofExcept_ok, ret_bind]
      intro answer t hexec
      obtain ⟨rfl, hcounter'⟩ := incrementAttempt_counts hexec hestablished.supported hcounter
      have hestablished' := hestablished.exec hexec (incrementAttempt_exec hexec).1
      simp only [ofExcept_ok, ret_bind]
      split
      · rename_i hlt
        exact ⟨hlt, ⟨_, rfl⟩, hestablished', hcounter', hcount _ _ _ hothers hexec⟩
      · rename_i hle
        exact ⟨by omega, hestablished', hcount _ _ _ hothers hexec⟩

/-- The last call of a forward step. -/
theorem recordStep_wp {step : String} {detail result : Json} (h : Established orderId table)
    (hfloat : detail.hasFloat = false) {others : Table → Prop} (hothers : others table)
    (hcount : ∀ answer t t', others t →
      exec py (.recordStep (.str orderId) step stepDone detail) t answer t' → others t') :
    (call (.recordStep (.str orderId) step stepDone detail) .ofExcept >>=
      fun _ => (pure result : Handler Json)).wp (exec py)
        (fun _ t => Established orderId t ∧ others t) (fun _ _ => False) table := by
  intro answer t hexec
  obtain ⟨rfl, h'⟩ := recordStep_establishes hexec h hfloat
  exact ⟨h', hcount _ _ _ hothers hexec⟩

/-- The counters of the later steps have not been moved. -/
def Unmoved (orderId : String) (later : List Stage) (table : Table) : Prop :=
  ∀ s ∈ later, Counter orderId s.name 0 table

theorem unmoved_incrementAttempt {later : List Stage} {answer : Except Exc Int} (hs : s ∉ later)
    (h : Unmoved orderId later table)
    (hexec : exec py (.incrementAttempt (.str orderId) s.name) table answer table') :
    Unmoved orderId later table' := by
  intro s' hs'
  have hne : s.name ≠ s'.name := fun heq => hs (Stage.name_injective heq ▸ hs')
  exact (h s' hs').same hexec (by simp [Op.Sets, Json.Path.Apart, hne])

theorem unmoved_recordStep {later : List Stage} {step : String} {detail : Json} {answer : Except Exc Unit}
    (h : Unmoved orderId later table)
    (hexec : exec py (.recordStep (.str orderId) step stepDone detail) table answer table') :
    Unmoved orderId later table' :=
  fun s' hs' => (h s' hs').same hexec (by simp [Op.Sets, Json.Path.Apart])

/-- On its attempt number `i + 1` the step raises. The counter of the first step is reset
    on every attempt. -/
def Fails (flaky : List (String × Json)) (s : Stage) (i : Nat) : Prop :=
  if s = .createOrder then 1 < succeedsOn flaky s else i + 1 < succeedsOn flaky s

/-- The counters are such that the next attempt of the step is number `i + 1`. -/
def Counted (orderId : String) (s : Stage) (i : Nat) (later : List Stage) (table : Table) : Prop :=
  s ≠ .createOrder →
    Established orderId table ∧ Counter orderId s.name i table ∧ Unmoved orderId later table

/-- The course of a later step, whose work asks for ids only. -/
theorem forwardStep_wp {work : Json → Handler Performed} {later : List Stage}
    (h : FlakyOrder py orderId flaky event) (hne : s ≠ .createOrder) (hs : s ∉ later)
    (hcounted : Counted orderId s i later table)
    (hwork : ∀ fields t, Accepted py orderId fields → (work (.obj fields)).wp (exec py)
      (fun performed t' => performed.detail.hasFloat = false ∧ t' = t) (fun _ _ => False) t) :
    (forwardStep py s.name work event).wp (exec py)
      (fun _ t => ¬ Fails flaky s i ∧ Established orderId t ∧ Unmoved orderId later t)
      (fun e t => Fails flaky s i ∧ InjectedTransient e ∧ Counted orderId s (i + 1) later t) table := by
  obtain ⟨hestablished, hcounter, hlater⟩ := hcounted hne
  obtain ⟨fields, horder, haccepted, hid⟩ := h.orderOf
  unfold forwardStep Fails
  simp only [horder, ofExcept_ok, ret_bind, if_neg hne]
  rw [hid, wp_bind]
  refine wp_mono (inject_wp h hestablished hcounter hlater fun _ _ _ hlater hexec =>
    unmoved_incrementAttempt hs hlater hexec) ?_ ?_
  · rintro _ t ⟨hle, hestablished, hlater⟩
    simp only [h.noBusinessFailure, ret_bind]
    rw [wp_bind]
    refine wp_mono (hwork fields t haccepted) ?_ fun _ _ => False.elim
    rintro performed t' ⟨hfloat, rfl⟩
    refine wp_mono (recordStep_wp hestablished hfloat hlater fun _ _ _ hlater hexec =>
      unmoved_recordStep hlater hexec) ?_ fun _ _ => False.elim
    exact fun _ t ⟨hestablished, hlater⟩ => ⟨by omega, hestablished, hlater⟩
  · rintro e t ⟨hlt, htransient, hestablished, hcounter, hlater⟩
    exact ⟨hlt, htransient, fun _ => ⟨hestablished, hcounter, hlater⟩⟩

/-- The first step puts the record anew before it counts its attempt. -/
theorem createOrder_wp {later : List Stage} (h : FlakyOrder py orderId flaky event)
    (hs : Stage.createOrder ∉ later) :
    (createOrder py event).wp (exec py)
      (fun _ t => ¬ Fails flaky .createOrder i ∧ Established orderId t ∧ Unmoved orderId later t)
      (fun e _ => Fails flaky .createOrder i ∧ InjectedTransient e) table := by
  obtain ⟨fields, horder, haccepted, hid⟩ := h.orderOf
  obtain ⟨amount, x, hamount, hpositive, hdecimal⟩ := haccepted.amount
  obtain ⟨items, n, hitems, htruthy, hlen⟩ := haccepted.items
  unfold createOrder Fails
  simp only [horder, ofExcept_ok, ret_bind, Python.getD_obj, hamount, Python.get_obj, hitems,
    Option.getD_some, Json.orElse_of_truthy htruthy, hpositive, htruthy, Bool.not_true,
    Bool.false_eq_true, if_false, if_true]
  rw [hid, wp_bind]
  intro answer t hexec
  obtain ⟨rfl, hestablished, hcounters⟩ := start_establishes hexec haccepted.named hdecimal
  have hlater : Unmoved orderId later t := fun s' _ => hcounters s'.name
  rw [ofExcept_ok, wp_ret, wp_bind]
  refine wp_mono (inject_wp (s := .createOrder) h hestablished (hcounters _) hlater
    fun _ _ _ hlater hexec => unmoved_incrementAttempt hs hlater hexec) ?_ ?_
  · rintro _ t ⟨hle, hestablished, hlater⟩
    simp only [h.noBusinessFailure, ret_bind, hlen, ofExcept_ok]
    refine wp_mono (recordStep_wp hestablished rfl hlater fun _ _ _ hlater hexec =>
      unmoved_recordStep hlater hexec) ?_ fun _ _ => False.elim
    exact fun _ t ⟨hestablished, hlater⟩ => ⟨by simpa using hle, hestablished, hlater⟩
  · rintro e t ⟨hlt, htransient, _⟩
    exact ⟨by simpa using hlt, htransient⟩

/-- A program that draws an id leaves the table as it is. -/
theorem newId_wp {α : Type} {idPrefix : String} {k : String → Handler α}
    {returned : α → Table → Prop} {raised : Exc → Table → Prop}
    (hk : ∀ id, (k id).wp (exec py) returned raised table) :
    (perform (.newId idPrefix) >>= k).wp (exec py) returned raised table := by
  rintro id t ⟨rfl, _⟩
  exact hk id

/-- An attempt of a step raises until its number has come, and then returns. -/
theorem stage_wp {later : List Stage} (h : FlakyOrder py orderId flaky event) (hs : s ∉ later)
    (hcounted : Counted orderId s i later table) :
    (s.handler py event).wp (exec py)
      (fun _ t => ¬ Fails flaky s i ∧ Established orderId t ∧ Unmoved orderId later t)
      (fun e t => Fails flaky s i ∧ InjectedTransient e ∧ Counted orderId s (i + 1) later t) table := by
  cases s with
  | createOrder =>
      refine wp_mono (createOrder_wp h hs) (fun _ _ => id) fun e t hraised => ?_
      exact ⟨hraised.1, hraised.2, fun hne => absurd rfl hne⟩
  | chargePayment =>
      refine forwardStep_wp (s := .chargePayment) h (by decide) hs hcounted fun fields t haccepted => ?_
      obtain ⟨amount, _, hamount, _⟩ := haccepted.amount
      apply newId_wp
      intro paymentId
      simp [hamount, Json.hasFloat, Json.hasFloatFields]
  | reserveInventory =>
      refine forwardStep_wp (s := .reserveInventory) h (by decide) hs hcounted fun fields t _ => ?_
      apply newId_wp
      intro reservationId
      simp [Json.hasFloat, Json.hasFloatFields]
  | scheduleShipment =>
      refine forwardStep_wp (s := .scheduleShipment) h (by decide) hs hcounted fun fields t _ => ?_
      apply newId_wp
      intro shipmentId
      apply newId_wp
      intro trackingId
      simp [Json.hasFloat, Json.hasFloatFields]

end OrderSaga
