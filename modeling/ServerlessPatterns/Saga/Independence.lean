-- SUMMARY: Executions for different orders do not interfere: together they come to what each of them comes to alone.
import ServerlessPatterns.Library.Footprints
import ServerlessPatterns.Saga.Rejected

/-!
# Independent orders

Every call of the store is about one order, and every handler calls the store about the
order of its execution. So executions for different orders, with all their attempts that
run on late, are as good as executions that have the table to themselves.
-/

namespace OrderSaga

open Asl Program Workflow

variable {py : Python} {id : Json} {op : Op} {table table' : Table}

/-! ## Operations -/

/-- An operation on an order is a method that acts on its record. -/
theorem exec_actsOn {answer : Ans op} (hsubject : op.subject = some id)
    (h : exec py op table answer table') :
    ∃ method : Table → Ans op × Table, Table.ActsOn id method ∧ (answer, table') = method table ∧
      ∀ t, exec py op t (method t).1 (method t).2 := by
  cases op with
  | start id' customerId amount currency ttlSeconds =>
      obtain rfl := Option.some.inj hsubject
      obtain ⟨clock, heq⟩ := h
      refine ⟨SagaStore.start py clock id' customerId amount currency ttlSeconds, ?_, heq,
        fun t => ⟨clock, rfl⟩⟩
      unfold SagaStore.start
      cases py.toDecimal amount with
      | error e => exact Table.actsOn_refused _
      | ok x =>
          have hkey : (SagaStore.newItem clock id' customerId x currency ttlSeconds).field "order_id" =
              some id' := rfl
          exact (Table.actsOn_putItem hkey).map fun answer => answer.mapError DbError.exc
  | recordStep id' step stepStatus detail =>
      obtain rfl := Option.some.inj hsubject
      obtain ⟨clock, heq⟩ := h
      refine ⟨SagaStore.recordStep clock id' step stepStatus detail, ?_, heq, fun t => ⟨clock, rfl⟩⟩
      exact (Table.actsOn_updateItem ..).map fun answer => (answer.mapError DbError.exc).map fun _ => ()
  | setStatus id' newStatus =>
      obtain rfl := Option.some.inj hsubject
      obtain ⟨clock, heq⟩ := h
      refine ⟨SagaStore.setStatus clock id' newStatus, ?_, heq, fun t => ⟨clock, rfl⟩⟩
      exact (Table.actsOn_updateItem ..).map fun answer => (answer.mapError DbError.exc).map fun _ => ()
  | incrementAttempt id' step =>
      obtain rfl := Option.some.inj hsubject
      obtain ⟨clock, heq⟩ := h
      refine ⟨SagaStore.incrementAttempt py clock id' step, ?_, heq, fun t => ⟨clock, rfl⟩⟩
      exact (Table.actsOn_updateItem ..).map fun answer => (answer.mapError DbError.exc).bind fun item =>
        py.int ((item.get ["attempts", step]).getD .null)
  | newId idPrefix => cases hsubject

/-- The table, record by record. -/
def records (py : Python) : Footprint (exec py) Json (Option Json) where
  view := Table.item
  touches id op := ∀ id' ∈ op.subject, id' = id
  frame := by
    intro id other op table answer table' htouches hexec hne
    cases hsubject : op.subject with
    | none =>
        cases op <;> cases hsubject
        obtain ⟨rfl, _⟩ := hexec
        rfl
    | some id' =>
        obtain rfl := htouches id' hsubject
        obtain ⟨method, hacts, heq, _⟩ := exec_actsOn hsubject hexec
        obtain rfl : table' = _ := congrArg Prod.snd heq
        exact hacts.frame table hne
  transfer := by
    intro id op table answer table' t htouches hexec hview
    cases hsubject : op.subject with
    | none =>
        cases op <;> cases hsubject
        obtain ⟨rfl, hid⟩ := hexec
        exact ⟨t, ⟨rfl, hid⟩, hview⟩
    | some id' =>
        obtain rfl := htouches id' hsubject
        obtain ⟨method, hacts, heq, hexec'⟩ := exec_actsOn hsubject hexec
        obtain ⟨rfl, rfl⟩ := Prod.mk.inj heq
        obtain ⟨hanswer, hitem⟩ := hacts.congr hview
        exact ⟨(method t).2, hanswer ▸ hexec' t, hitem⟩

/-! ## Executions -/

theorem handler_touches {s : StateName} {t : Task StateName Function} {event : Json}
    (hstate : machine.states s = .task t) :
    (function py t.resource event).Meets ((records py).touches (idOf event)) Answers
      (fun _ => True) fun _ => True :=
  have hcourse : Course (idOf event) s [] (function py t.resource event) := handler_course hstate
  hcourse.meets fun _ _ hmay => hmay.1.subject

/-- The handlers keep to the record of the order that their execution is about. -/
def confined (py : Python) : Confinement (workflow py) (records py) :=
  .named machine_leavesAlone idOf idOf_of_get Answers answers_of_exec fun hstate hevent => by
    rw [(task_direct hstate).event, Option.some.injEq] at hevent
    subst hevent
    exact handler_touches hstate

/-! ## Systems -/

theorem confined_start (input : Json) : (confined py).about (idOf input) (machine.start input) := by
  rintro s data left hat
  obtain rfl : data = input := enter_running hat
  rfl

theorem item_ext (h : ∀ id, Table.item id table = Table.item id table') : table = table' :=
  funext fun k => h (.str k)

/-- Executions for different orders, with their late attempts and in any interleaving, come
    to exactly the sessions and records that each of them comes to alone. No other record
    changes. -/
theorem orders_independent {ι : Type} [DecidableEq ι] [Fintype ι] {input : ι → Json}
    (hdistinct : Function.Injective fun i => idOf (input i)) {table₀ table : Table}
    {session : ι → Session StateName Op Ans} :
    Together (workflow py) input table₀ ⟨table, session⟩ ↔
      (∀ k, (∀ i, idOf (input i) ≠ .str k) → table k = table₀ k) ∧
      ∀ i, ∃ t, Alone (workflow py) (input i) table₀ (session i) t ∧
        Table.item (idOf (input i)) t = Table.item (idOf (input i)) table := by
  have hrecords : Together (workflow py) input table₀ ⟨table, session⟩ ↔
      ∃ t, Together (workflow py) input table₀ ⟨t, session⟩ ∧ ∀ id, Table.item id t = Table.item id table :=
    ⟨fun h => ⟨table, h, fun _ => rfl⟩, fun ⟨_, hreach, hsame⟩ => item_ext hsame ▸ hreach⟩
  refine hrecords.trans ((Confinement.together_iff_alone (C := confined py)
    (x := fun id => Table.item id table) hdistinct fun i => confined_start (input i)).trans ?_)
  refine and_congr ⟨fun h k hk => h (.str k) hk, ?_⟩ Iff.rfl
  intro h id hid
  cases id with
  | str k => exact h k hid
  | _ => rfl

/-- An order of one item. -/
def orderInput (orderId : String) : Json := .obj [("order", .obj [("order_id", .str orderId),
  ("amount", .num (.int 149)), ("items", .arr [.str "SKU-1"])])]

def twoOrders (second : Bool) : Json := orderInput (if second then "ord-2" else "ord-1")

/-- The execution went through all steps. -/
def completed : Execution StateName → Bool
  | .succeeded .completeSaga _ => true
  | _ => false

/-- Two orders that are processed in turns are completed as if each were the only one. -/
theorem orders_independent_twoOrders : ∃ sys : System Bool StateName Op Ans Table,
    (∀ second, completed (sys.session second).execution = true) ∧
    ∀ second, ∃ t, Alone (workflow .sample) (twoOrders second) (fun _ => none) (sys.session second) t ∧
      Table.item (idOf (twoOrders second)) t = Table.item (idOf (twoOrders second)) sys.world := by
  have hdistinct : Function.Injective fun second => idOf (twoOrders second) := by decide +kernel
  have hrun : ((System.run (workflow .sample) (answer .sample) (fun _ _ _ _ => true)
      (.init (workflow .sample) twoOrders fun _ => none)
      ((List.range 21).flatMap fun _ => [.go false, .go true])).any fun sys =>
        decide (∀ second, completed (sys.session second).execution = true)) = true := by
    decide +kernel
  obtain ⟨sys, hreach, hcompleted⟩ := System.exists_of_run answer_exec (fun _ _ _ _ _ => trivial) hrun
  exact ⟨sys, of_decide_eq_true hcompleted, ((orders_independent hdistinct).mp hreach).2⟩

end OrderSaga
