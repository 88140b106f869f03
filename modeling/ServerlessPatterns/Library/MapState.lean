-- SUMMARY: State machines with Map states: tasks with output paths, iterations that run side by side, and what all of their interleavings keep.
import ServerlessPatterns.Library.Python
import ServerlessPatterns.Library.StatesLanguage
import ServerlessPatterns.Library.Transition

/-!
# Map states

A Map state runs the machine of its iterator once for each item of an array. The
iterations take their steps in any order, and the array of their outputs has the
order of the items. An iterator has no Map state of its own.
-/

namespace Asl

variable {σ σ' ρ : Type}

/-- Whether an `ErrorEquals` list names an error, with the wildcard for all that a task
    reports except a timeout. -/
def namesError (errorEquals : List String) (err : TaskError) : Bool :=
  catches errorEquals err ||
    (decide ("States.TaskFailed" ∈ errorEquals) && decide (err.error ≠ "States.Timeout"))

@[simp] theorem namesError_all {err : TaskError} : namesError ["States.ALL"] err = true := by
  simp [namesError]

/-- A path does not fit the state data. -/
def misfitError : TaskError := ⟨"States.Runtime", "a path does not fit the state data"⟩

/-- Where a state leads. -/
inductive Move (σ : Type) where
  | again (retriesLeft : List Nat)
  | goto (next : σ) (data : Json)
  | finish (data : Json)
  | fail (err : TaskError)

namespace Move

/-- Hand the output of the state on. -/
def onward (next : Option σ) : Option Json → Move σ
  | none => .fail misfitError
  | some data =>
    match next with
    | none => .finish data
    | some s => .goto s data

end Move

/-! ## Tasks and Pass states -/

structure OutputTask (σ ρ : Type) extends Task σ ρ where
  outputPath : Json.Path

namespace OutputTask

variable (t : OutputTask σ ρ)

/-- Hand an error to the first catcher that names it. No output path applies. -/
def caught (data : Json) (err : TaskError) : Move σ :=
  match t.catchers.find? fun c => namesError c.errorEquals err with
  | none => .fail err
  | some c => .onward (some c.next) (data.put c.resultPath err.output)

/-- An attempt failed: the first retrier that names the error decides whether
    there is another one. -/
def fault (data : Json) (retriesLeft : List Nat) (err : TaskError) : Move σ :=
  match t.retry.findIdx? fun r => namesError r.errorEquals err with
  | none => t.caught data err
  | some i =>
    if 0 < retriesLeft.getD i 0 then .again (retriesLeft.modify i (· - 1)) else t.caught data err

def resume (context data : Json) (retriesLeft : List Nat) : Except TaskError Json → Move σ
  | .ok result => .onward t.next ((t.output context data result).bind (Json.get t.outputPath))
  | .error err => t.fault data retriesLeft err

variable {t} {data : Json} {left : Nat} {err : TaskError}

theorem caught_none (hcatchers : t.catchers = []) : t.caught data err = .fail err := by
  unfold caught
  rw [hcatchers]
  rfl

/-- With a single retrier an error uses up a retry or goes to the catchers. -/
theorem fault_single {r : Retrier} (hretry : t.retry = [r]) :
    (0 < left ∧ t.fault data [left] err = .again [left - 1]) ∨
    t.fault data [left] err = t.caught data err := by
  unfold fault
  rw [hretry, List.findIdx?_cons]
  split
  · exact .inr rfl
  · next index hindex =>
      have hzero : index = 0 := by
        split at hindex
        · injection hindex with hindex
          exact hindex.symm
        · cases hindex
      subst hzero
      by_cases hleft : 0 < left
      · exact .inl ⟨hleft, if_pos hleft⟩
      · exact .inr (if_neg hleft)

/-- Without a catcher an error uses up a retry or ends the execution. -/
theorem fault_uncaught {r : Retrier} (hretry : t.retry = [r]) (hcatchers : t.catchers = []) :
    (0 < left ∧ t.fault data [left] err = .again [left - 1]) ∨ t.fault data [left] err = .fail err := by
  rw [← caught_none hcatchers]
  exact fault_single hretry

end OutputTask

/-- A state without an iterator. The input of a `Pass` state is its result. -/
inductive Leaf (σ ρ : Type) where
  | task (t : OutputTask σ ρ)
  | pass (parameters : Template) (next : Option σ)

/-- What may come of calling a function with an event. -/
abbrev Functions (ρ : Type) := ρ → (event : Json) → Except Exc Json → Prop

/-- What may be reported of an attempt: what its function comes to, or an error of the
    kind that attempts are lost with. -/
inductive Reports (functions : Functions ρ) (lost : TaskError → Prop) (t : Task σ ρ) (event : Json) :
    Except TaskError Json → Prop where
  | returned {a} (h : functions t.resource event (.ok a)) :
      Reports functions lost t event (.ok (t.wrap a))
  | raised {e} (h : functions t.resource event (.error e)) :
      Reports functions lost t event (.error ⟨e.errorType, e.message⟩)
  | lost {err} (h : lost err) : Reports functions lost t event (.error err)

/-- A function that raises nothing is reported with its result, or its attempt is lost. -/
theorem Reports.of_ok {functions : Functions ρ} {lost : TaskError → Prop} {t : Task σ ρ} {event : Json}
    {P : Json → Prop}
    (hfunction : ∀ outcome, functions t.resource event outcome → ∃ a, P a ∧ outcome = .ok a)
    {report : Except TaskError Json} (h : Reports functions lost t event report) :
    (∃ a, P a ∧ report = .ok (t.wrap a)) ∨ ∃ err, lost err ∧ report = .error err := by
  cases h with
  | returned h =>
      obtain ⟨a, ha, heq⟩ := hfunction _ h
      injection heq with heq
      exact .inl ⟨a, ha, by rw [heq]⟩
  | raised h =>
      obtain ⟨a, _, heq⟩ := hfunction _ h
      cases heq
  | lost h => exact .inr ⟨_, h, rfl⟩

namespace Leaf

variable {functions : Functions ρ} {lost : TaskError → Prop}

def freshRetries : Leaf σ ρ → List Nat
  | task t => t.freshRetries
  | pass _ _ => []

inductive Moves (functions : Functions ρ) (lost : TaskError → Prop) :
    Leaf σ ρ → Json → List Nat → Move σ → Prop where
  | attempt {t context data left event report} (hevent : t.event context data = some event)
      (hreport : Reports functions lost t.toTask event report) :
      Moves functions lost (.task t) data left (t.resume context data left report)
  | eventError {t context data left} (hevent : t.event context data = none) :
      Moves functions lost (.task t) data left (.fail misfitError)
  | pass {parameters next context data left} :
      Moves functions lost (.pass parameters next) data left
        (.onward next (parameters.eval context data))

/-- At a task whose event is known, the report of an attempt decides. -/
theorem Moves.task {t : OutputTask σ ρ} {data event : Json} {left : List Nat} {move : Move σ}
    (hevent : ∀ context, t.event context data = some event)
    (h : (task t).Moves functions lost data left move) :
    ∃ context report, Reports functions lost t.toTask event report ∧
      move = t.resume context data left report := by
  cases h with
  | @attempt _ context _ _ event' report hevent' hreport =>
      rw [hevent, Option.some.injEq] at hevent'
      subst hevent'
      exact ⟨context, report, hreport, rfl⟩
  | eventError hnone =>
      rw [hevent] at hnone
      cases hnone

/-- A task can always be attempted when its function comes to something. -/
theorem exists_moves {l : Leaf σ ρ} (hfunctions : ∀ r event, ∃ outcome, functions r event outcome)
    (data : Json) (left : List Nat) : ∃ move, l.Moves functions lost data left move := by
  cases l with
  | pass parameters next => exact ⟨.onward next (parameters.eval .null data), .pass⟩
  | task t =>
      cases hevent : t.event .null data with
      | none => exact ⟨_, .eventError hevent⟩
      | some event =>
          obtain ⟨outcome, houtcome⟩ := hfunctions t.resource event
          cases outcome with
          | ok a => exact ⟨_, .attempt hevent (.returned houtcome)⟩
          | error e => exact ⟨_, .attempt hevent (.raised houtcome)⟩

end Leaf

/-! ## Iterations -/

/-- The machine that a Map state runs for an item. -/
structure Iterator (σ ρ : Type) where
  startAt : σ
  leaves : σ → Leaf σ ρ

namespace Iterator

variable (it : Iterator σ ρ)

def enter (s : σ) (data : Json) : Execution σ := .running s data (it.leaves s).freshRetries

def start (item : Json) : Execution σ := it.enter it.startAt item

def follow (s : σ) (data : Json) : Move σ → Execution σ
  | .again left => .running s data left
  | .goto next data' => it.enter next data'
  | .finish data' => .succeeded s data'
  | .fail err => .failed s err

inductive Step (functions : Functions ρ) (lost : σ → TaskError → Prop) :
    Execution σ → Execution σ → Prop where
  | move {s data left move} (h : (it.leaves s).Moves functions (lost s) data left move) :
      Step functions lost (.running s data left) (it.follow s data move)

end Iterator

/-- An iteration waits until there is room for it. -/
inductive Iteration (σ : Type) where
  | waiting (item : Json)
  | started (e : Execution σ)

namespace Iteration

def isRunning : Iteration σ → Bool
  | started (.running _ _ _) => true
  | _ => false

def output : Iteration σ → Option Json
  | started (.succeeded _ data) => some data
  | _ => none

/-- The iteration stands for the item, and once it has started the property holds. -/
def Holds (P : Json → Execution σ → Prop) (item : Json) : Iteration σ → Prop
  | waiting item' => item' = item
  | started e => P item e

/-- The iteration starts or takes a step. -/
inductive Advance (it : Iterator σ ρ) (functions : Functions ρ) (lost : σ → TaskError → Prop) :
    Iteration σ → Iteration σ → Prop where
  | start {item} : Advance it functions lost (.waiting item) (.started (it.start item))
  | step {e e'} (h : it.Step functions lost e e') :
      Advance it functions lost (.started e) (.started e')

variable {it : Iterator σ ρ} {functions : Functions ρ} {lost : σ → TaskError → Prop}

theorem Advance.holds {P : Json → Execution σ → Prop} {item : Json} {a b : Iteration σ}
    (hstart : P item (it.start item))
    (hstep : ∀ e e', P item e → it.Step functions lost e e' → P item e')
    (h : Advance it functions lost a b) (ha : a.Holds P item) : b.Holds P item := by
  cases h with
  | start =>
      subst ha
      exact hstart
  | step h => exact hstep _ _ ha h

end Iteration

/-! ## Machines with Map states -/

structure MapState (σ σ' ρ : Type) where
  itemsPath : Json.Path
  /-- 0 for no limit. -/
  maxConcurrency : Nat
  resultPath : Json.Path
  iterator : Iterator σ' ρ
  next : Option σ

inductive Node (σ σ' ρ : Type) where
  | leaf (l : Leaf σ ρ)
  | map (m : MapState σ σ' ρ)

structure MapMachine (σ σ' ρ : Type) where
  startAt : σ
  nodes : σ → Node σ σ' ρ

/-- Where one execution of such a machine stands. -/
inductive MapExecution (σ σ' : Type) where
  | running (state : σ) (data : Json) (retriesLeft : List Nat)
  | mapping (state : σ) (data : Json) (iterations : List (Iteration σ'))
  | succeeded (state : σ) (data : Json)
  | failed (state : σ) (err : TaskError)

namespace MapMachine

variable (m : MapMachine σ σ' ρ)

def follow (s : σ) (data : Json) : Move σ → MapExecution σ σ'
  | .again left => .running s data left
  | .goto next data' =>
    match m.nodes next with
    | .leaf l => .running next data' l.freshRetries
    | .map ms =>
      match data'.get ms.itemsPath with
      | some (.arr items) => .mapping next data' (items.map .waiting)
      | _ => .failed next misfitError
  | .finish data' => .succeeded s data'
  | .fail err => .failed s err

def start (input : Json) : MapExecution σ σ' := m.follow m.startAt input (.goto m.startAt input)

/-- One more iteration may run beside these. -/
def Room (maxConcurrency : Nat) (iterations : List (Iteration σ')) : Prop :=
  maxConcurrency = 0 ∨ iterations.countP Iteration.isRunning < maxConcurrency

inductive Step (functions : Functions ρ) (lost : σ → TaskError → Prop)
    (lostInside : σ' → TaskError → Prop) : MapExecution σ σ' → MapExecution σ σ' → Prop where
  | leaf {s l data left move} (hnode : m.nodes s = .leaf l)
      (h : l.Moves functions (lost s) data left move) :
      Step functions lost lostInside (.running s data left) (m.follow s data move)
  | begin {s ms data front item back} (hnode : m.nodes s = .map ms)
      (hroom : Room ms.maxConcurrency (front ++ back)) :
      Step functions lost lostInside (.mapping s data (front ++ .waiting item :: back))
        (.mapping s data (front ++ .started (ms.iterator.start item) :: back))
  | iterate {s ms data front e e' back} (hnode : m.nodes s = .map ms)
      (h : ms.iterator.Step functions lostInside e e') :
      Step functions lost lostInside (.mapping s data (front ++ .started e :: back))
        (.mapping s data (front ++ .started e' :: back))
  | abort {s s' data iterations err} (h : .started (.failed s' err) ∈ iterations) :
      Step functions lost lostInside (.mapping s data iterations) (.failed s err)
  | join {s ms data iterations outputs} (hnode : m.nodes s = .map ms)
      (houtputs : iterations.map Iteration.output = outputs.map some) :
      Step functions lost lostInside (.mapping s data iterations)
        (m.follow s data (.onward ms.next (data.put ms.resultPath (.arr outputs))))

variable {m : MapMachine σ σ' ρ} {functions : Functions ρ} {lost : σ → TaskError → Prop}
  {lostInside : σ' → TaskError → Prop} {s : σ} {data : Json} {iterations : List (Iteration σ')}
  {c : MapExecution σ σ'}

theorem Step.leaf_cases {l : Leaf σ ρ} {left : List Nat} (hnode : m.nodes s = .leaf l)
    (h : m.Step functions lost lostInside (.running s data left) c) :
    ∃ move, l.Moves functions (lost s) data left move ∧ c = m.follow s data move := by
  cases h with
  | leaf hleaf hmoves =>
      cases hnode.symm.trans hleaf
      exact ⟨_, hmoves, rfl⟩

/-- At a Map state an iteration advances, or one has failed, or all have their outputs. -/
theorem Step.map_cases {ms : MapState σ σ' ρ} (hnode : m.nodes s = .map ms)
    (h : m.Step functions lost lostInside (.mapping s data iterations) c) :
    (∃ front a b back, iterations = front ++ a :: back ∧ c = .mapping s data (front ++ b :: back) ∧
      Iteration.Advance ms.iterator functions lostInside a b) ∨
    (∃ s' err, .started (.failed s' err) ∈ iterations ∧ c = .failed s err) ∨
    ∃ outputs : List Json, iterations.map Iteration.output = outputs.map some ∧
      c = m.follow s data (.onward ms.next (data.put ms.resultPath (.arr outputs))) := by
  cases h with
  | begin hmap _ =>
      cases hnode.symm.trans hmap
      exact .inl ⟨_, _, _, _, rfl, rfl, .start⟩
  | iterate hmap h =>
      cases hnode.symm.trans hmap
      exact .inl ⟨_, _, _, _, rfl, rfl, .step h⟩
  | abort hmem => exact .inr (.inl ⟨_, _, hmem, rfl⟩)
  | join hmap houtputs =>
      cases hnode.symm.trans hmap
      exact .inr (.inr ⟨_, houtputs, rfl⟩)

end MapMachine

/-! ## What the iterations keep -/

namespace Iteration

variable {it : Iterator σ ρ} {functions : Functions ρ} {lost : σ → TaskError → Prop}
  {items : List Json} {front back : List (Iteration σ)} {a b : Iteration σ}

/-- Whatever each iteration keeps for itself, all of them keep in any order of steps. -/
theorem forall₂_advance {P : Json → Execution σ → Prop}
    (hstart : ∀ item ∈ items, P item (it.start item))
    (hstep : ∀ item ∈ items, ∀ e e', P item e → it.Step functions lost e e' → P item e')
    (hadvance : Advance it functions lost a b)
    (h : List.Forall₂ (Holds P) items (front ++ a :: back)) :
    List.Forall₂ (Holds P) items (front ++ b :: back) := by
  induction front generalizing items with
  | nil =>
      cases h with
      | cons ha hback =>
          refine .cons ?_ hback
          exact hadvance.holds (hstart _ List.mem_cons_self) (hstep _ List.mem_cons_self) ha
  | cons first front ih =>
      cases h with
      | cons hfirst hrest =>
          refine .cons hfirst (ih ?_ ?_ hrest)
          · exact fun item hmem => hstart item (List.mem_cons_of_mem _ hmem)
          · exact fun item hmem => hstep item (List.mem_cons_of_mem _ hmem)

theorem forall₂_waiting {P : Json → Execution σ → Prop} (items : List Json) :
    List.Forall₂ (Holds P) items (items.map waiting) := by
  induction items with
  | nil => exact .nil
  | cons item items ih => exact .cons rfl ih

theorem sum_advance_lt (front back : List (Iteration σ)) {weight : Iteration σ → Nat}
    (h : weight b < weight a) :
    ((front ++ b :: back).map weight).sum < ((front ++ a :: back).map weight).sum := by
  simp only [List.map_append, List.map_cons, List.sum_append, List.sum_cons]
  omega

/-- The iteration has come to its end. -/
def Ended : Iteration σ → Prop
  | started (.succeeded _ _) | started (.failed _ _) => True
  | _ => False

/-- Some iteration still runs, or none does and one waits, or all have ended. -/
theorem split_cases (iterations : List (Iteration σ)) :
    (∃ front s data left back, iterations = front ++ .started (.running s data left) :: back) ∨
    (iterations.countP isRunning = 0 ∧ ∃ front item back, iterations = front ++ .waiting item :: back) ∨
    ∀ i ∈ iterations, Ended i := by
  induction iterations with
  | nil => exact .inr (.inr nofun)
  | cons first rest ih =>
      rcases ih with ⟨front, s, data, left, back, rfl⟩ | ⟨hcount, front, item, back, rfl⟩ | hended
      · exact .inl ⟨first :: front, s, data, left, back, rfl⟩
      · cases first with
        | waiting item' => exact .inr (.inl ⟨by simpa [isRunning] using hcount, [], item', _, rfl⟩)
        | started e =>
            cases e with
            | running s data left => exact .inl ⟨[], s, data, left, _, rfl⟩
            | _ => exact .inr (.inl ⟨by simpa [isRunning] using hcount, _ :: front, item, back, rfl⟩)
      · cases first with
        | waiting item' =>
            refine .inr (.inl ⟨?_, [], item', rest, rfl⟩)
            rw [List.countP_eq_zero]
            intro i hmem
            rcases List.mem_cons.mp hmem with rfl | hmem
            · simp [isRunning]
            · have hend := hended i hmem
              match i, hend with
              | .started (.succeeded _ _), _ | .started (.failed _ _), _ => simp [isRunning]
        | started e =>
            cases e with
            | running s data left => exact .inl ⟨[], s, data, left, rest, rfl⟩
            | _ => exact .inr (.inr (List.forall_mem_cons.mpr ⟨trivial, hended⟩))

/-- Iterations that have all ended have their outputs, unless one has failed. -/
theorem exists_outputs {iterations : List (Iteration σ)} (h : ∀ i ∈ iterations, Ended i) :
    (∃ s err, .started (.failed s err) ∈ iterations) ∨
    ∃ outputs : List Json, iterations.map output = outputs.map some := by
  induction iterations with
  | nil => exact .inr ⟨[], rfl⟩
  | cons first rest ih =>
      rcases ih fun i hmem => h i (List.mem_cons_of_mem _ hmem) with ⟨s, err, hmem⟩ | ⟨outputs, hrest⟩
      · exact .inl ⟨s, err, List.mem_cons_of_mem _ hmem⟩
      · match first, h first List.mem_cons_self with
        | .started (.succeeded s data), _ =>
            refine .inr ⟨data :: outputs, ?_⟩
            rw [List.map_cons, List.map_cons, hrest, output]
        | .started (.failed s err), _ => exact .inl ⟨s, err, List.mem_cons_self⟩

end Iteration

namespace MapMachine

open Relation

variable {m : MapMachine σ σ' ρ} {functions : Functions ρ} {lost : σ → TaskError → Prop}
  {lostInside : σ' → TaskError → Prop} {s : σ} {ms : MapState σ σ' ρ} {data : Json}

/-- A Map state never gets stuck. -/
theorem exists_step_mapping (hnode : m.nodes s = .map ms)
    (hfunctions : ∀ r event, ∃ outcome, functions r event outcome) (iterations : List (Iteration σ')) :
    ∃ c, m.Step functions lost lostInside (.mapping s data iterations) c := by
  rcases Iteration.split_cases iterations with
    ⟨front, s', data', left, back, rfl⟩ | ⟨hcount, front, item, back, rfl⟩ | hended
  · obtain ⟨move, hmove⟩ : ∃ move,
        (ms.iterator.leaves s').Moves functions (lostInside s') data' left move :=
      Leaf.exists_moves hfunctions data' left
    exact ⟨_, .iterate hnode (.move hmove)⟩
  · refine ⟨_, .begin hnode ?_⟩
    have hroom : (front ++ back).countP Iteration.isRunning = 0 := by
      simpa [List.countP_append, Iteration.isRunning] using hcount
    rw [Room, hroom]
    omega
  · rcases Iteration.exists_outputs hended with ⟨s', err, hmem⟩ | ⟨outputs, houtputs⟩
    · exact ⟨_, .abort hmem⟩
    · exact ⟨_, .join hnode houtputs⟩

theorem iterate_reaches (hnode : m.nodes s = .map ms) {front back : List (Iteration σ')}
    {e e' : Execution σ'} (h : ReflTransGen (ms.iterator.Step functions lostInside) e e') :
    ReflTransGen (m.Step functions lost lostInside) (.mapping s data (front ++ .started e :: back))
      (.mapping s data (front ++ .started e' :: back)) := by
  induction h with
  | refl => exact .refl
  | tail _ hstep ih => exact ih.tail (.iterate hnode hstep)

/-- Iterations may run one after the other, each to any end that it can reach. -/
theorem mapping_reaches (hnode : m.nodes s = .map ms) {items : List Json} {ends : List (Execution σ')}
    (h : List.Forall₂ (fun item e => Iteration.Ended (.started e) ∧
      ReflTransGen (ms.iterator.Step functions lostInside) (ms.iterator.start item) e) items ends) :
    ReflTransGen (m.Step functions lost lostInside) (.mapping s data (items.map .waiting))
      (.mapping s data (ends.map .started)) := by
  -- Those before the one that runs have ended, so that there is room for it.
  suffices hreaches : ∀ front : List (Execution σ'),
      (∀ e ∈ front, Iteration.isRunning (.started e) = false) →
      ReflTransGen (m.Step functions lost lostInside)
        (.mapping s data (front.map .started ++ items.map .waiting))
        (.mapping s data (front.map .started ++ ends.map .started)) from hreaches [] nofun
  induction h with
  | nil => exact fun front _ => .refl
  | @cons item e items ends hitem _ ih =>
      intro front hfront
      have hroom : Room ms.maxConcurrency (front.map .started ++ items.map .waiting) := by
        have hcount : (front.map Iteration.started ++ items.map Iteration.waiting).countP
            Iteration.isRunning = 0 := by
          rw [List.countP_eq_zero]
          intro i hmem
          rcases List.mem_append.mp hmem with hmem | hmem
          · obtain ⟨e', he', rfl⟩ := List.mem_map.mp hmem
            simp [hfront e' he']
          · obtain ⟨item', _, rfl⟩ := List.mem_map.mp hmem
            simp [Iteration.isRunning]
        rw [Room, hcount]
        omega
      have hdone : Iteration.isRunning (.started e) = false := by
        cases e with
        | running => exact hitem.1.elim
        | _ => rfl
      have hrest := ih (front ++ [e]) fun e' hmem => by
        rcases List.mem_append.mp hmem with hmem | hmem
        · exact hfront e' hmem
        · rw [List.mem_singleton.mp hmem, hdone]
      simp only [List.map_append, List.map_cons, List.map_nil, List.append_assoc,
        List.singleton_append] at hrest
      exact ((iterate_reaches hnode hitem.2).head (.begin hnode hroom)).trans hrest

end MapMachine

end Asl
