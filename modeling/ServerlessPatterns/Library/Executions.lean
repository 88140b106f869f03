-- SUMMARY: Any number of executions of one state machine in a shared world, operation by operation, with attempts that run on after they were given up.
import Mathlib.Logic.Function.Basic
import ServerlessPatterns.Library.Workflow

/-!
# Concurrent executions

`Workflow.Step` takes an attempt in one piece. Here an attempt performs one operation
at a time, so that other executions come in between, and so do attempts that nobody
waits for any more: an attempt that was given up keeps what is left of its program,
and may go on with it at any time, or never.
-/

open Asl

namespace Asl.Machine

variable {σ ρ : Type}

/-- What an execution does without an attempt at a task. -/
inductive Moves (m : Machine σ ρ) : Execution σ → Execution σ → Prop where
  | pass {s result path next data left data'} (hstate : m.states s = .pass result path next)
      (hput : data.put path result = some data') :
      Moves m (.running s data left) (m.enter next data')
  | passError {s result path next data left} (hstate : m.states s = .pass result path next)
      (hput : data.put path result = none) :
      Moves m (.running s data left) (.runtimeError s)
  | route {s s' data left} (hroute : (m.states s).route data = some (some s')) :
      Moves m (.running s data left) (m.enter s' data)
  | routeError {s data left} (hroute : (m.states s).route data = some none) :
      Moves m (.running s data left) (.runtimeError s)
  | eventError {s t context data left} (hstate : m.states s = .task t)
      (hevent : t.event context data = none) :
      Moves m (.running s data left) (.runtimeError s)

end Asl.Machine

namespace Workflow

/-- An attempt that was begun: what it was invoked with, what it has performed, and
    what is left of its program. -/
structure Underway (Op : Type) (Ans : Op → Type) where
  context : Json
  event : Json
  calls : List (Program.Event Op Ans)
  program : Program Op Ans Exc Json

/-- One execution: the attempt it waits for, the attempts that were reported on, and
    those that nobody waits for any more. -/
structure Session (σ Op : Type) (Ans : Op → Type) where
  execution : Execution σ
  current : Option (Underway Op Ans)
  log : List (Invocation σ Op Ans)
  late : List (Underway Op Ans)

variable {σ ρ Op W ι : Type} {Ans : Op → Type}

namespace Underway

/-- The operation that is performed next. -/
def next (u : Underway Op Ans) : Option Op :=
  match u.program with
  | .call op _ => some op
  | _ => none

def Asks (u : Underway Op Ans) (op : Op) : Prop := u.next = some op

theorem asks_iff {u : Underway Op Ans} {op : Op} : u.Asks op ↔ ∃ k, u.program = .call op k := by
  unfold Asks next
  cases u.program with
  | call op' k =>
      constructor
      · intro h
        cases h
        exact ⟨k, rfl⟩
      · rintro ⟨k', heq⟩
        cases heq
        rfl
  | _ => simp

def answered (u : Underway Op Ans) (op : Op) (answer : Ans op) (rest : Program Op Ans Exc Json) :
    Underway Op Ans :=
  { u with calls := u.calls ++ [⟨op, answer⟩], program := rest }

end Underway

namespace Session

def start (wf : Workflow σ ρ Op Ans W) (input : Json) : Session σ Op Ans :=
  ⟨wf.machine.start input, none, [], []⟩

/-- An operation that is next in some attempt. -/
def Asks (s : Session σ Op Ans) (op : Op) : Prop :=
  (∃ u, s.current = some u ∧ u.Asks op) ∨ ∃ u ∈ s.late, u.Asks op

/-- What happens to an execution besides operations. A report may come in whether the
    attempt is finished or not, as far as `Reported` lets it. -/
inductive Turn (wf : Workflow σ ρ Op Ans W) : Session σ Op Ans → Session σ Op Ans → Prop where
  | move {e e' log late} (h : wf.machine.Moves e e') : Turn wf ⟨e, none, log, late⟩ ⟨e', none, log, late⟩
  | invoke {s t context data left log late event} (hstate : wf.machine.states s = .task t)
      (hevent : t.event context data = some event) :
      Turn wf ⟨.running s data left, none, log, late⟩
        ⟨.running s data left, some ⟨context, event, [], wf.handler t.resource event⟩, log, late⟩
  | report {s t data left u log late outcome report} (hstate : wf.machine.states s = .task t)
      (hat : outcome.At u.program) (hreport : Reported t outcome report) :
      Turn wf ⟨.running s data left, some u, log, late⟩
        ⟨wf.machine.resume s t u.context data left report, none,
          log ++ [⟨s, u.event, u.calls, outcome⟩], u :: late⟩

/-- `Performs s late op answer s'`: an attempt, the current one or a late one, performs
    its next operation. -/
inductive Performs : Session σ Op Ans → Bool → (op : Op) → Ans op → Session σ Op Ans → Prop where
  | current {e u log late op k answer} (hprogram : u.program = .call op k) :
      Performs ⟨e, some u, log, late⟩ false op answer ⟨e, some (u.answered op answer (k answer)), log, late⟩
  | late {e current log late n u op k answer} (hlate : late[n]? = some u)
      (hprogram : u.program = .call op k) :
      Performs ⟨e, current, log, late⟩ true op answer
        ⟨e, current, log, late.set n (u.answered op answer (k answer))⟩

end Session

/-- Executions that share a world. -/
structure System (ι σ Op : Type) (Ans : Op → Type) (W : Type) where
  world : W
  session : ι → Session σ Op Ans

namespace System

/-- All executions at their beginning; an execution that starts later has not moved yet. -/
def init (wf : Workflow σ ρ Op Ans W) (input : ι → Json) (world : W) : System ι σ Op Ans W where
  world := world
  session i := .start wf (input i)

variable [DecidableEq ι]

def changed (sys : System ι σ Op Ans W) (i : ι) (s : Session σ Op Ans) (world : W) :
    System ι σ Op Ans W where
  world := world
  session := Function.update sys.session i s

@[simp] theorem changed_world {sys : System ι σ Op Ans W} {i : ι} {s : Session σ Op Ans} {world : W} :
    (sys.changed i s world).world = world := rfl

@[simp] theorem changed_self {sys : System ι σ Op Ans W} {i : ι} {s : Session σ Op Ans} {world : W} :
    (sys.changed i s world).session i = s := by
  simp [changed]

@[simp] theorem changed_ne {sys : System ι σ Op Ans W} {i j : ι} {s : Session σ Op Ans} {world : W}
    (h : j ≠ i) : (sys.changed i s world).session j = sys.session j := by
  simp [changed, h]

/-- One step of one execution. Which operations are considered, of late attempts or of
    current ones, is up to `permits`. -/
inductive Step (wf : Workflow σ ρ Op Ans W) (permits : Session σ Op Ans → Bool → Op → W → Prop) :
    System ι σ Op Ans W → System ι σ Op Ans W → Prop where
  | turn {sys i s} (h : (sys.session i).Turn wf s) : Step wf permits sys (sys.changed i s sys.world)
  | operation {sys i late op answer s world} (hperforms : (sys.session i).Performs late op answer s)
      (hpermits : permits (sys.session i) late op sys.world)
      (hexec : wf.exec op sys.world answer world) : Step wf permits sys (sys.changed i s world)

variable {wf : Workflow σ ρ Op Ans W} {permits : Session σ Op Ans → Bool → Op → W → Prop}

/-- What every execution satisfies at its beginning, what its own steps keep, and what
    the operations of the others keep, holds of all of them. -/
theorem invariant {P : Session σ Op Ans → W → Prop} {input : ι → Json} {world : W}
    {sys : System ι σ Op Ans W}
    (h : Relation.ReflTransGen (Step wf permits) (init wf input world) sys)
    (hstart : ∀ i, P (.start wf (input i)) world)
    (hturn : ∀ s s' w, P s w → s.Turn wf s' → P s' w)
    (hown : ∀ s late op answer s' w w', P s w → s.Performs late op answer s' →
      permits s late op w → wf.exec op w answer w' → P s' w')
    (hother : ∀ other s late op answer s' w w', P other w → P s w → s.Performs late op answer s' →
      permits s late op w → wf.exec op w answer w' → P other w') :
    ∀ i, P (sys.session i) sys.world := by
  refine Transition.invariant (P := fun sys => ∀ i, P (sys.session i) sys.world) h hstart ?_
  intro sys sys' hall hstep j
  cases hstep with
  | @turn i s hstep =>
      by_cases hj : j = i
      · subst hj
        rw [changed_self]
        exact hturn _ _ _ (hall j) hstep
      · rw [changed_ne hj]
        exact hall j
  | @operation i late op answer s world hperforms hpermits hexec =>
      by_cases hj : j = i
      · subst hj
        rw [changed_self]
        exact hown _ _ _ _ _ _ _ (hall j) hperforms hpermits hexec
      · rw [changed_ne hj]
        exact hother _ _ _ _ _ _ _ _ (hall j) (hall i) hperforms hpermits hexec

/-- A step to take: go on with an execution, give up the attempt that it waits for with
    an error, or go on with one of its late attempts. -/
inductive Choice (ι : Type) where
  | go (i : ι)
  | giveUp (i : ι) (err : TaskError)
  | late (i : ι) (n : Nat)

/-- Go on with one execution for some steps. -/
def goOn (i : ι) (n : Nat) : List (Choice ι) := List.replicate n (.go i)

/-- Go on with an execution that waits for no attempt. Contexts are of no use. -/
def proceed (wf : Workflow σ ρ Op Ans W) (s : Session σ Op Ans) : Option (Session σ Op Ans) :=
  match s.execution with
  | .running state data _ =>
    match wf.machine.states state with
    | .pass result path next =>
      (data.put path result).map fun data' => { s with execution := wf.machine.enter next data' }
    | .task t =>
      (t.event .null data).map fun event =>
        { s with current := some ⟨.null, event, [], wf.handler t.resource event⟩ }
    | _ =>
      match (wf.machine.states state).route data with
      | some (some next) => some { s with execution := wf.machine.enter next data }
      | _ => none
  | _ => none

/-- End the attempt that the execution waits for. -/
def conclude (wf : Workflow σ ρ Op Ans W) (s : Session σ Op Ans) (u : Underway Op Ans)
    (outcome : Program.Outcome Exc Json) (err : TaskError) : Option (Session σ Op Ans) :=
  match s.execution with
  | .running state data left =>
    match wf.machine.states state with
    | .task t =>
      some ⟨wf.machine.resume state t u.context data left ((Fate.mk .null none err (.error err)).report t outcome),
        none, s.log ++ [⟨state, u.event, u.calls, outcome⟩], u :: s.late⟩
    | _ => none
  | _ => none

/-- Take a step, if it is one that `permitted` lets pass. -/
def perform (wf : Workflow σ ρ Op Ans W) (answer : (op : Op) → W → Ans op × W)
    (permitted : Session σ Op Ans → Bool → Op → W → Bool) (sys : System ι σ Op Ans W) :
    Choice ι → Option (System ι σ Op Ans W)
  | .go i =>
    let s := sys.session i
    match s.current with
    | none => (proceed wf s).map fun s' => sys.changed i s' sys.world
    | some u =>
      match u.program with
      | .ret a => (conclude wf s u (.returned a) ⟨"", ""⟩).map fun s' => sys.changed i s' sys.world
      | .raise e => (conclude wf s u (.raised e) ⟨"", ""⟩).map fun s' => sys.changed i s' sys.world
      | .call op k =>
        if permitted s false op sys.world then
          let (reply, world) := answer op sys.world
          some (sys.changed i { s with current := some (u.answered op reply (k reply)) } world)
        else none
  | .giveUp i err =>
    let s := sys.session i
    s.current.bind fun u => (conclude wf s u .lost err).map fun s' => sys.changed i s' sys.world
  | .late i n =>
    let s := sys.session i
    match s.late[n]? with
    | none => none
    | some u =>
      match u.program with
      | .call op k =>
        if permitted s true op sys.world then
          let (reply, world) := answer op sys.world
          some (sys.changed i { s with late := s.late.set n (u.answered op reply (k reply)) } world)
        else none
      | _ => none

theorem proceed_turn {s s' : Session σ Op Ans} (hcurrent : s.current = none)
    (h : proceed wf s = some s') : s.Turn wf s' := by
  obtain ⟨execution, current, log, late⟩ := s
  obtain rfl : current = none := hcurrent
  cases execution with
  | running state data left =>
      have hroutes : ∀ {next}, (wf.machine.states state).route data = some (some next) →
          s' = ⟨wf.machine.enter next data, none, log, late⟩ →
          Session.Turn wf ⟨.running state data left, none, log, late⟩ s' := by
        rintro next hroute rfl
        exact .move (.route hroute)
      cases hstate : wf.machine.states state with
      | pass result path next =>
          simp only [proceed, hstate, Option.map_eq_some_iff] at h
          obtain ⟨data', hput, rfl⟩ := h
          exact .move (.pass hstate hput)
      | task t =>
          simp only [proceed, hstate, Option.map_eq_some_iff] at h
          obtain ⟨event, hevent, rfl⟩ := h
          exact .invoke hstate hevent
      | _ =>
          rw [hstate] at hroutes
          simp only [proceed, hstate] at h
          split at h
          · rename_i hroute
            exact hroutes hroute (Option.some.inj h).symm
          · cases h
  | _ => simp [proceed] at h

theorem conclude_turn {s s' : Session σ Op Ans} {u : Underway Op Ans}
    {outcome : Program.Outcome Exc Json} {err : TaskError} (hcurrent : s.current = some u)
    (hat : outcome.At u.program) (h : conclude wf s u outcome err = some s') : s.Turn wf s' := by
  obtain ⟨execution, current, log, late⟩ := s
  obtain rfl : current = some u := hcurrent
  cases execution with
  | running state data left =>
      cases hstate : wf.machine.states state with
      | task t =>
          simp only [conclude, hstate, Option.some.injEq] at h
          subst h
          exact .report hstate hat Fate.report_reported
      | _ => simp [conclude, hstate] at h
  | _ => simp [conclude] at h

theorem perform_step {answer : (op : Op) → W → Ans op × W}
    {permitted : Session σ Op Ans → Bool → Op → W → Bool}
    (hanswer : ∀ op w, wf.exec op w (answer op w).1 (answer op w).2)
    (hpermitted : ∀ s late op w, permitted s late op w = true → permits s late op w)
    {sys sys' : System ι σ Op Ans W} {choice : Choice ι}
    (h : perform wf answer permitted sys choice = some sys') : Step wf permits sys sys' := by
  cases choice with
  | go i =>
      cases hcurrent : (sys.session i).current with
      | none =>
          simp only [perform, hcurrent, Option.map_eq_some_iff] at h
          obtain ⟨s', hproceed, rfl⟩ := h
          exact .turn (proceed_turn hcurrent hproceed)
      | some u =>
          cases hprogram : u.program with
          | ret a =>
              have hat : (Program.Outcome.returned a : Program.Outcome Exc Json).At u.program := hprogram
              simp only [perform, hcurrent, hprogram, Option.map_eq_some_iff] at h
              obtain ⟨s', hconclude, rfl⟩ := h
              exact .turn (conclude_turn hcurrent hat hconclude)
          | raise e =>
              have hat : (Program.Outcome.raised e : Program.Outcome Exc Json).At u.program := hprogram
              simp only [perform, hcurrent, hprogram, Option.map_eq_some_iff] at h
              obtain ⟨s', hconclude, rfl⟩ := h
              exact .turn (conclude_turn hcurrent hat hconclude)
          | call op k =>
              simp only [perform, hcurrent, hprogram] at h
              split at h
              · rename_i hguard
                cases Option.some.inj h
                refine .operation ?_ (hpermitted _ _ _ _ hguard) (hanswer op sys.world)
                generalize sys.session i = s at hcurrent
                obtain ⟨execution, current, log, late⟩ := s
                obtain rfl : current = some u := hcurrent
                exact .current hprogram
              · cases h
  | giveUp i err =>
      simp only [perform, Option.bind_eq_some_iff, Option.map_eq_some_iff] at h
      obtain ⟨u, hcurrent, s', hconclude, rfl⟩ := h
      have hat : (Program.Outcome.lost : Program.Outcome Exc Json).At u.program := trivial
      exact .turn (conclude_turn hcurrent hat hconclude)
  | late i n =>
      cases hlate : (sys.session i).late[n]? with
      | none => simp [perform, hlate] at h
      | some u =>
          cases hprogram : u.program with
          | call op k =>
              simp only [perform, hlate, hprogram] at h
              split at h
              · rename_i hguard
                cases Option.some.inj h
                refine .operation ?_ (hpermitted _ _ _ _ hguard) (hanswer op sys.world)
                generalize sys.session i = s at hlate
                obtain ⟨execution, current, log, late⟩ := s
                exact .late hlate hprogram
              · cases h
          | _ => simp [perform, hlate, hprogram] at h

/-- Take steps one after the other. -/
def run (wf : Workflow σ ρ Op Ans W) (answer : (op : Op) → W → Ans op × W)
    (permitted : Session σ Op Ans → Bool → Op → W → Bool) (sys : System ι σ Op Ans W) :
    List (Choice ι) → Option (System ι σ Op Ans W)
  | [] => some sys
  | choice :: rest => (perform wf answer permitted sys choice).bind fun sys' => run wf answer permitted sys' rest

theorem run_reachable {answer : (op : Op) → W → Ans op × W}
    {permitted : Session σ Op Ans → Bool → Op → W → Bool}
    (hanswer : ∀ op w, wf.exec op w (answer op w).1 (answer op w).2)
    (hpermitted : ∀ s late op w, permitted s late op w = true → permits s late op w)
    {choices : List (Choice ι)} {sys sys' : System ι σ Op Ans W}
    (h : run wf answer permitted sys choices = some sys') :
    Relation.ReflTransGen (Step wf permits) sys sys' := by
  induction choices generalizing sys with
  | nil =>
      cases Option.some.inj h
      exact .refl
  | cons choice rest ih =>
      obtain ⟨sys₁, hperform, hrest⟩ := Option.bind_eq_some_iff.mp h
      exact .head (perform_step hanswer hpermitted hperform) (ih hrest)

/-- A run shows that a system can be reached. -/
theorem exists_of_run {answer : (op : Op) → W → Ans op × W}
    {permitted : Session σ Op Ans → Bool → Op → W → Bool}
    (hanswer : ∀ op w, wf.exec op w (answer op w).1 (answer op w).2)
    (hpermitted : ∀ s late op w, permitted s late op w = true → permits s late op w)
    {choices : List (Choice ι)} {sys : System ι σ Op Ans W} {p : System ι σ Op Ans W → Bool}
    (h : (run wf answer permitted sys choices).any p = true) :
    ∃ sys', Relation.ReflTransGen (Step wf permits) sys sys' ∧ p sys' = true := by
  obtain ⟨sys', hrun, hp⟩ := (Option.any_eq_true _ _).mp h
  exact ⟨sys', run_reachable hanswer hpermitted hrun, hp⟩

end System

end Workflow
