-- SUMMARY: Operations that each concern one part of a world, and executions that keep to a part of their own.
import ServerlessPatterns.Library.Contract
import ServerlessPatterns.Library.Executions
import ServerlessPatterns.Library.Parties

/-!
# Footprints

A world has parts. An operation that touches one part changes no other, and what it does
there depends on that part alone. Executions that keep to different parts then do not
notice each other: they come together to whatever each of them comes to alone.
-/

open Asl Relation

/-- The parts of a world, as operations see them. -/
structure Footprint {Op W : Type} {Ans : Op → Type} (exec : (op : Op) → W → Ans op → W → Prop)
    (κ V : Type) where
  view : κ → W → V
  touches : κ → Op → Prop
  frame : ∀ {k j op w answer w'}, touches k op → exec op w answer w' → j ≠ k → view j w' = view j w
  transfer : ∀ {k op w answer w' v}, touches k op → exec op w answer w' → view k v = view k w →
    ∃ v', exec op v answer v' ∧ view k v' = view k w'

namespace Workflow

variable {σ ρ Op W κ V ι : Type} {Ans : Op → Type} {wf : Workflow σ ρ Op Ans W}

/-- Handlers that touch nothing but the part that their execution is about. -/
structure Confinement (wf : Workflow σ ρ Op Ans W) (F : Footprint wf.exec κ V) where
  expected : (op : Op) → Ans op → Prop
  answered : ∀ {op w answer w'}, wf.exec op w answer w' → expected op answer
  about : κ → Execution σ → Prop
  move : ∀ {k e e'}, about k e → wf.machine.Moves e e' → about k e'
  invoke : ∀ {k s t context data left event}, about k (.running s data left) →
    wf.machine.states s = .task t → t.event context data = some event →
    (wf.handler t.resource event).Meets (F.touches k) expected (fun _ => True) fun a =>
      ∀ report, Reported t (.returned a) report → about k (wf.machine.resume s t context data left report)
  fault : ∀ {k s t context data left outcome report}, about k (.running s data left) →
    wf.machine.states s = .task t → (∀ a, outcome ≠ .returned a) → Reported t outcome report →
    about k (wf.machine.resume s t context data left report)

namespace Confinement

variable {F : Footprint wf.exec κ V} (C : Confinement wf F)

/-- The program keeps to its part of the world. -/
def Keeps (k : κ) (p : Program Op Ans Exc Json) (post : Json → Prop) : Prop :=
  p.Meets (F.touches k) C.expected (fun _ => True) post

/-- The execution and all of its attempts keep to their part of the world. -/
structure Confined (k : κ) (s : Session σ Op Ans) : Prop where
  about : C.about k s.execution
  current : ∀ u, s.current = some u → ∃ state t data left, s.execution = .running state data left ∧
    wf.machine.states state = .task t ∧ C.Keeps k u.program fun a => ∀ report,
      Reported t (.returned a) report → C.about k (wf.machine.resume state t u.context data left report)
  late : ∀ u ∈ s.late, C.Keeps k u.program fun _ => True

variable {C} {k : κ} {s s' : Session σ Op Ans} {late : Bool} {op : Op} {answer : Ans op}

theorem Confined.turn (h : C.Confined k s) (hturn : s.Turn wf s') : C.Confined k s' := by
  cases hturn with
  | move hmove => exact ⟨C.move h.about hmove, nofun, h.late⟩
  | invoke hstate hevent =>
      refine ⟨h.about, fun u hu => ?_, h.late⟩
      cases hu
      exact ⟨_, _, _, _, rfl, hstate, C.invoke h.about hstate hevent⟩
  | @report state t data left u log late outcome report hstate hat hreport =>
      obtain ⟨state', t', data', left', he, hstate', hkeeps⟩ := h.current u rfl
      cases he
      cases hstate.symm.trans hstate'
      refine ⟨?_, nofun, List.forall_mem_cons.mpr ⟨?_, h.late⟩⟩
      · cases outcome with
        | returned a =>
            have hprogram : u.program = .ret a := hat
            rw [hprogram] at hkeeps
            exact hkeeps report hreport
        | raised e =>
            have hnot : ∀ a, (.raised e : Program.Outcome Exc Json) ≠ .returned a := nofun
            exact C.fault h.about hstate hnot hreport
        | lost =>
            have hnot : ∀ a, (.lost : Program.Outcome Exc Json) ≠ .returned a := nofun
            exact C.fault h.about hstate hnot hreport
      · exact Program.Meets.mono hkeeps (fun _ h => h) fun _ _ => trivial

/-- An operation touches the part that its execution is about. -/
theorem Confined.touches (h : C.Confined k s) (hperforms : s.Performs late op answer s') :
    F.touches k op := by
  cases hperforms with
  | current hprogram =>
      obtain ⟨_, _, _, _, _, _, hkeeps⟩ := h.current _ rfl
      rw [hprogram] at hkeeps
      exact hkeeps.1
  | late hlate hprogram =>
      have hkeeps := h.late _ (List.mem_of_getElem? hlate)
      rw [hprogram] at hkeeps
      exact hkeeps.1

theorem Confined.performs (h : C.Confined k s) (hperforms : s.Performs late op answer s')
    (hanswer : C.expected op answer) : C.Confined k s' := by
  cases hperforms with
  | @current e u log late op next answer hprogram =>
      obtain ⟨state, t, data, left, he, hstate, hkeeps⟩ := h.current u rfl
      refine ⟨h.about, fun u' hu' => ?_, h.late⟩
      cases hu'
      rw [hprogram] at hkeeps
      exact ⟨state, t, data, left, he, hstate, hkeeps.2 answer hanswer⟩
  | @late e current log late n u op next answer hlate hprogram =>
      refine ⟨h.about, h.current, fun u' hu' => ?_⟩
      cases List.mem_or_eq_of_mem_set hu' with
      | inl hold => exact h.late u' hold
      | inr heq =>
          have hkeeps := h.late u (List.mem_of_getElem? hlate)
          rw [hprogram] at hkeeps
          subst heq
          exact hkeeps.2 answer hanswer

end Confinement

/-! ## Data that name their part -/

theorem moves_get {path : Json.Path} (hm : LeavesAlone wf.machine path) {e : Execution σ} {s' : σ}
    {data' : Json} {left' : List Nat} (h : wf.machine.Moves e (.running s' data' left')) :
    ∃ s data left, e = .running s data left ∧ data'.get path = data.get path := by
  generalize hat : Execution.running s' data' left' = e' at h
  cases h with
  | pass hstate hput =>
      obtain rfl := enter_running hat.symm
      exact ⟨_, _, _, rfl, Json.get_put_apart hput (hm.pass _ _ _ _ hstate)⟩
  | passError => cases hat
  | route =>
      obtain rfl := enter_running hat.symm
      exact ⟨_, _, _, rfl, rfl⟩
  | routeError => cases hat
  | eventError => cases hat

theorem resume_get {path : Json.Path} (hm : LeavesAlone wf.machine path) {s s' : σ} {t : Task σ ρ}
    {context data data' : Json} {left left' : List Nat} {report : Except TaskError Json}
    (hstate : wf.machine.states s = .task t)
    (h : wf.machine.resume s t context data left report = .running s' data' left') :
    data'.get path = data.get path := by
  cases report with
  | ok result =>
      rcases wf.machine.complete_cases s t context data result with
        ⟨_, heq⟩ | ⟨data'', hout, ⟨_, heq⟩ | ⟨next, _, heq⟩⟩
      · cases heq.symm.trans h
      · cases heq.symm.trans h
      · obtain rfl := enter_running (heq.symm.trans h)
        exact output_get hout (hm.task s t hstate)
  | error err =>
      rcases wf.machine.fault_cases s t data left err with
        ⟨_, _, _, heq⟩ | ⟨c, hc, _, data'', hput, heq⟩ | ⟨_, heq⟩
      · cases heq.symm.trans h
        rfl
      · obtain rfl := enter_running (heq.symm.trans h)
        exact Json.get_put_apart hput (hm.catcher s t hstate c hc)
      · cases heq.symm.trans h

/-- The state data of an execution name its part where no state writes to. -/
def Confinement.named {F : Footprint wf.exec κ V} {path : Json.Path} (hm : LeavesAlone wf.machine path)
    (name : Json → κ) (hname : ∀ {data data'}, data'.get path = data.get path → name data' = name data)
    (expected : (op : Op) → Ans op → Prop)
    (answered : ∀ {op w answer w'}, wf.exec op w answer w' → expected op answer)
    (handles : ∀ {s t context data event}, wf.machine.states s = .task t →
      t.event context data = some event → (wf.handler t.resource event).Meets
        (F.touches (name data)) expected (fun _ => True) fun _ => True) : Confinement wf F where
  expected := expected
  answered := answered
  about k e := ∀ s data left, e = .running s data left → name data = k
  move habout hmove := by
    rintro s' data' left' rfl
    obtain ⟨s, data, left, rfl, hget⟩ := moves_get hm hmove
    exact (hname hget).trans (habout _ _ _ rfl)
  invoke habout hstate hevent := by
    obtain rfl := habout _ _ _ rfl
    refine (handles hstate hevent).mono (fun _ h => h) fun a _ report _ s' data' left' hat => ?_
    exact hname (resume_get hm hstate hat)
  fault habout hstate _ _ := by
    intro s' data' left' hat
    exact (hname (resume_get hm hstate hat)).trans (habout _ _ _ rfl)

/-! ## Executions together and alone -/

/-- A step of one execution in its world: any turn, or any operation of any attempt. -/
inductive Session.Step (wf : Workflow σ ρ Op Ans W) :
    Session σ Op Ans × W → Session σ Op Ans × W → Prop where
  | turn {s s' w} (hturn : Session.Turn wf s s') : Session.Step wf (s, w) (s', w)
  | operation {s late op answer s' w w'} (hperforms : Session.Performs s late op answer s')
      (hexec : wf.exec op w answer w') : Session.Step wf (s, w) (s', w')

/-- What an execution comes to when there is no other. -/
def Alone (wf : Workflow σ ρ Op Ans W) (input : Json) (world : W) (s : Session σ Op Ans) (w : W) : Prop :=
  ReflTransGen (Session.Step wf) (.start wf input, world) (s, w)

/-- What executions come to next to each other, in any order of their steps. -/
def Together [DecidableEq ι] (wf : Workflow σ ρ Op Ans W) (input : ι → Json) (world : W) :
    System ι σ Op Ans W → Prop :=
  ReflTransGen (System.Step wf fun _ _ _ _ => True) (.init wf input world)

theorem System.step_iff [DecidableEq ι] {sys sys' : System ι σ Op Ans W} :
    System.Step wf (fun _ _ _ _ => True) sys sys' ↔
      ∃ i s w, Session.Step wf (sys.session i, sys.world) (s, w) ∧ sys' = sys.changed i s w := by
  constructor
  · intro h
    cases h with
    | turn hturn => exact ⟨_, _, _, .turn hturn, rfl⟩
    | operation hperforms _ hexec => exact ⟨_, _, _, .operation hperforms hexec, rfl⟩
  · rintro ⟨i, s, w, hstep, rfl⟩
    cases hstep with
    | turn hturn => exact .turn hturn
    | operation hperforms hexec => exact .operation hperforms trivial hexec

namespace Confinement

variable {F : Footprint wf.exec κ V} {C : Confinement wf F} {k : κ} {s s' : Session σ Op Ans}
  {w w' v world : W} {data : Json} {input : ι → Json} {key : ι → κ}

/-- A step changes nothing outside of the part that the execution is about. -/
theorem Confined.step (h : C.Confined k s) (hstep : Session.Step wf (s, w) (s', w')) :
    C.Confined k s' ∧ ∀ j, j ≠ k → F.view j w' = F.view j w := by
  cases hstep with
  | turn hturn => exact ⟨h.turn hturn, fun _ _ => rfl⟩
  | operation hperforms hexec =>
      exact ⟨h.performs hperforms (C.answered hexec),
        fun j hj => F.frame (h.touches hperforms) hexec hj⟩

/-- The same step can be taken in any world where this part is the same. -/
theorem Confined.transfer (h : C.Confined k s) (hstep : Session.Step wf (s, w) (s', w'))
    (hview : F.view k v = F.view k w) :
    ∃ v', Session.Step wf (s, v) (s', v') ∧ F.view k v' = F.view k w' := by
  cases hstep with
  | turn hturn => exact ⟨v, .turn hturn, hview⟩
  | operation hperforms hexec =>
      obtain ⟨v', hexec', hview'⟩ := F.transfer (h.touches hperforms) hexec hview
      exact ⟨v', .operation hperforms hexec', hview'⟩

theorem confined_start (hstart : C.about k (wf.machine.start data)) :
    C.Confined k (Session.start wf data) := ⟨hstart, nofun, by simp [Session.start]⟩

/-- Each execution owns the part that it is about. -/
def parties (C : Confinement wf F) (key : ι → κ) :
    Parties ι W κ (fun _ => Session σ Op Ans) (fun _ => V) where
  view := F.view
  Owns i k := key i = k
  Step _ := Session.Step wf
  Keeps i := C.Confined (key i)
  kept h hstep := (h.step hstep).1
  frame h hstep hk := (h.step hstep).2 _ (Ne.symm hk)
  transfer h hstep hview := by
    obtain ⟨v', hstep', hview'⟩ := h.transfer hstep (hview _ rfl)
    exact ⟨v', hstep', by rintro _ rfl; exact hview'⟩

theorem apart_parties (hkey : Function.Injective key) : (C.parties key).Apart := by
  rintro i j _ rfl heq
  exact hkey heq.symm

/-- A system of executions is the executions and their world. -/
theorem together_iff_parties [DecidableEq ι] (C : Confinement wf F) (key : ι → κ)
    {s : ι → Session σ Op Ans} : Together wf input world ⟨w, s⟩ ↔
      ReflTransGen (C.parties key).Together (fun i => .start wf (input i), world) (s, w) := by
  constructor
  · refine fun h => ReflTransGen.lift (fun sys : System ι σ Op Ans W => (sys.session, sys.world)) ?_ _ _ h
    intro sys sys' hstep
    obtain ⟨i, s, w, hown, rfl⟩ := System.step_iff.mp hstep
    exact .step hown
  · refine fun h => ReflTransGen.lift (fun a : (ι → Session σ Op Ans) × W => System.mk a.2 a.1) ?_ _ _ h
    rintro _ _ ⟨hown⟩
    exact System.step_iff.mpr ⟨_, _, _, hown, rfl⟩

/-- Executions about different parts of the world come together to exactly what each of
    them comes to alone. -/
theorem together_iff_alone [DecidableEq ι] [Fintype ι] (hkey : Function.Injective key)
    (hstart : ∀ i, C.about (key i) (wf.machine.start (input i))) {s : ι → Session σ Op Ans}
    {x : κ → V} :
    (∃ w, Together wf input world ⟨w, s⟩ ∧ ∀ k, F.view k w = x k) ↔
      (∀ k, (∀ i, key i ≠ k) → x k = F.view k world) ∧
      ∀ i, ∃ v, Alone wf (input i) world (s i) v ∧ F.view (key i) v = x (key i) := by
  simp only [together_iff_parties C key]
  refine (Parties.together_iff_alone (P := C.parties key) (apart_parties hkey)
    fun i => confined_start (hstart i)).trans ?_
  refine and_congr Iff.rfl (forall_congr' fun i => exists_congr fun v => and_congr Iff.rfl ?_)
  exact ⟨fun h => h _ rfl, by rintro h _ rfl; exact h⟩

end Confinement

end Workflow
