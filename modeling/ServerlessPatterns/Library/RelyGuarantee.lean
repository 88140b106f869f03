-- SUMMARY: Rely and guarantee: contracts for programs whose operations alternate with those of others, and assertions about executions that no other execution can break.
import ServerlessPatterns.Library.Executions

/-!
# Rely and guarantee

A discipline says what all operations keep of the world. A program is assured when it
keeps to the discipline itself and comes to what it promises, whatever others that
keep to it do in between. An annotation gives every place of a state machine an
assertion. When all handlers are assured, the assertions hold in every interleaving
of any number of executions, with the attempts that they have given up.
-/

open Asl Program

/-- Which operations are considered, what is to hold when an operation is asked for, and
    what all of them keep. -/
structure Discipline {Op : Type} {Ans : Op → Type} {W : Type}
    (exec : (op : Op) → W → Ans op → W → Prop) where
  allowed : Op → W → Prop
  ready : Op → W → Prop
  rely : W → W → Prop
  refl : ∀ w, rely w w
  trans : ∀ {w w' w''}, rely w w' → rely w' w'' → rely w w''

namespace Discipline

variable {Op W ε α β : Type} {Ans : Op → Type} {exec : (op : Op) → W → Ans op → W → Prop}
  {D : Discipline exec} {post post' : α → W → Prop} {w w' : W}

/-- Whatever others do before each operation and before the return: operations are asked
    for when they are ready and keep the discipline, and what is returned is as
    promised. -/
def Assured (D : Discipline exec) (post : α → W → Prop) : Program Op Ans ε α → W → Prop
  | .ret a, w => ∀ w₁, D.rely w w₁ → post a w₁
  | .raise _, _ => True
  | .call op k, w => ∀ w₁, D.rely w w₁ → D.ready op w₁ ∧ (D.allowed op w₁ →
      ∀ answer w₂, exec op w₁ answer w₂ → D.rely w₁ w₂ ∧ Assured D post (k answer) w₂)

/-- What others do breaks no assurance. -/
theorem Assured.stable {p : Program Op Ans ε α} (h : D.Assured post p w) (hrely : D.rely w w') :
    D.Assured post p w' := by
  cases p with
  | ret a => exact fun w₁ hrely₁ => h w₁ (D.trans hrely hrely₁)
  | raise e => trivial
  | call op k => exact fun w₁ hrely₁ => h w₁ (D.trans hrely hrely₁)

theorem Assured.mono {p : Program Op Ans ε α} (h : D.Assured post p w)
    (hpost : ∀ a w, post a w → post' a w) : D.Assured post' p w := by
  induction p generalizing w with
  | ret a => exact fun w₁ hrely => hpost a w₁ (h w₁ hrely)
  | raise e => trivial
  | call op k ih =>
      intro w₁ hrely
      obtain ⟨hready, hnext⟩ := h w₁ hrely
      refine ⟨hready, fun hallowed answer w₂ hexec => ?_⟩
      obtain ⟨hkept, hrest⟩ := hnext hallowed answer w₂ hexec
      exact ⟨hkept, ih answer hrest⟩

/-- The next operation of an assured program. -/
theorem Assured.call {op : Op} {k : Ans op → Program Op Ans ε α} (h : D.Assured post (.call op k) w) :
    D.ready op w ∧ (D.allowed op w → ∀ answer w', exec op w answer w' →
      D.rely w w' ∧ D.Assured post (k answer) w') :=
  h w (D.refl w)

theorem Assured.ret {a : α} (h : D.Assured post (.ret a : Program Op Ans ε α) w) : post a w :=
  h w (D.refl w)

/-- What asks for nothing gives others no time. -/
theorem assured_ofExcept_bind {x : Except ε α} {f : α → Program Op Ans ε β} {post' : β → W → Prop}
    (h : ∀ a, x = .ok a → D.Assured post' (f a) w) : D.Assured post' (.ofExcept x >>= f) w := by
  cases x with
  | ok a => exact h a rfl
  | error e => trivial

theorem Assured.bind {p : Program Op Ans ε α} {f : α → Program Op Ans ε β} {post' : β → W → Prop}
    (hp : D.Assured post p w) (hf : ∀ a w', post a w' → D.Assured post' (f a) w') :
    D.Assured post' (p >>= f) w := by
  induction p generalizing w with
  | ret a => exact hf a w hp.ret
  | raise e => trivial
  | call op k ih =>
      intro w₁ hrely
      obtain ⟨hready, hnext⟩ := hp w₁ hrely
      refine ⟨hready, fun hallowed answer w₂ hexec => ?_⟩
      obtain ⟨hkept, hrest⟩ := hnext hallowed answer w₂ hexec
      exact ⟨hkept, ih answer hrest⟩

end Discipline

namespace Workflow

variable {σ ρ Op W ι : Type} {Ans : Op → Type} {wf : Workflow σ ρ Op Ans W}

/-- Assertions about executions that others do not break, that the machine keeps, and
    that the handlers are assured to establish. -/
structure Annotation (wf : Workflow σ ρ Op Ans W) (D : Discipline wf.exec) where
  holds : Execution σ → List (Invocation σ Op Ans) → W → Prop
  stable : ∀ {e log w w'}, holds e log w → D.rely w w' → holds e log w'
  move : ∀ {e e' log w}, holds e log w → wf.machine.Moves e e' → holds e' log w
  invoke : ∀ {s t context data left event log w}, wf.machine.states s = .task t →
    t.event context data = some event → holds (.running s data left) log w →
    D.Assured (fun a w' => ∀ calls report, Reported t (.returned a) report →
      holds (wf.machine.resume s t context data left report)
        (log ++ [⟨s, event, calls, .returned a⟩]) w') (wf.handler t.resource event) w
  fault : ∀ {s t context data left event log w calls outcome report},
    wf.machine.states s = .task t → t.event context data = some event →
    holds (.running s data left) log w → (∀ a, outcome ≠ .returned a) → Reported t outcome report →
    holds (wf.machine.resume s t context data left report) (log ++ [⟨s, event, calls, outcome⟩]) w

namespace Annotation

variable {D : Discipline wf.exec} (A : Annotation wf D)

/-- What is left of the attempt that an execution waits for leads on to an assertion. -/
def Awaits (e : Execution σ) (log : List (Invocation σ Op Ans)) (u : Underway Op Ans) (w : W) : Prop :=
  ∃ s t data left, e = .running s data left ∧ wf.machine.states s = .task t ∧
    t.event u.context data = some u.event ∧
    D.Assured (fun a w' => ∀ calls report, Reported t (.returned a) report →
      A.holds (wf.machine.resume s t u.context data left report)
        (log ++ [⟨s, u.event, calls, .returned a⟩]) w') u.program w

structure Kept (s : Session σ Op Ans) (w : W) : Prop where
  holds : A.holds s.execution s.log w
  current : ∀ u, s.current = some u → A.Awaits s.execution s.log u w
  late : ∀ u ∈ s.late, D.Assured (fun _ _ => True) u.program w

variable {A} {s s' : Session σ Op Ans} {w w' : W}

theorem Kept.stable (h : A.Kept s w) (hrely : D.rely w w') : A.Kept s w' where
  holds := A.stable h.holds hrely
  current u hu := by
    obtain ⟨state, t, data, left, he, hstate, hevent, hassured⟩ := h.current u hu
    exact ⟨state, t, data, left, he, hstate, hevent, hassured.stable hrely⟩
  late u hu := (h.late u hu).stable hrely

theorem Kept.turn (h : A.Kept s w) (hturn : s.Turn wf s') : A.Kept s' w := by
  cases hturn with
  | move hmove => exact ⟨A.move h.holds hmove, nofun, h.late⟩
  | invoke hstate hevent =>
      refine ⟨h.holds, ?_, h.late⟩
      intro u hu
      cases hu
      exact ⟨_, _, _, _, rfl, hstate, hevent, A.invoke hstate hevent h.holds⟩
  | @report state t data left u log late outcome report hstate hat hreport =>
      obtain ⟨state', t', data', left', he, hstate', hevent, hassured⟩ := h.current u rfl
      cases he
      cases hstate.symm.trans hstate'
      refine ⟨?_, nofun, List.forall_mem_cons.mpr ⟨hassured.mono fun _ _ _ => trivial, h.late⟩⟩
      cases outcome with
      | returned a =>
          have hprogram : u.program = .ret a := hat
          rw [hprogram] at hassured
          exact hassured.ret _ _ hreport
      | raised e => exact A.fault hstate hevent h.holds nofun hreport
      | lost => exact A.fault hstate hevent h.holds nofun hreport

/-- An operation is asked for when it is ready, and keeps the discipline. -/
theorem Kept.performs {late : Bool} {op : Op} {answer : Ans op} (h : A.Kept s w)
    (hperforms : s.Performs late op answer s') (hallowed : D.allowed op w)
    (hexec : wf.exec op w answer w') : D.rely w w' ∧ A.Kept s' w' := by
  cases hperforms with
  | @current e u log late op k answer hprogram =>
      obtain ⟨state, t, data, left, he, hstate, hevent, hassured⟩ := h.current u rfl
      rw [hprogram] at hassured
      obtain ⟨hrely, hrest⟩ := hassured.call.2 hallowed answer w' hexec
      refine ⟨hrely, A.stable h.holds hrely, ?_, fun u hu => (h.late u hu).stable hrely⟩
      intro u' hu'
      cases hu'
      exact ⟨state, t, data, left, he, hstate, hevent, hrest⟩
  | @late e current log late n u op k answer hlate hprogram =>
      have hassured := h.late u (List.mem_of_getElem? hlate)
      rw [hprogram] at hassured
      obtain ⟨hrely, hrest⟩ := hassured.call.2 hallowed answer w' hexec
      refine ⟨hrely, A.stable h.holds hrely, (h.stable hrely).current, ?_⟩
      intro u' hu'
      cases List.mem_or_eq_of_mem_set hu' with
      | inl hold => exact (h.late u' hold).stable hrely
      | inr heq =>
          subst heq
          exact hrest

theorem Kept.ready {op : Op} (h : A.Kept s w) (hasks : s.Asks op) : D.ready op w := by
  rcases hasks with ⟨u, hu, hnext⟩ | ⟨u, hu, hnext⟩
  · obtain ⟨k, hprogram⟩ := Underway.asks_iff.mp hnext
    obtain ⟨_, _, _, _, _, _, _, hassured⟩ := h.current u hu
    rw [hprogram] at hassured
    exact hassured.call.1
  · obtain ⟨k, hprogram⟩ := Underway.asks_iff.mp hnext
    have hassured := h.late u hu
    rw [hprogram] at hassured
    exact hassured.call.1

section

variable [DecidableEq ι] {permits : Session σ Op Ans → Bool → Op → W → Prop} {input : ι → Json}
  {world : W} {sys sys' : System ι σ Op Ans W}

/-- Assertions that hold at the beginning of every execution hold throughout. -/
theorem kept (A : Annotation wf D) (hpermits : ∀ s late op w, permits s late op w → D.allowed op w)
    (hstart : ∀ i, A.holds (wf.machine.start (input i)) [] world)
    (h : Relation.ReflTransGen (System.Step wf permits) (.init wf input world) sys) (i : ι) :
    A.Kept (sys.session i) sys.world := by
  refine System.invariant h (fun i => ⟨hstart i, nofun, by simp [Session.start]⟩) ?_ ?_ ?_ i
  · exact fun s s' w hkept hturn => hkept.turn hturn
  · intro s late op answer s' w w' hkept hperforms hpermitted hexec
    exact (hkept.performs hperforms (hpermits _ _ _ _ hpermitted) hexec).2
  · intro other s late op answer s' w w' hother hkept hperforms hpermitted hexec
    exact hother.stable (hkept.performs hperforms (hpermits _ _ _ _ hpermitted) hexec).1

/-- Every step keeps the discipline. -/
theorem rely_step (hpermits : ∀ s late op w, permits s late op w → D.allowed op w)
    (hkept : ∀ i, A.Kept (sys.session i) sys.world) (hstep : System.Step wf permits sys sys') :
    D.rely sys.world sys'.world := by
  cases hstep with
  | turn => exact D.refl _
  | operation hperforms hpermitted hexec =>
      exact ((hkept _).performs hperforms (hpermits _ _ _ _ hpermitted) hexec).1

/-- What everyone relies on is kept from any point of a run to any later one. -/
theorem rely_reachable (A : Annotation wf D)
    (hpermits : ∀ s late op w, permits s late op w → D.allowed op w)
    (hstart : ∀ i, A.holds (wf.machine.start (input i)) [] world)
    (h : Relation.ReflTransGen (System.Step wf permits) (.init wf input world) sys)
    (hlater : Relation.ReflTransGen (System.Step wf permits) sys sys') : D.rely sys.world sys'.world := by
  induction hlater with
  | refl => exact D.refl _
  | tail hbefore hstep ih =>
      exact D.trans ih (rely_step hpermits (A.kept hpermits hstart (h.trans hbefore)) hstep)

end

end Annotation

end Workflow
