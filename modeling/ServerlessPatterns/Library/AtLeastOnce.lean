-- SUMMARY: Programs that are run at least once: when attempts that were given up or repeated leave no more than a single complete one.
import Mathlib.Logic.Relation
import ServerlessPatterns.Library.Contract

/-!
# At least once

A program that may be given up at any point and tried again has to be safe to
repeat. It is when its operations, once done, stay done: asked for again, also after
others of the program, they give the same answer and change nothing. Parts of the
world that may differ, such as times, are left out by a view.
-/

namespace Program

variable {Op : Type} {Ans : Op → Type} {ε α W V : Type}

/-- The operations are functions on what is seen of the world, and stay done. -/
structure Repeatable (exec : (op : Op) → W → Ans op → W → Prop) (among : Op → Prop) (view : W → V)
    (act : (op : Op) → V → Ans op × V) : Prop where
  seen {op : Op} {w w' : W} {answer : Ans op} :
    among op → exec op w answer w' → act op (view w) = (answer, view w')
  again {op : Op} {v v' : V} {answer : Ans op} :
    among op → act op v = (answer, v') → act op v' = (answer, v')
  stays {op op' : Op} {v v' : V} {answer : Ans op} {answer' : Ans op'} :
    among op → among op' → act op v = (answer, v) → act op' v = (answer', v') →
      act op v' = (answer, v')

/-- A program that only asks for certain operations. -/
abbrev Only (among : Op → Prop) (p : Program Op Ans ε α) : Prop :=
  p.Meets among (fun _ _ => True) (fun _ => True) fun _ => True

variable {exec : (op : Op) → W → Ans op → W → Prop} {among : Op → Prop} {view : W → V}
  {act : (op : Op) → V → Ans op × V} {p : Program Op Ans ε α} {w w' : W}
  {calls : List (Event Op Ans)} {outcome : Outcome ε α}

theorem Only.asks (hp : p.Only among) (h : Calls p calls outcome) : ∀ event ∈ calls, among event.1 :=
  (Meets.calls hp h fun _ _ => trivial).1

namespace Repeatable

variable (h : Repeatable exec among view act)

include h

/-- A complete attempt is determined by what is seen. -/
theorem run_complete (hp : p.Only among) (hattempt : Attempt exec p w calls outcome w')
    (hlost : outcome ≠ .lost) : p.run act none (view w) = (calls, outcome, view w') := by
  obtain ⟨hcalls, heffects⟩ := hattempt
  induction p generalizing w calls with
  | ret a =>
      obtain ⟨rfl, houtcome⟩ := calls_ret.mp hcalls
      obtain rfl := houtcome.resolve_right hlost
      obtain rfl := effects_nil.mp heffects
      rfl
  | raise e =>
      obtain ⟨rfl, houtcome⟩ := calls_raise.mp hcalls
      obtain rfl := houtcome.resolve_right hlost
      obtain rfl := effects_nil.mp heffects
      rfl
  | call op k ih =>
      rcases calls_call.mp hcalls with ⟨_, hstopped⟩ | ⟨answer, rest, rfl, hrest⟩
      · exact absurd hstopped hlost
      · obtain ⟨w₁, hexec, hafter⟩ := effects_cons.mp heffects
        have hrun := ih answer (hp.2 answer trivial) hrest hafter
        simp only [run, h.seen hp.1 hexec, Option.map_none, hrun]

/-- What is done stays done while others of the program follow. -/
theorem stays_effects {op : Op} {answer : Ans op} (hop : among op) (heffects : Effects exec w calls w')
    (hcalls : ∀ event ∈ calls, among event.1) (hdone : act op (view w) = (answer, view w)) :
    act op (view w') = (answer, view w') :=
  heffects.preserves (P := fun w => act op (view w) = (answer, view w))
    (fun event hmem _ _ hdone hexec =>
      h.stays hop (hcalls event hmem) hdone (h.seen (hcalls event hmem) hexec)) hdone

/-- What an attempt has done, a complete one after it does not do again. -/
theorem run_after (hp : p.Only among) (hattempt : Attempt exec p w calls outcome w') :
    (p.run act none (view w')).2 = (p.run act none (view w)).2 := by
  obtain ⟨hcalls, heffects⟩ := hattempt
  induction p generalizing w calls with
  | ret a =>
      obtain ⟨rfl, _⟩ := calls_ret.mp hcalls
      obtain rfl := effects_nil.mp heffects
      rfl
  | raise e =>
      obtain ⟨rfl, _⟩ := calls_raise.mp hcalls
      obtain rfl := effects_nil.mp heffects
      rfl
  | call op k ih =>
      rcases calls_call.mp hcalls with ⟨rfl, _⟩ | ⟨answer, rest, rfl, hrest⟩
      · obtain rfl := effects_nil.mp heffects
        rfl
      · obtain ⟨w₁, hexec, hafter⟩ := effects_cons.mp heffects
        have hrun := ih answer (hp.2 answer trivial) hrest hafter
        have hfirst := h.seen hp.1 hexec
        have hdone := h.stays_effects hp.1 hafter (Only.asks (hp.2 answer trivial) hrest)
          (h.again hp.1 hfirst)
        simp only [run, hfirst, hdone, Option.map_none, hrun]

/-- After any number of attempts, a complete one ends as it would have at first, and
    leaves the same to be seen. -/
theorem at_least_once (hp : p.Only among) {w₁ w₂ w₂' : W} {calls' : List (Event Op Ans)}
    {outcome' : Outcome ε α}
    (hbefore : Relation.ReflTransGen
      (fun w w' => ∃ calls outcome, Attempt exec p w calls outcome w') w w₁)
    (hlast : Attempt exec p w₁ calls outcome w₂) (hcomplete : outcome ≠ .lost)
    (honly : Attempt exec p w calls' outcome' w₂') (hcomplete' : outcome' ≠ .lost) :
    outcome = outcome' ∧ view w₂ = view w₂' := by
  have hsame : (p.run act none (view w₁)).2 = (p.run act none (view w)).2 := by
    clear hlast
    induction hbefore with
    | refl => rfl
    | tail _ hattempt ih =>
        obtain ⟨calls, outcome, hattempt⟩ := hattempt
        rw [h.run_after hp hattempt, ih]
  rw [h.run_complete hp hlast hcomplete, h.run_complete hp honly hcomplete'] at hsame
  exact Prod.mk.inj hsame

end Repeatable

end Program
