-- SUMMARY: Weakest preconditions of programs that are run to their end, with one postcondition for a return and one for a raise.
import ServerlessPatterns.Library.Program

/-!
# Weakest preconditions

What has to hold of a world so that a program that nothing interrupts returns or raises
as it should, whatever its operations answer.
-/

namespace Program

variable {Op ε α β W : Type} {Ans : Op → Type} {exec : (op : Op) → W → Ans op → W → Prop}
  {returned returned' : α → W → Prop} {raised raised' : ε → W → Prop} {w w' : W}

def wp (exec : (op : Op) → W → Ans op → W → Prop) (returned : α → W → Prop)
    (raised : ε → W → Prop) : Program Op Ans ε α → W → Prop
  | ret a, w => returned a w
  | raise e, w => raised e w
  | call op k, w => ∀ answer w', exec op w answer w' → wp exec returned raised (k answer) w'

@[simp] theorem wp_ret {a : α} :
    wp exec returned raised (ret a : Program Op Ans ε α) w ↔ returned a w := Iff.rfl

@[simp] theorem wp_raise {e : ε} :
    wp exec returned raised (raise e : Program Op Ans ε α) w ↔ raised e w := Iff.rfl

@[simp] theorem wp_call {op : Op} {k : Ans op → Program Op Ans ε α} :
    wp exec returned raised (call op k) w ↔
      ∀ answer w', exec op w answer w' → wp exec returned raised (k answer) w' := Iff.rfl

theorem wp_mono {p : Program Op Ans ε α} (h : wp exec returned raised p w)
    (hreturned : ∀ a w', returned a w' → returned' a w')
    (hraised : ∀ e w', raised e w' → raised' e w') : wp exec returned' raised' p w := by
  induction p generalizing w with
  | ret a => exact hreturned a w h
  | raise e => exact hraised e w h
  | call op k ih => exact fun answer w' hexec => ih answer (h answer w' hexec)

/-- A sequence goes on where its first part returns, and a raise of that part is its own. -/
theorem wp_bind {p : Program Op Ans ε β} {f : β → Program Op Ans ε α} :
    wp exec returned raised (p >>= f) w ↔
      wp exec (fun b w' => wp exec returned raised (f b) w') raised p w := by
  induction p generalizing w with
  | ret b => exact Iff.rfl
  | raise e => exact Iff.rfl
  | call op k ih =>
      constructor
      · exact fun h answer w' hexec => (ih answer).mp (h answer w' hexec)
      · exact fun h answer w' hexec => (ih answer).mpr (h answer w' hexec)

/-- An attempt that is not given up ends as the weakest precondition says. -/
theorem wp_attempt {p : Program Op Ans ε α} {events : List (Event Op Ans)} {outcome : Outcome ε α}
    (h : wp exec returned raised p w) (hattempt : Attempt exec p w events outcome w')
    (hnot : outcome ≠ .lost) :
    (∃ a, outcome = .returned a ∧ returned a w') ∨ ∃ e, outcome = .raised e ∧ raised e w' := by
  obtain ⟨hcalls, heffects⟩ := hattempt
  induction p generalizing w events with
  | ret a =>
      obtain ⟨rfl, houtcome⟩ := calls_ret.mp hcalls
      rw [effects_nil] at heffects
      subst heffects
      exact .inl ⟨a, houtcome.resolve_right hnot, h⟩
  | raise e =>
      obtain ⟨rfl, houtcome⟩ := calls_raise.mp hcalls
      rw [effects_nil] at heffects
      subst heffects
      exact .inr ⟨e, houtcome.resolve_right hnot, h⟩
  | call op k ih =>
      rcases calls_call.mp hcalls with ⟨_, hlost⟩ | ⟨answer, rest, rfl, hrest⟩
      · exact absurd hlost hnot
      · obtain ⟨w₁, hexec, hmore⟩ := effects_cons.mp heffects
        exact ih answer (h answer w₁ hexec) hrest hmore

/-- A program that returns as it should under a condition, and raises without it, always
    returns exactly under the condition. -/
theorem returns_iff {answer : (op : Op) → W → Ans op × W} {p : Program Op Ans ε α} {condition : Prop}
    (hanswer : ∀ op w, exec op w (answer op w).1 (answer op w).2) (start : W)
    (h : ∀ w, wp exec (fun a w' => condition ∧ returned a w') (fun _ _ => ¬ condition) p w) :
    (∀ w events outcome w', Attempt exec p w events outcome w' → outcome ≠ .lost →
      ∃ a, outcome = .returned a ∧ returned a w') ↔ condition := by
  constructor
  · intro hreturns
    have hattempt := run_attempt hanswer p none start
    have hlost : (run answer p none start).2.1 ≠ .lost := run_none_ne_lost p start
    obtain ⟨_, hreturned, _⟩ := hreturns _ _ _ _ hattempt hlost
    rcases wp_attempt (h start) hattempt hlost with ⟨_, _, hcondition, _⟩ | ⟨_, hraised, _⟩
    · exact hcondition
    · cases hreturned.symm.trans hraised
  · intro hcondition w events outcome w' hattempt hlost
    rcases wp_attempt (h w) hattempt hlost with ⟨a, houtcome, _, ha⟩ | ⟨_, _, hnot⟩
    · exact ⟨a, houtcome, ha⟩
    · exact absurd hcondition hnot

end Program
