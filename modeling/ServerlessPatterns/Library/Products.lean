-- SUMMARY: Transition systems side by side: what they share only grows, and each of them runs as if it were alone.
import Mathlib.Data.Fintype.Basic
import Mathlib.Logic.Function.Basic
import Mathlib.Logic.Relation

/-!
# Products

Some components each have a state of their own and read something that they share. Only
the environment changes what is shared, and never so that a component could do less. The
components then do not interfere: any states that they reach one by one they reach
together.
-/

namespace Products

open Relation

/-- Components that read a shared environment. -/
structure Family (ι E : Type) (S : ι → Type) where
  Grow : E → E → Prop
  Step : (i : ι) → E → S i → S i → Prop
  mono : ∀ {i e e' s s'}, Grow e e' → Step i e s s' → Step i e' s s'

variable {ι E : Type} {S : ι → Type} {family : Family ι E S}

namespace Family

/-- All components next to each other. -/
inductive Together [DecidableEq ι] (family : Family ι E S) : E × (∀ i, S i) → E × (∀ i, S i) → Prop where
  | grow {e e' s} (hgrow : family.Grow e e') : Together family (e, s) (e', s)
  | step {e s i s'} (hstep : family.Step i e (s i) s') :
      Together family (e, s) (e, Function.update s i s')

/-- One component without the others. -/
inductive Alone (family : Family ι E S) (i : ι) : E × S i → E × S i → Prop where
  | grow {e e' s} (hgrow : family.Grow e e') : Alone family i (e, s) (e', s)
  | step {e s s'} (hstep : family.Step i e s s') : Alone family i (e, s) (e, s')

end Family

open Family

/-! ## From all components to one -/

theorem Family.Together.alone [DecidableEq ι] {i : ι} {a b : E × (∀ i, S i)}
    (h : family.Together a b) : ReflTransGen (family.Alone i) (a.1, a.2 i) (b.1, b.2 i) := by
  cases h with
  | grow hgrow => exact .single (.grow hgrow)
  | @step e s j s' hstep =>
      dsimp only
      by_cases hij : i = j
      · subst hij
        rw [Function.update_self]
        exact .single (.step hstep)
      · rw [Function.update_of_ne hij]

/-- What the others do leaves a component's own run. -/
theorem alone_of_together [DecidableEq ι] {i : ι} {a b : E × (∀ i, S i)}
    (h : ReflTransGen family.Together a b) :
    ReflTransGen (family.Alone i) (a.1, a.2 i) (b.1, b.2 i) := by
  induction h with
  | refl => exact .refl
  | tail _ hstep ih => exact ih.trans hstep.alone

/-! ## From one component to all -/

/-- A component can take its steps after everything has grown. -/
theorem steps_of_alone {i : ι} {a b : E × S i} (h : ReflTransGen (family.Alone i) a b) :
    ReflTransGen (family.Step i b.1) a.2 b.2 := by
  induction h with
  | refl => exact .refl
  | tail _ hstep ih =>
      cases hstep with
      | grow hgrow => exact ReflTransGen.mono (fun _ _ => family.mono hgrow) _ _ ih
      | step hstep => exact ih.tail hstep

theorem together_of_grow [DecidableEq ι] {e e' : E} {s : ∀ i, S i}
    (h : ReflTransGen family.Grow e e') : ReflTransGen family.Together (e, s) (e', s) := by
  induction h with
  | refl => exact .refl
  | tail _ hgrow ih => exact ih.tail (.grow hgrow)

theorem together_of_steps [DecidableEq ι] {i : ι} {e : E} {s : ∀ i, S i} {s' : S i}
    (h : ReflTransGen (family.Step i e) (s i) s') :
    ReflTransGen family.Together (e, s) (e, Function.update s i s') := by
  induction h with
  | refl => rw [Function.update_eq_self]
  | @tail b c _ hstep ih =>
      have hself : Function.update s i b i = b := Function.update_self ..
      have hnext := ih.tail (.step (hself.symm ▸ hstep))
      rwa [Function.update_idem] at hnext

/-- The components run one after the other. -/
theorem together_of_all [DecidableEq ι] [Fintype ι] {e : E} {s s' : ∀ i, S i}
    (h : ∀ i, ReflTransGen (family.Step i e) (s i) (s' i)) :
    ReflTransGen family.Together (e, s) (e, s') := by
  have hall : ∀ done : Finset ι,
      ReflTransGen family.Together (e, s) (e, fun i => if i ∈ done then s' i else s i) := by
    intro done
    induction done using Finset.induction_on with
    | empty => exact .refl
    | @insert i done hi ih =>
        have hsteps : ReflTransGen (family.Step i e) (if i ∈ done then s' i else s i) (s' i) := by
          rw [if_neg hi]
          exact h i
        have hnext := ih.trans (together_of_steps hsteps)
        have hupdate : Function.update (fun j => if j ∈ done then s' j else s j) i (s' i) =
            fun j => if j ∈ insert i done then s' j else s j := by
          funext j
          by_cases hj : j = i
          · subst hj
            simp
          · simp [hj]
        rwa [hupdate] at hnext
  simpa using hall Finset.univ

end Products
