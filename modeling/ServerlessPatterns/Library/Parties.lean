-- SUMMARY: Parties that share a world and each keep to cells of their own: together they come to what each comes to alone.
import Mathlib.Data.Fintype.Basic
import Mathlib.Logic.Function.Basic
import Mathlib.Logic.Relation

/-!
# Parties

A world is looked at cell by cell. A party that owns some of the cells changes no other, and
what it does depends on its own cells alone. Parties next to each other, in any order of their
steps, then come to whatever each of them comes to alone.
-/

open Relation

/-- Parties that take steps in a shared world, and the states in which they keep to their
    cells. -/
structure Parties (ι W κ : Type) (L : ι → Type) (V : κ → Type) where
  view : (x : κ) → W → V x
  Owns : ι → κ → Prop
  Step : (i : ι) → L i × W → L i × W → Prop
  Keeps : (i : ι) → L i → Prop
  kept : ∀ {i s w s' w'}, Keeps i s → Step i (s, w) (s', w') → Keeps i s'
  frame : ∀ {i s w s' w' x}, Keeps i s → Step i (s, w) (s', w') → ¬ Owns i x → view x w' = view x w
  transfer : ∀ {i s w s' w' v}, Keeps i s → Step i (s, w) (s', w') →
    (∀ x, Owns i x → view x v = view x w) →
    ∃ v', Step i (s, v) (s', v') ∧ ∀ x, Owns i x → view x v' = view x w'

namespace Parties

variable {ι W κ : Type} {L : ι → Type} {V : κ → Type} (P : Parties ι W κ L V)

/-- No cell has two owners. -/
def Apart : Prop := ∀ i j x, P.Owns i x → P.Owns j x → i = j

/-- The party's cells are the same in both worlds. -/
def Alike (i : ι) (v w : W) : Prop := ∀ x, P.Owns i x → P.view x v = P.view x w

/-- One step of one party. -/
inductive Together [DecidableEq ι] : (∀ i, L i) × W → (∀ i, L i) × W → Prop where
  | step {s w i s' w'} (hstep : P.Step i (s i, w) (s', w')) : Together (s, w) (Function.update s i s', w')

/-- What a party comes to when there is no other. -/
abbrev Alone (i : ι) (s₀ : L i) (w₀ : W) (s : L i) (w : W) : Prop :=
  ReflTransGen (P.Step i) (s₀, w₀) (s, w)

variable {P} {i : ι} {s₀ s : ∀ i, L i} {w₀ w v : W}

theorem alone_keeps {s₀ s : L i} (hkeeps : P.Keeps i s₀) (h : P.Alone i s₀ w₀ s w) : P.Keeps i s := by
  suffices hall : ∀ a : L i × W, ReflTransGen (P.Step i) (s₀, w₀) a → P.Keeps i a.1 from hall (s, w) h
  intro a ha
  induction ha with
  | refl => exact hkeeps
  | tail _ hstep ih => exact P.kept ih hstep

variable [DecidableEq ι]

/-- What a party does next to others it also does alone. -/
theorem alone_of_together (hapart : P.Apart) (hkeeps : ∀ i, P.Keeps i (s₀ i))
    (h : ReflTransGen P.Together (s₀, w₀) (s, w)) :
    (∀ i, ∃ v, P.Alone i (s₀ i) w₀ (s i) v ∧ P.Alike i v w) ∧
      ∀ x, (∀ i, ¬ P.Owns i x) → P.view x w = P.view x w₀ := by
  suffices hall : ∀ a : (∀ i, L i) × W, ReflTransGen P.Together (s₀, w₀) a →
      (∀ i, ∃ v, P.Alone i (s₀ i) w₀ (a.1 i) v ∧ P.Alike i v a.2) ∧
        ∀ x, (∀ i, ¬ P.Owns i x) → P.view x a.2 = P.view x w₀ from hall (s, w) h
  intro a ha
  induction ha with
  | refl => exact ⟨fun i => ⟨w₀, .refl, fun _ _ => rfl⟩, fun _ _ => rfl⟩
  | tail _ htogether ih =>
      cases htogether with
      | @step s w i s' w' hstep =>
          obtain ⟨hall, hothers⟩ := ih
          obtain ⟨v, halone, hsame⟩ := hall i
          have hkeep := alone_keeps (hkeeps i) halone
          refine ⟨fun j => ?_, fun x hx => (P.frame hkeep hstep (hx i)).trans (hothers x hx)⟩
          by_cases hj : j = i
          · subst hj
            obtain ⟨v', hstep', hsame'⟩ := P.transfer hkeep hstep hsame
            dsimp only
            rw [Function.update_self]
            exact ⟨v', halone.tail hstep', hsame'⟩
          · obtain ⟨v', halone', hsame'⟩ := hall j
            dsimp only
            rw [Function.update_of_ne hj]
            refine ⟨v', halone', fun x hx => (hsame' x hx).trans ?_⟩
            exact (P.frame hkeep hstep fun hown => hj (hapart j i x hx hown)).symm

/-- What a party does alone it can also do next to others that it finds at their beginning. -/
theorem together_of_alone_one (t : ∀ i, L i) (hkeeps : P.Keeps i (t i)) (hsame : P.Alike i w w₀) {s' : L i}
    (h : P.Alone i (t i) w₀ s' v) :
    ∃ w', ReflTransGen P.Together (t, w) (Function.update t i s', w') ∧ P.Alike i w' v ∧
      ∀ x, ¬ P.Owns i x → P.view x w' = P.view x w := by
  suffices hall : ∀ a : L i × W, ReflTransGen (P.Step i) (t i, w₀) a → P.Keeps i a.1 ∧
      ∃ w', ReflTransGen P.Together (t, w) (Function.update t i a.1, w') ∧ P.Alike i w' a.2 ∧
        ∀ x, ¬ P.Owns i x → P.view x w' = P.view x w from (hall (s', v) h).2
  intro a ha
  induction ha with
  | refl => exact ⟨hkeeps, w, by rw [Function.update_eq_self], hsame, fun _ _ => rfl⟩
  | @tail b c _ hstep ih =>
      obtain ⟨hkeep, w', hreach, hsame', hframe⟩ := ih
      obtain ⟨w'', hstep', hsame''⟩ := P.transfer hkeep hstep hsame'
      have hself : Function.update t i b.1 i = b.1 := Function.update_self ..
      have hnext := hreach.tail (.step (hself.symm ▸ hstep'))
      rw [Function.update_idem] at hnext
      exact ⟨P.kept hkeep hstep, w'', hnext, hsame'',
        fun x hx => (P.frame hkeep hstep' hx).trans (hframe x hx)⟩

/-- The parties take their steps one after the other. -/
theorem together_of_alone [Fintype ι] (hapart : P.Apart) (hkeeps : ∀ i, P.Keeps i (s₀ i))
    {y : ∀ x, V x} (hothers : ∀ x, (∀ i, ¬ P.Owns i x) → y x = P.view x w₀)
    (h : ∀ i, ∃ v, P.Alone i (s₀ i) w₀ (s i) v ∧ ∀ x, P.Owns i x → P.view x v = y x) :
    ∃ w, ReflTransGen P.Together (s₀, w₀) (s, w) ∧ ∀ x, P.view x w = y x := by
  have hall : ∀ done : Finset ι, ∃ w,
      ReflTransGen P.Together (s₀, w₀) (fun i => if i ∈ done then s i else s₀ i, w) ∧
      (∀ i ∈ done, ∀ x, P.Owns i x → P.view x w = y x) ∧
      ∀ x, (∀ i ∈ done, ¬ P.Owns i x) → P.view x w = P.view x w₀ := by
    intro done
    induction done using Finset.induction_on with
    | empty => exact ⟨w₀, .refl, by simp, fun _ _ => rfl⟩
    | @insert i done hi ih =>
        obtain ⟨w, hreach, hdone, hrest⟩ := ih
        obtain ⟨v, halone, hv⟩ := h i
        have hsame : P.Alike i w w₀ := fun x hx =>
          hrest x fun j hj hown => hi (hapart i j x hx hown ▸ hj)
        have hbegin : s₀ i = if i ∈ done then s i else s₀ i := (if_neg hi).symm
        obtain ⟨w', hrun, hw', hframe⟩ := together_of_alone_one
          (fun j => if j ∈ done then s j else s₀ j) (hbegin ▸ hkeeps i) hsame (hbegin ▸ halone)
        have hupdate : Function.update (fun j => if j ∈ done then s j else s₀ j) i (s i) =
            fun j => if j ∈ insert i done then s j else s₀ j := by
          funext j
          by_cases hj : j = i
          · subst hj
            simp
          · simp [hj]
        rw [hupdate] at hrun
        refine ⟨w', hreach.trans hrun, fun j hj x hx => ?_, fun x hx => ?_⟩
        · rcases Finset.mem_insert.mp hj with rfl | hmem
          · exact (hw' x hx).trans (hv x hx)
          · have hne : ¬ P.Owns i x := fun hown => hi (hapart j i x hx hown ▸ hmem)
            rw [hframe x hne, hdone j hmem x hx]
        · rw [hframe x (hx i (Finset.mem_insert_self i done)),
            hrest x fun j hj => hx j (Finset.mem_insert_of_mem hj)]
  obtain ⟨w, hreach, hdone, hrest⟩ := hall Finset.univ
  refine ⟨w, by simpa using hreach, fun x => ?_⟩
  by_cases hx : ∃ i, P.Owns i x
  · obtain ⟨i, hown⟩ := hx
    exact hdone i (Finset.mem_univ i) x hown
  · have hnone : ∀ i, ¬ P.Owns i x := not_exists.mp hx
    rw [hrest x fun i _ => hnone i, hothers x hnone]

/-- Parties with cells of their own come together to exactly what each of them comes to alone. -/
theorem together_iff_alone [Fintype ι] (hapart : P.Apart) (hkeeps : ∀ i, P.Keeps i (s₀ i))
    {y : ∀ x, V x} :
    (∃ w, ReflTransGen P.Together (s₀, w₀) (s, w) ∧ ∀ x, P.view x w = y x) ↔
      (∀ x, (∀ i, ¬ P.Owns i x) → y x = P.view x w₀) ∧
      ∀ i, ∃ v, P.Alone i (s₀ i) w₀ (s i) v ∧ ∀ x, P.Owns i x → P.view x v = y x := by
  constructor
  · rintro ⟨w, hreach, hy⟩
    obtain ⟨hall, hothers⟩ := alone_of_together hapart hkeeps hreach
    refine ⟨fun x hx => (hy x).symm.trans (hothers x hx), fun i => ?_⟩
    obtain ⟨v, halone, hsame⟩ := hall i
    exact ⟨v, halone, fun x hx => (hsame x hx).trans (hy x)⟩
  · rintro ⟨hothers, hall⟩
    exact together_of_alone hapart hkeeps hothers hall

end Parties
