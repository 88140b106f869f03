-- SUMMARY: A register that writers overwrite with values of their own versions, and when it holds the value of the latest version.
import Mathlib.Data.Set.Finite.Lattice
import Mathlib.Order.Bounds.Basic
import Mathlib.Order.Preorder.Finite

/-!
# Versioned registers

Each version is written at most once, in any order, and a write replaces what is
stored without looking at it. The register is current when it holds the value of the
highest version written so far. It is always current exactly when a write never comes
after one of a higher version that has another value.
-/

/-- What is stored, and the versions that were written. -/
structure VersionedRegister (ν β : Type) where
  written : Set ν
  stored : β

namespace VersionedRegister

variable {ν β : Type}

def write (s : VersionedRegister ν β) (result : ν → β) (a : ν) : VersionedRegister ν β where
  written := insert a s.written
  stored := result a

inductive Step (valid : ν → Prop) (result : ν → β) :
    VersionedRegister ν β → VersionedRegister ν β → Prop where
  | idle {s} : Step valid result s s
  | write {s a} (hvalid : valid a) (hnew : a ∉ s.written) : Step valid result s (s.write result a)

variable {valid : ν → Prop} {result : ν → β} {s s' : VersionedRegister ν β}

section

variable {state : Nat → VersionedRegister ν β}
  (hstep : ∀ i, Step valid result (state i) (state (i + 1)))

include hstep

theorem finite_written (hinit : (state 0).written.Finite) (i : Nat) : (state i).written.Finite := by
  induction i with
  | zero => exact hinit
  | succ i ih =>
      have h := hstep i
      generalize state i = s, state (i + 1) = s' at h ih
      cases h with
      | idle => exact ih
      | write => exact ih.insert _

theorem valid_of_written (hinit : ∀ a ∈ (state 0).written, valid a) (i : Nat) :
    ∀ a ∈ (state i).written, valid a := by
  induction i with
  | zero => exact hinit
  | succ i ih =>
      have h := hstep i
      generalize state i = s, state (i + 1) = s' at h ih
      cases h with
      | idle => exact ih
      | write hvalid => exact Set.forall_mem_insert.mpr ⟨hvalid, ih⟩

/-- Until a version is written, what was stored first is. -/
theorem stored_of_unwritten {i : Nat} (h : (state i).written = ∅) :
    (state i).stored = (state 0).stored := by
  induction i with
  | zero => rfl
  | succ i ih =>
      have hnext := hstep i
      generalize state i = s, state (i + 1) = s' at hnext h ih
      cases hnext with
      | idle => exact ih h
      | write => exact absurd h (Set.insert_nonempty _ _).ne_empty

end

variable [LinearOrder ν]

/-- The register holds the value of the highest version. -/
def Current (result : ν → β) (s : VersionedRegister ν β) : Prop :=
  ∀ a, IsGreatest s.written a → s.stored = result a

/-- A version that is written has the value of the highest one before, unless it is
    higher itself. -/
def Orderly (result : ν → β) (s s' : VersionedRegister ν β) : Prop :=
  ∀ a, a ∉ s.written → a ∈ s'.written → ∀ b, IsGreatest s.written b → a < b → result a = result b

theorem orderly_of_current (hstep : Step valid result s s') (h : Current result s') :
    Orderly result s s' := by
  intro a hnew hwritten b hgreatest hlt
  cases hstep with
  | idle => exact absurd hwritten hnew
  | @write a' _ hnew' =>
      have heq : a = a' := hwritten.resolve_right hnew
      subst heq
      apply h b
      refine ⟨Set.mem_insert_of_mem a hgreatest.1, ?_⟩
      intro c hc
      cases hc with
      | inl heq => exact heq ▸ hlt.le
      | inr hmem => exact hgreatest.2 hmem

theorem current_step (hstep : Step valid result s s') (h : Current result s)
    (horderly : Orderly result s s') : Current result s' := by
  intro b hgreatest
  cases hstep with
  | idle => exact h b hgreatest
  | @write a _ hnew =>
      have hmem : a ∈ (s.write result a).written := Set.mem_insert a s.written
      cases hgreatest.1 with
      | inl heq => rw [heq]; rfl
      | inr hold =>
          have hbefore : IsGreatest s.written b :=
            ⟨hold, fun c hc => hgreatest.2 (Set.mem_insert_of_mem a hc)⟩
          have hne : a ≠ b := by
            rintro rfl
            exact hnew hold
          exact horderly a hnew hmem b hbefore (lt_of_le_of_ne (hgreatest.2 hmem) hne)

section

variable {state : Nat → VersionedRegister ν β}
  (hstep : ∀ i, Step valid result (state i) (state (i + 1)))

include hstep

/-- Along a run the register is always current exactly when all its writes are in
    order. -/
theorem current_iff_orderly (hinit : Current result (state 0)) :
    (∀ i, Current result (state i)) ↔ ∀ i, Orderly result (state i) (state (i + 1)) := by
  constructor
  · exact fun h i => orderly_of_current (hstep i) (h (i + 1))
  · intro h i
    induction i with
    | zero => exact hinit
    | succ i ih => exact current_step (hstep i) ih (h i)

/-- A register that is always current never goes back, when higher versions have
    higher values. -/
theorem stored_le [Preorder β] (hnone : (state 0).written = ∅)
    (hfirst : ∀ a, valid a → (state 0).stored ≤ result a)
    (hmono : ∀ a b, valid a → valid b → a ≤ b → result a ≤ result b)
    (h : ∀ i, Current result (state i)) (i : Nat) : (state i).stored ≤ (state (i + 1)).stored := by
  cases Set.eq_empty_or_nonempty (state i).written with
  | inl hempty =>
      rw [stored_of_unwritten hstep hempty]
      have hnext := hstep i
      have hcurrent := stored_of_unwritten hstep hempty
      generalize state i = s, state (i + 1) = s' at hnext hcurrent
      cases hnext with
      | idle => exact hcurrent ▸ le_rfl
      | write hvalid => exact hfirst _ hvalid
  | inr hsome =>
      obtain ⟨b, hb⟩ := (finite_written hstep (hnone ▸ Set.finite_empty) i).exists_maximal hsome
      have hgreatest : IsGreatest (state i).written b :=
        ⟨hb.1, fun c hc => le_of_not_gt fun hlt => absurd (hb.2 hc hlt.le) (not_le_of_gt hlt)⟩
      have hbefore := h i b hgreatest
      have hafter := h (i + 1)
      have hvalid := valid_of_written hstep (by simp [hnone]) i b hb.1
      have hnext := hstep i
      generalize state i = s, state (i + 1) = s' at hnext hgreatest hbefore hafter
      cases hnext with
      | idle => exact le_rfl
      | @write a ha hnew =>
          cases le_total b a with
          | inl hle =>
              rw [hbefore]
              exact hmono b a hvalid ha hle
          | inr hle =>
              have hstill : IsGreatest (s.write result a).written b :=
                ⟨Set.mem_insert_of_mem a hgreatest.1, fun c hc =>
                  hc.elim (fun heq => heq ▸ hle) fun hmem => hgreatest.2 hmem⟩
              rw [hbefore, ← hafter b hstill]

end

end VersionedRegister
