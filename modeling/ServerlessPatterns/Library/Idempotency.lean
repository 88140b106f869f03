-- SUMMARY: An idempotency layer that replays stored results until they expire, and how far apart the runs of a function are under it.
import Mathlib.Algebra.Order.Ring.Rat
import Mathlib.Logic.Function.Basic
import Mathlib.Tactic.Linarith
import ServerlessPatterns.Library.Transition

/-!
# Idempotency layers

A layer keeps one item for each key. A call under a key with a live item is not
run: it gets the stored result, or is refused while another call is in progress. A
call that completes leaves its result for a fixed time. A call that is cut off
holds the key until its deadline.
-/

namespace Idempotency

open Relation

inductive Item where
  | inProgress (deadline expiry : ℚ)
  | completed (expiry : ℚ)

namespace Item

def expiry : Item → ℚ
  | inProgress _ expiry => expiry
  | completed expiry => expiry

/-- The item keeps the function from being run. -/
def Blocks (now : ℚ) : Item → Prop
  | inProgress deadline expiry => now ≤ deadline ∧ now ≤ expiry
  | completed expiry => now ≤ expiry

end Item

/-- The clock, the items, and the times at which the function has completed. -/
structure Layer (κ : Type) where
  now : ℚ
  item : κ → Option Item
  completions : κ → List ℚ

/-- How long results are kept, and how long a call may take. -/
structure Limits where
  expiresAfter : ℚ
  maxDuration : ℚ

variable {κ : Type} [DecidableEq κ]

namespace Layer

def empty : Layer κ := ⟨0, fun _ => none, fun _ => []⟩

def wait (l : Layer κ) (later : ℚ) : Layer κ := { l with now := later }

def setItem (l : Layer κ) (k : κ) (item : Option Item) : Layer κ :=
  { l with item := Function.update l.item k item }

def complete (l : Layer κ) (limits : Limits) (k : κ) : Layer κ :=
  { l with
    item := Function.update l.item k (some (.completed (l.now + limits.expiresAfter)))
    completions := Function.update l.completions k (l.completions k ++ [l.now]) }

end Layer

/-- What deliveries under the given keys do to the layer as time goes by. -/
inductive Step (limits : Limits) (delivered : κ → Prop) : Layer κ → Layer κ → Prop where
  | wait {l later} (hlater : l.now ≤ later) : Step limits delivered l (l.wait later)
  /-- A delivery that is answered from the store or refused. -/
  | blocked {l k item} (hdelivered : delivered k) (hitem : l.item k = some item)
      (hblocks : item.Blocks l.now) : Step limits delivered l l
  | start {l k deadline} (hdelivered : delivered k)
      (hfree : ∀ item, l.item k = some item → ¬ item.Blocks l.now)
      (hdeadline : deadline ≤ l.now + limits.maxDuration) :
      Step limits delivered l
        (l.setItem k (some (.inProgress deadline (l.now + limits.expiresAfter))))
  | complete {l k deadline expiry} (hitem : l.item k = some (.inProgress deadline expiry))
      (halive : l.now ≤ deadline) : Step limits delivered l (l.complete limits k)
  /-- The function raised: its item is deleted. -/
  | fail {l k deadline expiry} (hitem : l.item k = some (.inProgress deadline expiry))
      (halive : l.now ≤ deadline) : Step limits delivered l (l.setItem k none)
  /-- The store deletes an expired item, at some time after its expiry. -/
  | expire {l k item} (hitem : l.item k = some item) (hexpired : item.expiry < l.now) :
      Step limits delivered l (l.setItem k none)

abbrev Reachable (limits : Limits) (delivered : κ → Prop) (l : Layer κ) : Prop :=
  ReflTransGen (Step limits delivered) .empty l

/-- No completion falls into the period of the given length that starts at an
    earlier one. -/
def Spaced (period : ℚ) (times : List ℚ) : Prop :=
  times.Pairwise fun earlier later => earlier + period ≤ later

/-- In every run the function completes at most once in a period under the key. -/
def AtMostOnce (limits : Limits) (delivered : κ → Prop) (period : ℚ) (k : κ) : Prop :=
  ∀ l, Reachable limits delivered l → Spaced period (l.completions k)

variable {limits : Limits} {delivered : κ → Prop} {l l' : Layer κ} {k : κ}

/-! ## Completions keep their distance -/

/-- Either the result of a completion has expired, or the item still has it. -/
def Kept (limits : Limits) (l : Layer κ) (k : κ) : Prop :=
  ∀ time ∈ l.completions k, time + limits.expiresAfter < l.now ∨
    ∃ expiry, l.item k = some (.completed expiry) ∧ time + limits.expiresAfter ≤ expiry

/-- The function completes again only after the results of all earlier completions
    have expired. -/
structure Holds (limits : Limits) (l : Layer κ) (k : κ) : Prop where
  kept : Kept limits l k
  spaced : (l.completions k).Pairwise fun earlier later => earlier + limits.expiresAfter < later

theorem kept_setItem {item : Option Item} (hkept : Kept limits l k)
    (hexpired : ∀ expiry, l.item k = some (.completed expiry) → expiry < l.now) :
    Kept limits (l.setItem k item) k := by
  intro time htime
  left
  cases hkept time htime with
  | inl hpast => exact hpast
  | inr hheld =>
      obtain ⟨expiry, hitem, hle⟩ := hheld
      exact lt_of_le_of_lt hle (hexpired expiry hitem)

/-- What a step does under one key does not concern the others. -/
theorem holds_setItem_other {k' : κ} {item : Option Item} (hne : k ≠ k') (h : Holds limits l k) :
    Holds limits (l.setItem k' item) k := by
  have hsame : (l.setItem k' item).item k = l.item k := Function.update_of_ne hne ..
  refine ⟨?_, h.spaced⟩
  intro time htime
  rw [hsame]
  exact h.kept time htime

theorem holds_complete_self (h : Holds limits l k) {deadline expiry : ℚ}
    (hitem : l.item k = some (.inProgress deadline expiry)) : Holds limits (l.complete limits k) k := by
  have htimes : (l.complete limits k).completions k = l.completions k ++ [l.now] :=
    Function.update_self ..
  have hnew : (l.complete limits k).item k = some (.completed (l.now + limits.expiresAfter)) :=
    Function.update_self ..
  have hpast : ∀ time ∈ l.completions k, time + limits.expiresAfter < l.now := by
    intro time htime
    cases h.kept time htime with
    | inl hpast => exact hpast
    | inr hheld =>
        obtain ⟨_, hcompleted, _⟩ := hheld
        rw [hitem] at hcompleted
        cases hcompleted
  constructor
  · intro time htime
    rw [htimes] at htime
    cases List.mem_append.mp htime with
    | inl hold => exact .inl (hpast time hold)
    | inr hnow =>
        rw [List.mem_singleton.mp hnow]
        exact .inr ⟨_, hnew, le_refl _⟩
  · rw [htimes]
    apply List.pairwise_append.mpr
    refine ⟨h.spaced, List.pairwise_singleton .., ?_⟩
    intro time htime later hlater
    rw [List.mem_singleton.mp hlater]
    exact hpast time htime

theorem holds_complete_other {k' : κ} (hne : k ≠ k') (h : Holds limits l k) :
    Holds limits (l.complete limits k') k := by
  have htimes : (l.complete limits k').completions k = l.completions k :=
    Function.update_of_ne hne ..
  have hsame : (l.complete limits k').item k = l.item k := Function.update_of_ne hne ..
  constructor
  · intro time htime
    rw [htimes] at htime
    rw [hsame]
    exact h.kept time htime
  · rw [htimes]
    exact h.spaced

theorem holds_step (h : Holds limits l k) (hstep : Step limits delivered l l') :
    Holds limits l' k := by
  cases hstep with
  | wait hlater =>
      refine ⟨fun time htime => ?_, h.spaced⟩
      cases h.kept time htime with
      | inl hpast => exact .inl (lt_of_lt_of_le hpast hlater)
      | inr hheld => exact .inr hheld
  | blocked => exact h
  | @start k' _ _ hfree _ =>
      by_cases hk : k = k'
      · subst hk
        refine ⟨kept_setItem h.kept ?_, h.spaced⟩
        intro expiry hitem
        exact not_le.mp (hfree _ hitem)
      · exact holds_setItem_other hk h
  | @complete k' _ _ hitem _ =>
      by_cases hk : k = k'
      · subst hk
        exact holds_complete_self h hitem
      · exact holds_complete_other hk h
  | @fail k' _ _ hitem _ =>
      by_cases hk : k = k'
      · subst hk
        refine ⟨kept_setItem h.kept ?_, h.spaced⟩
        intro expiry hcompleted
        rw [hitem] at hcompleted
        cases hcompleted
      · exact holds_setItem_other hk h
  | @expire k' _ hitem hexpired =>
      by_cases hk : k = k'
      · subst hk
        refine ⟨kept_setItem h.kept ?_, h.spaced⟩
        intro expiry hcompleted
        rw [hitem] at hcompleted
        cases hcompleted
        exact hexpired
      · exact holds_setItem_other hk h

theorem holds_reachable (h : Reachable limits delivered l) : Holds limits l k := by
  apply Transition.invariant h
  · constructor
    · intro time htime
      cases htime
    · exact List.Pairwise.nil
  · intro a b ha hab
    exact holds_step ha hab

/-! ## How long a period is safe -/

/-- A delivery after the result has expired runs the function again. -/
theorem completes_again (hdelivered : delivered k) (hduration : 0 ≤ limits.maxDuration)
    {later : ℚ} (hnonneg : 0 ≤ later) (hlater : limits.expiresAfter < later) :
    ∃ l : Layer κ, Reachable limits delivered l ∧ l.completions k = [0, later] := by
  -- The function completes at the times 0 and `later`, each time at once.
  let started (l : Layer κ) : Layer κ :=
    l.setItem k (some (.inProgress l.now (l.now + limits.expiresAfter)))
  have hstart : ∀ l : Layer κ, (∀ item, l.item k = some item → ¬ item.Blocks l.now) →
      Step limits delivered l (started l) := by
    intro l hfree
    exact .start hdelivered hfree (by linarith)
  have hcomplete : ∀ l : Layer κ, Step limits delivered (started l) ((started l).complete limits k) := by
    intro l
    have hitem : (started l).item k = some (.inProgress l.now (l.now + limits.expiresAfter)) :=
      Function.update_self ..
    exact .complete hitem (le_refl _)
  let first : Layer κ := (started .empty).complete limits k
  let second : Layer κ := first.wait later
  have hfirst : Reachable limits delivered first := by
    apply (ReflTransGen.single (hstart .empty ?_)).tail (hcomplete .empty)
    intro item hitem
    cases hitem
  have hsecond : Reachable limits delivered second := hfirst.tail (.wait hnonneg)
  have hfree : ∀ item, second.item k = some item → ¬ item.Blocks second.now := by
    intro item hitem
    have hexpired : second.item k = some (.completed (0 + limits.expiresAfter)) :=
      Function.update_self ..
    rw [hexpired] at hitem
    cases hitem
    intro hblocks
    have hle : later ≤ 0 + limits.expiresAfter := hblocks
    linarith
  refine ⟨(started second).complete limits k, (hsecond.tail (hstart second hfree)).tail
    (hcomplete second), ?_⟩
  have htimes : first.completions k = [0] := Function.update_self ..
  have hagain : ((started second).complete limits k).completions k = first.completions k ++ [later] :=
    Function.update_self ..
  rw [hagain, htimes]
  rfl

/-- The function completes at most once in a period that is no longer than results
    are kept. -/
theorem atMostOnce_of_le {period : ℚ} (hle : period ≤ limits.expiresAfter) :
    AtMostOnce limits delivered period k := by
  intro l hreach
  apply (holds_reachable hreach).spaced.imp
  intro earlier later hlt
  linarith

/-- It may complete twice in any longer one. -/
theorem le_of_atMostOnce (hdelivered : delivered k) (hduration : 0 ≤ limits.maxDuration)
    (hexpires : 0 ≤ limits.expiresAfter) {period : ℚ}
    (honce : AtMostOnce limits delivered period k) : period ≤ limits.expiresAfter := by
  by_contra hlong
  have hlt : limits.expiresAfter < period := not_le.mp hlong
  -- Halfway between the expiry and the end of the period.
  have hnonneg : 0 ≤ (limits.expiresAfter + period) / 2 := by linarith
  have hlater : limits.expiresAfter < (limits.expiresAfter + period) / 2 := by linarith
  obtain ⟨l, hreach, htimes⟩ := completes_again hdelivered hduration hnonneg hlater
  have hspaced := honce l hreach
  rw [htimes] at hspaced
  have hle := (List.pairwise_cons.mp hspaced).1 _ List.mem_cons_self
  linarith

end Idempotency
