-- SUMMARY: Any number of calls that go through an idempotency layer at once, and what the answers they get say about the function behind it.
import ServerlessPatterns.Library.Idempotency

/-!
# Callers

Each call has a key, if it comes that far. Calls with one key meet in the layer and
nowhere else. A call that runs the function finds its own item there as long as its
deadline has not come, which is why it may replace or delete what it finds.
-/

namespace Idempotency

open Relation

/-- Where a call stands. -/
inductive Phase where
  | waiting
  | running (deadline expiry : ℚ)
  | answered
  | refused

structure Callers (ι κ : Type) where
  layer : Layer κ
  phase : ι → Phase

variable {ι κ : Type}

namespace Callers

def start : Callers ι κ := ⟨.empty, fun _ => .waiting⟩

section Moves

variable [DecidableEq ι]

/-- Call `i` comes into the phase and leaves the layer like that. -/
def move (c : Callers ι κ) (i : ι) (phase : Phase) (layer : Layer κ) : Callers ι κ :=
  ⟨layer, Function.update c.phase i phase⟩

@[simp] theorem move_layer {c : Callers ι κ} {i : ι} {phase : Phase} {layer : Layer κ} :
    (c.move i phase layer).layer = layer := rfl

@[simp] theorem move_phase_self {c : Callers ι κ} {i : ι} {phase : Phase} {layer : Layer κ} :
    (c.move i phase layer).phase i = phase := Function.update_self ..

theorem move_phase_ne {c : Callers ι κ} {i j : ι} {phase : Phase} {layer : Layer κ} (h : j ≠ i) :
    (c.move i phase layer).phase j = c.phase j := Function.update_of_ne h ..

end Moves

variable [DecidableEq κ]

inductive Step [DecidableEq ι] (limits : Limits) (key : ι → Option κ) : Callers ι κ → Callers ι κ → Prop where
  | wait {c : Callers ι κ} {later : ℚ} (hlater : c.layer.now ≤ later) :
      Step limits key c ⟨c.layer.wait later, c.phase⟩
  | expire {c : Callers ι κ} {k : κ} {item : Item} (hitem : c.layer.item k = some item)
      (hexpired : item.expiry < c.layer.now) : Step limits key c ⟨c.layer.setItem k none, c.phase⟩
  /-- The stored result is the answer. -/
  | replay {c : Callers ι κ} {i : ι} {k : κ} {expiry : ℚ} (hkey : key i = some k)
      (hwaiting : c.phase i = .waiting) (hitem : c.layer.item k = some (.completed expiry))
      (hblocks : (Item.completed expiry).Blocks c.layer.now) :
      Step limits key c (c.move i .answered c.layer)
  | refuse {c : Callers ι κ} {i : ι} {k : κ} {deadline expiry : ℚ} (hkey : key i = some k)
      (hwaiting : c.phase i = .waiting) (hitem : c.layer.item k = some (.inProgress deadline expiry))
      (hblocks : (Item.inProgress deadline expiry).Blocks c.layer.now) :
      Step limits key c (c.move i .refused c.layer)
  | begin {c : Callers ι κ} {i : ι} {k : κ} {deadline : ℚ} (hkey : key i = some k)
      (hwaiting : c.phase i = .waiting)
      (hfree : ∀ item, c.layer.item k = some item → ¬ item.Blocks c.layer.now)
      (hdeadline : deadline ≤ c.layer.now + limits.maxDuration) :
      Step limits key c (c.move i (.running deadline (c.layer.now + limits.expiresAfter))
        (c.layer.setItem k (some (.inProgress deadline (c.layer.now + limits.expiresAfter)))))
  | complete {c : Callers ι κ} {i : ι} {k : κ} {deadline expiry : ℚ} (hkey : key i = some k)
      (hrunning : c.phase i = .running deadline expiry) (halive : c.layer.now ≤ deadline) :
      Step limits key c (c.move i .answered (c.layer.complete limits k))
  /-- The function raised, and the call deletes its item. -/
  | fail {c : Callers ι κ} {i : ι} {k : κ} {deadline expiry : ℚ} (hkey : key i = some k)
      (hrunning : c.phase i = .running deadline expiry) (halive : c.layer.now ≤ deadline) :
      Step limits key c (c.move i .refused (c.layer.setItem k none))
  /-- The call ends without a word to the layer: it never had a key, or it was cut off. -/
  | giveUp {c : Callers ι κ} {i : ι} (hopen : c.phase i ≠ .answered) :
      Step limits key c (c.move i .refused c.layer)

/-- A call runs the function under the key and has not come to its deadline. -/
def Alive (key : ι → Option κ) (c : Callers ι κ) (i : ι) (k : κ) (deadline expiry : ℚ) : Prop :=
  key i = some k ∧ c.phase i = .running deadline expiry ∧ c.layer.now ≤ deadline

/-- What ties the calls to the layer. -/
structure Sound (limits : Limits) (key : ι → Option κ) (c : Callers ι κ) : Prop where
  /-- The layer sees the calls as deliveries under their keys. -/
  layer : Idempotency.Reachable limits (fun k => ∃ i, key i = some k) c.layer
  locked : ∀ i deadline expiry, c.phase i = .running deadline expiry → deadline ≤ expiry
  owned : ∀ i k deadline expiry, Alive key c i k deadline expiry →
    c.layer.item k = some (.inProgress deadline expiry)
  single : ∀ i j k deadline deadline' expiry expiry', Alive key c i k deadline expiry →
    Alive key c j k deadline' expiry' → i = j
  completed : ∀ k expiry, c.layer.item k = some (.completed expiry) → c.layer.completions k ≠ []
  answered : ∀ i, c.phase i = .answered → ∃ k, key i = some k ∧ c.layer.completions k ≠ []

variable {limits : Limits} {key : ι → Option κ} {c c' : Callers ι κ} {i j : ι} {k : κ}
  {deadline expiry : ℚ} {phase : Phase}

theorem sound_start : Sound limits key .start where
  layer := .refl
  locked := nofun
  owned := by
    rintro i k deadline expiry ⟨_, hrunning, _⟩
    cases hrunning
  single := by
    rintro i j k deadline deadline' expiry expiry' ⟨_, hrunning, _⟩
    cases hrunning
  completed := nofun
  answered := nofun

section

variable [DecidableEq ι]

omit [DecidableEq κ] in
/-- A call that still runs has not been moved. -/
theorem Alive.of_move {layer : Layer κ} (hphase : ∀ deadline expiry, phase ≠ .running deadline expiry)
    (h : Alive key (c.move i phase layer) j k deadline expiry) (hnow : layer.now = c.layer.now) :
    j ≠ i ∧ Alive key c j k deadline expiry := by
  obtain ⟨hkey, hrunning, halive⟩ := h
  have hne : j ≠ i := by
    rintro rfl
    rw [move_phase_self] at hrunning
    exact hphase _ _ hrunning
  rw [move_phase_ne hne] at hrunning
  rw [move_layer, hnow] at halive
  exact ⟨hne, hkey, hrunning, halive⟩

/-- A call that leaves its function or never gets to it. -/
theorem Sound.move (h : Sound limits key c) {layer : Layer κ} (hnow : layer.now = c.layer.now)
    (hphase : ∀ deadline expiry, phase ≠ .running deadline expiry)
    (hlayer : Idempotency.Reachable limits (fun k => ∃ i, key i = some k) layer)
    (howned : ∀ j k deadline expiry, j ≠ i → Alive key c j k deadline expiry →
      layer.item k = some (.inProgress deadline expiry))
    (hcompleted : ∀ k expiry, layer.item k = some (.completed expiry) → layer.completions k ≠ [])
    (hkept : ∀ k, c.layer.completions k ≠ [] → layer.completions k ≠ [])
    (hanswered : phase = .answered → ∃ k, key i = some k ∧ layer.completions k ≠ []) :
    Sound limits key (c.move i phase layer) where
  layer := hlayer
  locked j deadline expiry hrunning := by
    by_cases hj : j = i
    · subst hj
      rw [move_phase_self] at hrunning
      exact absurd hrunning (hphase _ _)
    · rw [move_phase_ne hj] at hrunning
      exact h.locked j deadline expiry hrunning
  owned j k deadline expiry halive := by
    obtain ⟨hne, hbefore⟩ := halive.of_move hphase hnow
    exact howned j k deadline expiry hne hbefore
  single a b k deadline deadline' expiry expiry' ha hb :=
    h.single a b k deadline deadline' expiry expiry' (ha.of_move hphase hnow).2
      (hb.of_move hphase hnow).2
  completed := hcompleted
  answered j hj := by
    by_cases heq : j = i
    · subst heq
      rw [move_phase_self] at hj
      exact hanswered hj
    · rw [move_phase_ne heq] at hj
      obtain ⟨k, hkey, hdone⟩ := h.answered j hj
      exact ⟨k, hkey, hkept k hdone⟩

end

/-! ## Steps -/

/-- A call that runs keeps everyone else from its key. -/
theorem Sound.not_free (h : Sound limits key c) (halive : Alive key c i k deadline expiry) :
    ∃ item, c.layer.item k = some item ∧ item.Blocks c.layer.now :=
  ⟨_, h.owned i k deadline expiry halive, halive.2.2,
    le_trans halive.2.2 (h.locked i deadline expiry halive.2.1)⟩

theorem Sound.delivered (h : Sound limits key c) {layer : Layer κ}
    (hstep : Idempotency.Step limits (fun k => ∃ i, key i = some k) c.layer layer) :
    Idempotency.Reachable limits (fun k => ∃ i, key i = some k) layer := h.layer.tail hstep

theorem item_setItem {l : Layer κ} {k' : κ} {item : Option Item} (hne : k' ≠ k) :
    (l.setItem k item).item k' = l.item k' := Function.update_of_ne hne ..

theorem Sound.wait (h : Sound limits key c) {later : ℚ} (hlater : c.layer.now ≤ later) :
    Sound limits key ⟨c.layer.wait later, c.phase⟩ where
  layer := h.delivered (.wait hlater)
  locked := h.locked
  owned := by
    rintro i k deadline expiry ⟨hkey, hrunning, halive⟩
    exact h.owned i k deadline expiry ⟨hkey, hrunning, le_trans hlater halive⟩
  single := by
    rintro i j k deadline deadline' expiry expiry' ⟨hkey, hrunning, halive⟩ ⟨hkey', hrunning', halive'⟩
    exact h.single i j k deadline deadline' expiry expiry' ⟨hkey, hrunning, le_trans hlater halive⟩
      ⟨hkey', hrunning', le_trans hlater halive'⟩
  completed := h.completed
  answered := h.answered

theorem Sound.expire (h : Sound limits key c) {item : Item} (hitem : c.layer.item k = some item)
    (hexpired : item.expiry < c.layer.now) : Sound limits key ⟨c.layer.setItem k none, c.phase⟩ where
  layer := h.delivered (.expire hitem hexpired)
  locked := h.locked
  owned := by
    intro i k' deadline expiry halive
    -- An item does not expire before the deadline of its call.
    have hne : k' ≠ k := by
      rintro rfl
      rw [h.owned i k' deadline expiry halive, Option.some.injEq] at hitem
      subst hitem
      have hlocked := h.locked i deadline expiry halive.2.1
      exact absurd (le_trans halive.2.2 hlocked) (not_le.mpr hexpired)
    rw [item_setItem hne]
    exact h.owned i k' deadline expiry halive
  single := h.single
  completed := by
    intro k' expiry hcompleted
    by_cases hk : k' = k
    · subst hk
      have hnone : (c.layer.setItem k' none).item k' = none := Function.update_self ..
      cases hnone.symm.trans hcompleted
    · rw [item_setItem hk] at hcompleted
      exact h.completed k' expiry hcompleted
  answered := h.answered

variable [DecidableEq ι]

/-- A call that says nothing to the layer, and does not run. -/
theorem Sound.quiet (h : Sound limits key c)
    (hphase : ∀ deadline expiry, phase ≠ .running deadline expiry)
    (hanswered : phase = .answered → ∃ k, key i = some k ∧ c.layer.completions k ≠ []) :
    Sound limits key (c.move i phase c.layer) :=
  h.move rfl hphase h.layer (fun j k deadline expiry _ => h.owned j k deadline expiry) h.completed
    (fun _ => id) hanswered

theorem Sound.begin (h : Sound limits key c) (hle : limits.maxDuration ≤ limits.expiresAfter)
    (hkey : key i = some k) (hfree : ∀ item, c.layer.item k = some item → ¬ item.Blocks c.layer.now)
    (hdeadline : deadline ≤ c.layer.now + limits.maxDuration) :
    Sound limits key (c.move i (.running deadline (c.layer.now + limits.expiresAfter))
      (c.layer.setItem k (some (.inProgress deadline (c.layer.now + limits.expiresAfter))))) := by
  -- Nobody else runs under the key, or it would not be free.
  have halone : ∀ j deadline expiry, ¬ Alive key c j k deadline expiry := by
    intro j deadline expiry halive
    obtain ⟨item, hitem, hblocks⟩ := h.not_free halive
    exact hfree item hitem hblocks
  have hcases : ∀ j k' d e, Alive key (c.move i (.running deadline (c.layer.now + limits.expiresAfter))
      (c.layer.setItem k (some (.inProgress deadline (c.layer.now + limits.expiresAfter))))) j k' d e →
      (j = i ∧ k' = k ∧ d = deadline ∧ e = c.layer.now + limits.expiresAfter) ∨
        (j ≠ i ∧ k' ≠ k ∧ Alive key c j k' d e) := by
    rintro j k' d e ⟨hkey', hrunning, halive⟩
    by_cases hj : j = i
    · subst hj
      rw [move_phase_self] at hrunning
      cases hrunning
      exact .inl ⟨rfl, Option.some.inj (hkey'.symm.trans hkey), rfl, rfl⟩
    · rw [move_phase_ne hj] at hrunning
      refine .inr ⟨hj, ?_, hkey', hrunning, halive⟩
      rintro rfl
      exact halone j d e ⟨hkey', hrunning, halive⟩
  refine ⟨h.delivered (.start ⟨i, hkey⟩ hfree hdeadline), ?_, ?_, ?_, ?_, ?_⟩
  · intro j d e hrunning
    by_cases hj : j = i
    · subst hj
      rw [move_phase_self] at hrunning
      cases hrunning
      linarith
    · rw [move_phase_ne hj] at hrunning
      exact h.locked j d e hrunning
  · intro j k' d e halive
    rcases hcases j k' d e halive with ⟨rfl, rfl, rfl, rfl⟩ | ⟨_, hk, hbefore⟩
    · exact Function.update_self ..
    · exact (item_setItem hk).trans (h.owned j k' d e hbefore)
  · intro a b k' d d' e e' ha hb
    rcases hcases a k' d e ha with ⟨rfl, rfl, _⟩ | ⟨_, hk, ha⟩
    · rcases hcases b k' d' e' hb with ⟨rfl, _⟩ | ⟨_, hk, _⟩
      · rfl
      · exact absurd rfl hk
    · rcases hcases b k' d' e' hb with ⟨_, rfl, _⟩ | ⟨_, _, hb⟩
      · exact absurd rfl hk
      · exact h.single a b k' d d' e e' ha hb
  · intro k' e hcompleted
    by_cases hk : k' = k
    · subst hk
      have hnew : (c.layer.setItem k' (some (.inProgress deadline (c.layer.now +
          limits.expiresAfter)))).item k' = _ := Function.update_self ..
      cases hnew.symm.trans hcompleted
    · exact h.completed k' e ((item_setItem hk).symm.trans hcompleted)
  · intro j hj
    by_cases heq : j = i
    · subst heq
      rw [move_phase_self] at hj
      cases hj
    · rw [move_phase_ne heq] at hj
      exact h.answered j hj

theorem Sound.complete (h : Sound limits key c) (halive : Alive key c i k deadline expiry) :
    Sound limits key (c.move i .answered (c.layer.complete limits k)) := by
  have hdone : (c.layer.complete limits k).completions k ≠ [] := by
    have hnew : (c.layer.complete limits k).completions k = c.layer.completions k ++ [c.layer.now] :=
      Function.update_self ..
    rw [hnew]
    simp
  refine h.move rfl nofun (h.delivered (.complete (h.owned i k deadline expiry halive) halive.2.2))
    ?_ ?_ ?_ fun _ => ⟨k, halive.1, hdone⟩
  · intro j k' d e hj hbefore
    have hk : k' ≠ k := by
      rintro rfl
      exact hj (h.single j i k' d deadline e expiry hbefore halive)
    exact (item_setItem hk).trans (h.owned j k' d e hbefore)
  · intro k' e hcompleted
    by_cases hk : k' = k
    · exact hk ▸ hdone
    · have hother : (c.layer.complete limits k).completions k' = c.layer.completions k' :=
        Function.update_of_ne hk ..
      rw [hother]
      exact h.completed k' e ((item_setItem hk).symm.trans hcompleted)
  · intro k' hbefore
    by_cases hk : k' = k
    · exact hk ▸ hdone
    · have hother : (c.layer.complete limits k).completions k' = c.layer.completions k' :=
        Function.update_of_ne hk ..
      rwa [hother]

theorem Sound.fail (h : Sound limits key c) (halive : Alive key c i k deadline expiry) :
    Sound limits key (c.move i .refused (c.layer.setItem k none)) := by
  refine h.move rfl nofun (h.delivered (.fail (h.owned i k deadline expiry halive) halive.2.2))
    ?_ ?_ (fun _ => id) nofun
  · intro j k' d e hj hbefore
    have hk : k' ≠ k := by
      rintro rfl
      exact hj (h.single j i k' d deadline e expiry hbefore halive)
    exact (item_setItem hk).trans (h.owned j k' d e hbefore)
  · intro k' e hcompleted
    by_cases hk : k' = k
    · subst hk
      have hnone : (c.layer.setItem k' none).item k' = none := Function.update_self ..
      cases hnone.symm.trans hcompleted
    · exact h.completed k' e ((item_setItem hk).symm.trans hcompleted)

theorem sound_step (hle : limits.maxDuration ≤ limits.expiresAfter) (h : Sound limits key c)
    (hstep : Step limits key c c') : Sound limits key c' := by
  cases hstep with
  | wait hlater => exact h.wait hlater
  | expire hitem hexpired => exact h.expire hitem hexpired
  | replay hkey _ hitem _ => exact h.quiet nofun fun _ => ⟨_, hkey, h.completed _ _ hitem⟩
  | refuse => exact h.quiet nofun nofun
  | begin hkey _ hfree hdeadline => exact h.begin hle hkey hfree hdeadline
  | complete hkey hrunning halive => exact h.complete ⟨hkey, hrunning, halive⟩
  | fail hkey hrunning halive => exact h.fail ⟨hkey, hrunning, halive⟩
  | giveUp => exact h.quiet nofun nofun

/-! ## Answers -/

omit [DecidableEq κ] in
theorem answered_move (hopen : c.phase i ≠ .answered) {layer : Layer κ}
    (h : c.phase j = .answered) : (c.move i phase layer).phase j = .answered := by
  have hne : j ≠ i := by
    rintro rfl
    exact hopen h
  rwa [move_phase_ne hne]

/-- A call that has its answer is over. -/
theorem answered_step (h : c.phase j = .answered) (hstep : Step limits key c c') :
    c'.phase j = .answered := by
  cases hstep with
  | wait => exact h
  | expire => exact h
  | replay _ hwaiting => exact answered_move (by rw [hwaiting]; nofun) h
  | refuse _ hwaiting => exact answered_move (by rw [hwaiting]; nofun) h
  | begin _ hwaiting => exact answered_move (by rw [hwaiting]; nofun) h
  | complete _ hrunning => exact answered_move (by rw [hrunning]; nofun) h
  | fail _ hrunning => exact answered_move (by rw [hrunning]; nofun) h
  | giveUp hopen => exact answered_move hopen h

end Callers

end Idempotency
