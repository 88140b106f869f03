-- SUMMARY: Polls of one job whose operations interleave, and when the record keeps to the highest attempt number written.
import ServerlessPatterns.Library.Interleaving
import ServerlessPatterns.Library.VersionedRegister
import ServerlessPatterns.LongRunning.Lifecycle

/-!
# Overlapping polls

An attempt number is counted atomically, but the status and the progress that belong
to it are written later, over whatever is there. So the record is a register whose
versions are the attempt numbers: a poll that was overtaken by one of a higher number
puts an older result over the newer one.
-/

namespace LongRunning

open Program

/-- Any number of polls in progress. -/
abbrev Polls (ι : Type) := Pool ι Op Ans Exc Json World
abbrev Poll := Thread Op Ans Exc Json

variable {ι : Type} {py : Python} {env : Env} {reads : Reads} {k : String} {n : Int} {fail : Bool}
  {r r' r₀ : JobRecord} {w w' : World} {poll : Poll} {pool pool' : Polls ι}

/-! ## The result of an attempt number -/

/-- What a record shows of the job. -/
structure Shown where
  status : Json
  progress : Int

instance : Preorder Shown where
  le s s' := Forward s.status s'.status ∧ s.progress ≤ s'.progress
  le_refl _ := ⟨.inl rfl, le_rfl⟩
  le_trans _ _ _ h h' := ⟨h.1.trans h'.1, h.2.trans h'.2⟩

def JobRecord.shown (r : JobRecord) : Shown := ⟨r.status, r.progress⟩

def result (py : Python) (n : Int) (fail : Bool) (a : Int) : Shown where
  status := pollStatus n fail a
  progress := (progressAt py n fail a).toOption.getD 0

/-- A number whose result can be computed. -/
def Computable (py : Python) (n : Int) (fail : Bool) (a : Int) : Prop :=
  ∃ p, progressAt py n fail a = .ok p

theorem result_progress {a p : Int} (h : progressAt py n fail a = .ok p) :
    result py n fail a = ⟨pollStatus n fail a, p⟩ := by
  simp [result, h, Except.toOption]

theorem result_mono {a b : Int} (hab : a ≤ b) (ha : Computable py n fail a)
    (hb : Computable py n fail b) : result py n fail a ≤ result py n fail b := by
  obtain ⟨p, hp⟩ := ha
  obtain ⟨q, hq⟩ := hb
  rw [result_progress hp, result_progress hq]
  exact ⟨pollStatus_forward hab, progressAt_mono hab hp hq⟩

/-- The percentage of the polls that the job is simulated to take, as a poll rounds it. -/
def percentage (py : Python) (n a : Int) : Except Exc Int :=
  (py.divide (100 * a) (max n 1)).map fun quotient => min 100 (Python.roundHalfEven quotient)

/-- Two attempts at which the job is simulated alike: it has succeeded by the first of
    them, or it does not succeed by the second and the percentages are the same. -/
def Alike (py : Python) (n : Int) (fail : Bool) (a b : Int) : Prop :=
  (fail = false ∧ n ≤ a) ∨ ((fail = true ∨ b < n) ∧ percentage py n a = percentage py n b)

theorem progressAt_succeeded {a p : Int} (h : progressAt py n fail a = .ok p)
    (hdone : fail = false ∧ n ≤ a) : p = 100 := by
  obtain ⟨x, _, rfl⟩ := progressAt_eq_ok.mp h
  exact if_pos hdone

theorem percentage_of_progressAt {a p : Int} (h : progressAt py n fail a = .ok p)
    (hdone : ¬ (fail = false ∧ n ≤ a)) : percentage py n a = .ok p := by
  obtain ⟨x, hx, rfl⟩ := progressAt_eq_ok.mp h
  rw [percentage, hx, if_neg hdone]
  rfl

theorem alike_iff {a b : Int} (hab : a < b) (ha : Computable py n fail a)
    (hb : Computable py n fail b) : Alike py n fail a b ↔ result py n fail a = result py n fail b := by
  obtain ⟨p, hp⟩ := ha
  obtain ⟨q, hq⟩ := hb
  rw [result_progress hp, result_progress hq, Shown.mk.injEq]
  by_cases hsucceeded : fail = false ∧ n ≤ a
  · have hlater : fail = false ∧ n ≤ b := ⟨hsucceeded.1, by omega⟩
    rw [progressAt_succeeded hp hsucceeded, progressAt_succeeded hq hlater,
      pollStatus_eq_succeeded.mpr hsucceeded, pollStatus_eq_succeeded.mpr hlater]
    exact ⟨fun _ => ⟨rfl, rfl⟩, fun _ => .inl hsucceeded⟩
  · by_cases hlater : fail = false ∧ n ≤ b
    · constructor
      · rintro (hdone | ⟨hfail | hlt, _⟩)
        · exact absurd hdone hsucceeded
        · rw [hlater.1] at hfail
          cases hfail
        · omega
      · intro hsame
        rw [pollStatus_eq_succeeded.mpr hlater, pollStatus_eq_succeeded] at hsame
        exact absurd hsame.1 hsucceeded
    · have hstatus : pollStatus n fail a = pollStatus n fail b := by
        unfold pollStatus
        cases fail with
        | true => rfl
        | false =>
            have ha : ¬ n ≤ a := fun hle => hsucceeded ⟨rfl, hle⟩
            have hb : ¬ n ≤ b := fun hle => hlater ⟨rfl, hle⟩
            simp only [ha, hb, if_false]
      have hrunning : fail = true ∨ b < n := by
        cases fail with
        | true => exact .inl rfl
        | false => exact .inr (lt_of_not_ge fun hle => hlater ⟨rfl, hle⟩)
      unfold Alike
      rw [percentage_of_progressAt hp hsucceeded, percentage_of_progressAt hq hlater]
      simp [hsucceeded, hrunning, hstatus]

/-! ## The stages of a poll -/

/-- The poll was given attempt number `a`. -/
def Holds (k : String) (a : Int) (poll : Poll) : Prop :=
  (⟨.incrementAttempt (.str k), .ok a⟩ : Program.Event Op Ans) ∈ poll.events

/-- The poll has written its result. -/
def Wrote (k : String) (a : Int) (poll : Poll) : Prop :=
  Holds k a poll ∧ ∃ status progress,
    (⟨.updateProgress (.str k) status progress, .ok ()⟩ : Program.Event Op Ans) ∈ poll.events

/-- What a poll does once it has its number. -/
def afterCount (py : Python) (env : Env) (k : String) (n : Int) (fail : Bool) (a : Int) :
    Handler Json :=
  .ofExcept (progressAt py n fail a) >>= fun p =>
    .call (.updateProgress (.str k) (pollStatus n fail a) p) fun answer =>
      .ofExcept answer >>= fun _ => .ret (pollReport py env k n fail a p)

inductive Stage (py : Python) (env : Env) (k : String) (n : Int) (fail : Bool) : Poll → Prop where
  | unread : Stage py env k n fail ⟨.call (.get (.str k)) (afterRead py env k), []⟩
  | missed {e answer} : Stage py env k n fail ⟨.raise e, [⟨.get (.str k), answer⟩]⟩
  | found {answer} : Stage py env k n fail ⟨recordPoll py env k n fail, [⟨.get (.str k), answer⟩]⟩
  | counted {answer a} :
      Stage py env k n fail ⟨afterCount py env k n fail a,
        [⟨.get (.str k), answer⟩, ⟨.incrementAttempt (.str k), .ok a⟩]⟩
  | recorded {answer a p} (hp : progressAt py n fail a = .ok p) :
      Stage py env k n fail ⟨.ret (pollReport py env k n fail a p),
        [⟨.get (.str k), answer⟩, ⟨.incrementAttempt (.str k), .ok a⟩,
          ⟨.updateProgress (.str k) (pollStatus n fail a) p, .ok ()⟩]⟩

/-- What the next operation of a poll does: nothing, or it takes the next number, or it
    writes the result of the number it has. -/
inductive Progressed (py : Python) (k : String) (n : Int) (fail : Bool) (r : JobRecord) (w : World)
    (poll poll' : Poll) : World → Prop where
  | read (hholds : ∀ a, ¬ Holds k a poll') (hwrote : ∀ a, ¬ Wrote k a poll) :
      Progressed py k n fail r w poll poll' w
  | counted {item : Json} (hitem : { r with attempts := r.attempts + 1 }.Describes item)
      (hholds : ∀ a, Holds k a poll' ↔ a = r.attempts + 1) (hwrote : ∀ a, ¬ Wrote k a poll)
      (hwrote' : ∀ a, ¬ Wrote k a poll') :
      Progressed py k n fail r w poll poll' (w.store (w.table.write k item))
  | recorded {item : Json} {a p : Int} (hp : progressAt py n fail a = .ok p)
      (hitem : { r with status := pollStatus n fail a, progress := p }.Describes item)
      (hheld : Holds k a poll) (hholds : ∀ b, Holds k b poll' ↔ Holds k b poll)
      (hwrote : ∀ b, ¬ Wrote k b poll) (hwrote' : ∀ b, Wrote k b poll' ↔ b = a) :
      Progressed py k n fail r w poll poll' (w.store (w.table.write k item))

theorem Stage.step {op : Op} {rest : Ans op → Handler Json} {answer : Ans op}
    (h : Stage py env k n fail poll) (hne : k ≠ "") (hshows : Shows k r w.table)
    (hconsistent : Consistent k n fail (reads.visible w)) (hprogram : poll.program = .call op rest)
    (hexec : exec py reads op w answer w') :
    Stage py env k n fail ⟨rest answer, poll.events ++ [⟨op, answer⟩]⟩ ∧
      Progressed py k n fail r w poll ⟨rest answer, poll.events ++ [⟨op, answer⟩]⟩ w' := by
  cases h with
  | unread =>
      cases hprogram
      have hfetched : w' = w ∧ (_ ∨ afterRead py env k answer = recordPoll py env k n fail) :=
        exec_get hne hconsistent hexec
      obtain ⟨rfl, hread⟩ := hfetched
      refine ⟨?_, .read (by simp [Holds]) (by simp [Wrote, Holds])⟩
      rcases hread with ⟨_, rfl⟩ | hfound
      · exact .missed
      · rw [hfound]
        exact .found
  | missed => cases hprogram
  | found =>
      cases hprogram
      obtain ⟨rfl, item, rfl, hitem⟩ := exec_incrementAttempt hne hshows hexec
      exact ⟨.counted, .counted hitem (by simp [Holds]) (by simp [Wrote, Holds]) (by simp [Wrote])⟩
  | @counted answer a =>
      unfold afterCount at hprogram
      cases hp : progressAt py n fail a with
      | error e =>
          rw [hp] at hprogram
          cases hprogram
      | ok p =>
          rw [hp] at hprogram
          cases hprogram
          obtain ⟨rfl, item, rfl, hitem⟩ :=
            exec_updateProgress hne hshows pollStatus_hasFloat hexec
          refine ⟨.recorded hp, .recorded hp hitem (a := a) ?_ ?_ ?_ ?_⟩
          · simp [Holds]
          · simp [Holds]
          · simp [Wrote]
          · intro b
            simp [Wrote, Holds]
  | recorded => cases hprogram

/-! ## The record as a register -/

/-- The attempt numbers whose results were written. -/
def Written (k : String) (pool : Polls ι) : Set Int := {a | ∃ i, Wrote k a (pool.thread i)}

def register (k : String) (r : JobRecord) (pool : Polls ι) : VersionedRegister Int Shown where
  written := Written k pool
  stored := r.shown

/-- What ties the polls of a pool to the record. -/
structure Overlapping (py : Python) (env : Env) (k : String) (n : Int) (fail : Bool) (r₀ r : JobRecord)
    (pool : Polls ι) : Prop where
  stage : ∀ i, Stage py env k n fail (pool.thread i)
  shows : Shows k r pool.world.table
  consistent : Consistent k n fail pool.world.history
  started : r₀.attempts ≤ r.attempts
  numbered : ∀ i a, Holds k a (pool.thread i) → r₀.attempts < a ∧ a ≤ r.attempts
  distinct : ∀ i j a, Holds k a (pool.thread i) → Holds k a (pool.thread j) → i = j

theorem Consistent.store {item : Json} (h : Consistent k n fail w.history) (hshows : Shows k r w.table)
    (hitem : r'.Describes item) (hn : r'.succeedAfter = r.succeedAfter)
    (hfail : r'.failJob = r.failJob) :
    Consistent k n fail (w.store (w.table.write k item)).history := by
  obtain ⟨hn', hfail'⟩ := h.simulated List.mem_cons_self hshows
  intro t hmem
  cases List.mem_cons.mp hmem with
  | inl heq =>
      subst heq
      exact .inr ⟨r', ⟨item, Table.write_self, hitem⟩, hn.trans hn', hfail.trans hfail'⟩
  | inr hpast => exact h t hpast

/-- Without a new number handed out, the polls stay tied to the record. -/
theorem Overlapping.unnumbered (h : Overlapping py env k n fail r₀ r pool)
    (hstages : ∀ j, Stage py env k n fail (pool'.thread j)) (hshows : Shows k r' pool'.world.table)
    (hconsistent : Consistent k n fail pool'.world.history) (hattempts : r'.attempts = r.attempts)
    (hholding : ∀ j a, Holds k a (pool'.thread j) → Holds k a (pool.thread j)) :
    Overlapping py env k n fail r₀ r' pool' where
  stage := hstages
  shows := hshows
  consistent := hconsistent
  started := hattempts ▸ h.started
  numbered j a hj := hattempts ▸ h.numbered j a (hholding j a hj)
  distinct j l a hj hl := h.distinct j l a (hholding j a hj) (hholding l a hl)

section

variable [DecidableEq ι] {i : ι} {op : Op} {answer : Ans op} {rest : Handler Json}

/-- A poll of the new pool is the one that went on, or an old one. -/
theorem holds_answered {j : ι} {a : Int}
    (h : Holds k a ((pool.answered i op answer rest w).thread j)) :
    (j = i ∧ Holds k a ⟨rest, (pool.thread i).events ++ [⟨op, answer⟩]⟩) ∨
      (j ≠ i ∧ Holds k a (pool.thread j)) := by
  by_cases hj : j = i
  · subst hj
    rw [Pool.answered_self] at h
    exact .inl ⟨rfl, h⟩
  · rw [Pool.answered_ne hj] at h
    exact .inr ⟨hj, h⟩

/-- What a poll has not written anew was written before. -/
theorem written_same
    (h : ∀ a, Wrote k a ⟨rest, (pool.thread i).events ++ [⟨op, answer⟩]⟩ ↔ Wrote k a (pool.thread i)) :
    Written k (pool.answered i op answer rest w) = Written k pool := by
  ext a
  refine exists_congr fun j => ?_
  by_cases hj : j = i
  · subst hj
    rw [Pool.answered_self]
    exact h a
  · rw [Pool.answered_ne hj]

theorem written_insert {a : Int} (hbefore : ∀ b, ¬ Wrote k b (pool.thread i))
    (h : ∀ b, Wrote k b ⟨rest, (pool.thread i).events ++ [⟨op, answer⟩]⟩ ↔ b = a) :
    Written k (pool.answered i op answer rest w) = insert a (Written k pool) := by
  ext b
  constructor
  · rintro ⟨j, hwrote⟩
    by_cases hj : j = i
    · subst hj
      rw [Pool.answered_self, h] at hwrote
      exact .inl hwrote
    · rw [Pool.answered_ne hj] at hwrote
      exact .inr ⟨j, hwrote⟩
  · rintro (rfl | ⟨j, hwrote⟩)
    · exact ⟨i, by rw [Pool.answered_self, h]⟩
    · have hj : j ≠ i := by
        rintro rfl
        exact hbefore b hwrote
      exact ⟨j, by rwa [Pool.answered_ne hj]⟩

/-- A step of a poll is a step of the register. -/
theorem overlapping_step (h : Overlapping py env k n fail r₀ r pool) (hne : k ≠ "")
    (hstep : Pool.Step (exec py reads) pool pool') :
    ∃ r', Overlapping py env k n fail r₀ r' pool' ∧
      VersionedRegister.Step (fun a => r₀.attempts < a ∧ Computable py n fail a) (result py n fail)
        (register k r pool) (register k r' pool') := by
  cases hstep with
  | @operation i op rest answer w hprogram hexec =>
  obtain ⟨hstage, hprogressed⟩ := (h.stage i).step hne h.shows
    (fun t hmem => h.consistent t (Reads.visible_history t hmem)) hprogram hexec
  have hstages : ∀ j, Stage py env k n fail ((pool.answered i op answer (rest answer) w).thread j) := by
    intro j
    by_cases hj : j = i
    · subst hj
      rwa [Pool.answered_self]
    · rw [Pool.answered_ne hj]
      exact h.stage j
  have hheld : ∀ {j a}, Holds k a ((pool.answered i op answer (rest answer) w).thread j) → _ :=
    holds_answered
  generalize hpolled : (⟨rest answer, (pool.thread i).events ++ [⟨op, answer⟩]⟩ : Poll) = poll'
    at hprogressed hheld
  cases hprogressed with
  | read hholds hwrote =>
      have hwrote' : ∀ a, ¬ Wrote k a poll' := fun a hwrote => hholds a hwrote.1
      have hholding : ∀ j a, Holds k a ((pool.answered i op answer (rest answer) pool.world).thread j) →
          Holds k a (pool.thread j) := by
        intro j a hholds'
        rcases hheld hholds' with ⟨_, hnew⟩ | ⟨_, hold⟩
        · exact absurd hnew (hholds a)
        · exact hold
      refine ⟨r, h.unnumbered hstages h.shows h.consistent rfl hholding, ?_⟩
      have hsame : register k r (pool.answered i op answer (rest answer) pool.world) = register k r pool := by
        unfold register
        rw [written_same fun a => by rw [hpolled]; exact iff_of_false (hwrote' a) (hwrote a)]
      rw [hsame]
      exact .idle
  | @counted item hitem hholds hwrote hwrote' =>
      have hshows : Shows k { r with attempts := r.attempts + 1 } (pool.world.table.write k item) :=
        ⟨item, Table.write_self, hitem⟩
      -- The new number is higher than all that were handed out.
      have hnew : ∀ j, j ≠ i → ¬ Holds k (r.attempts + 1) (pool.thread j) := by
        intro j _ hj
        have hle := (h.numbered j _ hj).2
        omega
      refine ⟨_, ⟨hstages, hshows, h.consistent.store h.shows hitem rfl rfl, ?_, ?_, ?_⟩, ?_⟩
      · exact h.started.trans (by simp only; omega)
      · intro j a hj
        rcases hheld hj with ⟨_, hcounted⟩ | ⟨_, hold⟩
        · rw [(hholds a).mp hcounted]
          exact ⟨by have := h.started; omega, le_rfl⟩
        · have hnumbered := h.numbered j a hold
          exact ⟨hnumbered.1, hnumbered.2.trans (by simp only; omega)⟩
      · intro j l a hj hl
        rcases hheld hj with ⟨rfl, hcounted⟩ | ⟨hji, hold⟩
        · rcases hheld hl with ⟨rfl, _⟩ | ⟨hli, hold⟩
          · rfl
          · rw [(hholds a).mp hcounted] at hold
            exact absurd hold (hnew l hli)
        · rcases hheld hl with ⟨rfl, hcounted⟩ | ⟨_, hold'⟩
          · rw [(hholds a).mp hcounted] at hold
            exact absurd hold (hnew j hji)
          · exact h.distinct j l a hold hold'
      · have hsame : register k { r with attempts := r.attempts + 1 } (pool.answered i op answer
            (rest answer) (pool.world.store (pool.world.table.write k item))) = register k r pool := by
          unfold register
          rw [written_same fun a => by rw [hpolled]; exact iff_of_false (hwrote' a) (hwrote a)]
          rfl
        rw [hsame]
        exact .idle
  | @recorded item a p hp hitem hheldBefore hholds hwrote hwrote' =>
      have hshows : Shows k { r with status := pollStatus n fail a, progress := p }
          (pool.world.table.write k item) := ⟨item, Table.write_self, hitem⟩
      have hholding : ∀ j b, Holds k b ((pool.answered i op answer (rest answer)
          (pool.world.store (pool.world.table.write k item))).thread j) → Holds k b (pool.thread j) := by
        intro j b hj
        rcases hheld hj with ⟨rfl, hnew⟩ | ⟨_, hold⟩
        · exact (hholds b).mp hnew
        · exact hold
      refine ⟨_, h.unnumbered hstages hshows (h.consistent.store h.shows hitem rfl rfl) rfl hholding,
        ?_⟩
      have hwritten : register k { r with status := pollStatus n fail a, progress := p }
          (pool.answered i op answer (rest answer) (pool.world.store (pool.world.table.write k item))) =
          (register k r pool).write (result py n fail) a := by
        unfold register VersionedRegister.write
        rw [written_insert hwrote fun b => by rw [hpolled]; exact hwrote' b, result_progress hp]
        rfl
      rw [hwritten]
      refine .write ⟨(h.numbered i a hheldBefore).1, p, hp⟩ ?_
      rintro ⟨j, hj⟩
      have heq := h.distinct j i a hj.1 hheldBefore
      subst heq
      exact hwrote a hj

end

/-! ## Runs -/

/-- The record shows the result of the highest attempt number whose result was
    written. -/
def Current (py : Python) (k : String) (n : Int) (fail : Bool) (pool : Polls ι) : Prop :=
  ∀ a, IsGreatest (Written k pool) a → ∃ r, Shows k r pool.world.table ∧
    r.status = pollStatus n fail a ∧ progressAt py n fail a = .ok r.progress

/-- No poll puts its result over that of a higher attempt number, unless the job is
    simulated alike at both. -/
def Orderly (py : Python) (k : String) (n : Int) (fail : Bool) (pool pool' : Polls ι) : Prop :=
  ∀ a, a ∉ Written k pool → a ∈ Written k pool' →
    ∀ b, IsGreatest (Written k pool) b → a < b → Alike py n fail a b

/-- No update of the job is lost. -/
structure UpdatesKept (py : Python) (k : String) (n : Int) (fail : Bool) (state : Nat → Polls ι) :
    Prop where
  current : ∀ i, Current py k n fail (state i)
  progress : ∀ i j, i ≤ j → ∀ r r', Shows k r (state i).world.table →
    Shows k r' (state j).world.table → r.progress ≤ r'.progress
  status : ∀ i j, i ≤ j → ∀ r r', Shows k r (state i).world.table →
    Shows k r' (state j).world.table → r.status = statusSucceeded → r'.status ≠ statusRunning

/-- A run of any number of polls of job `k`, from a record that its earlier polls left. -/
structure OverlappingPolls (py : Python) (env : Env) (reads : Reads) (k : String) (n : Int)
    (fail : Bool) (r₀ : JobRecord) (event : ι → Json) (state : Nat → Polls ι) [DecidableEq ι] : Prop where
  named : k ≠ ""
  jobs : ∀ i, jobIdOf (event i) = .ok (.str k)
  start : ∃ w, state 0 = Pool.init w (fun i => pollJob py env (event i)) ∧
    Shows k r₀ w.table ∧ Consistent k n fail w.history
  lawful : r₀.Lawful py n fail
  next : ∀ i, state (i + 1) = state i ∨ Pool.Step (exec py reads) (state i) (state (i + 1))

variable {event : ι → Json} {state : Nat → Polls ι}

theorem written_init {program : ι → Handler Json} : Written k (Pool.init w program) = ∅ := by
  simp [Written, Wrote, Holds, Pool.init]

theorem overlapping_init (hne : k ≠ "") (hjobs : ∀ i, jobIdOf (event i) = .ok (.str k))
    (hshows : Shows k r₀ w.table) (hconsistent : Consistent k n fail w.history) :
    Overlapping py env k n fail r₀ r₀ (Pool.init w fun i => pollJob py env (event i)) where
  stage i := by
    simp only [Pool.init]
    rw [pollJob_eq (hjobs i) hne]
    exact .unread
  shows := hshows
  consistent := hconsistent
  started := le_rfl
  numbered i a hholds := by simp [Holds, Pool.init] at hholds
  distinct i j a hholds := by simp [Holds, Pool.init] at hholds

variable [DecidableEq ι]

/-- Along a run, the record is a register that the polls write. -/
theorem OverlappingPolls.registers
    (h : OverlappingPolls py env reads k n fail r₀ event state) :
    ∃ record : Nat → JobRecord, (∀ i, Shows k (record i) (state i).world.table) ∧ record 0 = r₀ ∧
      ∀ i, VersionedRegister.Step (fun a => r₀.attempts < a ∧ Computable py n fail a)
        (result py n fail) (register k (record i) (state i))
        (register k (record (i + 1)) (state (i + 1))) := by
  obtain ⟨w, hinit, hshows, hconsistent⟩ := h.start
  have hrecords : ∀ i, ∃ r, Overlapping py env k n fail r₀ r (state i) := by
    intro i
    induction i with
    | zero =>
        rw [hinit]
        exact ⟨r₀, overlapping_init h.named h.jobs hshows hconsistent⟩
    | succ i ih =>
        obtain ⟨r, hr⟩ := ih
        cases h.next i with
        | inl hidle =>
            rw [hidle]
            exact ⟨r, hr⟩
        | inr hstep =>
            obtain ⟨r', hr', _⟩ := overlapping_step hr h.named hstep
            exact ⟨r', hr'⟩
  choose record hrecord using hrecords
  refine ⟨record, fun i => (hrecord i).shows, ?_, ?_⟩
  · have hshows₀ := (hrecord 0).shows
    rw [hinit] at hshows₀
    exact hshows₀.unique hshows
  · intro i
    cases h.next i with
    | inl hidle =>
        have hsame := (hrecord (i + 1)).shows
        rw [hidle] at hsame ⊢
        rw [hsame.unique (hrecord i).shows]
        exact .idle
    | inr hstep =>
        obtain ⟨r', hr', hregister⟩ := overlapping_step (hrecord i) h.named hstep
        rw [(hrecord (i + 1)).shows.unique hr'.shows]
        exact hregister

/-- Without a poll that puts its result over that of a later attempt, overlapping polls
    lose no update, and with one they do. -/
theorem updatesKept_iff (h : OverlappingPolls py env reads k n fail r₀ event state) :
    UpdatesKept py k n fail state ↔ ∀ i, Orderly py k n fail (state i) (state (i + 1)) := by
  obtain ⟨record, hshows, hfirst, hsteps⟩ := h.registers
  obtain ⟨w, hinit, _⟩ := h.start
  have hnone : Written k (state 0) = ∅ := by
    rw [hinit]
    exact written_init
  have hvalid : ∀ i, ∀ a ∈ Written k (state i), r₀.attempts < a ∧ Computable py n fail a :=
    VersionedRegister.valid_of_written hsteps (by simp [register, hnone])
  have hcurrent : ∀ i, Current py k n fail (state i) ↔
      VersionedRegister.Current (result py n fail) (register k (record i) (state i)) := by
    intro i
    refine forall_congr' fun a => forall_congr' fun ha => ?_
    obtain ⟨p, hp⟩ := (hvalid i a ha.1).2
    rw [result_progress hp]
    constructor
    · rintro ⟨r, hr, hstatus, hprogress⟩
      cases hr.unique (hshows i)
      cases hp.symm.trans hprogress
      simp only [register, JobRecord.shown, hstatus]
    · intro hstored
      simp only [register, JobRecord.shown, Shown.mk.injEq] at hstored
      exact ⟨record i, hshows i, hstored.1, by rw [hp, hstored.2]⟩
  have horderly : ∀ i, Orderly py k n fail (state i) (state (i + 1)) ↔
      VersionedRegister.Orderly (result py n fail) (register k (record i) (state i))
        (register k (record (i + 1)) (state (i + 1))) := by
    intro i
    refine forall_congr' fun a => forall_congr' fun _ => forall_congr' fun hwritten =>
      forall_congr' fun b => forall_congr' fun hb => forall_congr' fun hlt => ?_
    exact alike_iff hlt (hvalid (i + 1) a hwritten).2 (hvalid i b hb.1).2
  have hregister := VersionedRegister.current_iff_orderly hsteps (by
    intro a ha
    simp [register, hnone, IsGreatest] at ha)
  constructor
  · intro hkept i
    rw [horderly]
    exact hregister.mp (fun j => (hcurrent j).mp (hkept.current j)) i
  · intro hall
    have hregisters := hregister.mpr fun i => (horderly i).mp (hall i)
    have hmono : Monotone fun i => (register k (record i) (state i)).stored := by
      apply monotone_nat_of_le_succ
      apply VersionedRegister.stored_le hsteps hnone
      · rintro a ⟨hlt, p, hp⟩
        obtain ⟨hprogress, hstatus⟩ := h.lawful.before hlt hp
        simp only [register, hfirst, result_progress hp]
        exact ⟨hstatus, hprogress⟩
      · rintro a b ⟨_, ha⟩ ⟨_, hb⟩ hab
        exact result_mono hab ha hb
      · exact hregisters
    refine ⟨fun i => (hcurrent i).mpr (hregisters i), ?_, ?_⟩
    · intro i j hij r r' hr hr'
      cases hr.unique (hshows i)
      cases hr'.unique (hshows j)
      exact (hmono hij).2
    · intro i j hij r r' hr hr' hsucceeded hrunning
      cases hr.unique (hshows i)
      cases hr'.unique (hshows j)
      have hforward : Forward (record i).status (record j).status := (hmono hij).1
      rw [hsucceeded, hrunning] at hforward
      exact absurd hforward (by decide : ¬ (statusSucceeded = statusRunning ∨
        (statusSucceeded, statusRunning) ∈ statusChanges))

/-- A poll is given up after it took number 1. Its retry takes number 2, on which the job
    succeeds, and writes that. Then the first poll writes what it computed. -/
def overtaken (i : Nat) : Polls Bool :=
  (Pool.init (answer .sample (.create (.str "report-987") 2 false .null none) emptyWorld).2 fun _ =>
    pollJob .sample sampleEnv (carrying (jobReport (.str "report-987") statusRunning 0 false 0 30))).schedule
      (answer .sample) ([true, true, false, false, false, true].take i)

theorem overtaken_polls : OverlappingPolls .sample sampleEnv .current "report-987" 2 false
    (.fresh 2 false)
    (fun _ => carrying (jobReport (.str "report-987") statusRunning 0 false 0 30)) overtaken where
  named := by decide
  jobs _ := rfl
  start := by
    refine ⟨_, rfl, by decide +kernel, ?_⟩
    intro t hmem
    cases List.mem_cons.mp hmem with
    | inl heq =>
        subst heq
        exact .inr ⟨.fresh 2 false, by decide +kernel, rfl, rfl⟩
    | inr hpast =>
        rw [List.mem_singleton.mp hpast]
        exact .inl rfl
  lawful := .fresh
  next := Pool.schedule_take_step answer_exec _ _

theorem updatesKept_iff_overtaken : UpdatesKept .sample "report-987" 2 false overtaken ↔
    ∀ i, Orderly .sample "report-987" 2 false (overtaken i) (overtaken (i + 1)) :=
  updatesKept_iff overtaken_polls

theorem overtaken_update_lost : OverlappingPolls .sample sampleEnv .current "report-987" 2 false
    (.fresh 2 false)
    (fun _ => carrying (jobReport (.str "report-987") statusRunning 0 false 0 30)) overtaken ∧
    ¬ UpdatesKept .sample "report-987" 2 false overtaken := by
  refine ⟨overtaken_polls, fun h => ?_⟩
  have hbefore : Shows "report-987" ⟨2, false, 2, statusSucceeded, 100⟩ (overtaken 5).world.table := by
    decide +kernel
  have hafter : Shows "report-987" ⟨2, false, 2, statusRunning, 50⟩ (overtaken 6).world.table := by
    decide +kernel
  exact absurd (h.progress 5 6 (by decide) _ _ hbefore hafter) (by decide)

end LongRunning
