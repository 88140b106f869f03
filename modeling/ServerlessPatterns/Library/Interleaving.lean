-- SUMMARY: Pools of programs that run interleaved, one operation at a time, in a shared world.
import Mathlib.Logic.Function.Basic
import Mathlib.Logic.Relation
import ServerlessPatterns.Library.Program

/-!
# Interleaving

Any number of programs share a world. A step performs one operation of one of
them, so the others come in between any two of its operations. Nothing forces a
program to be scheduled again: one that is not is a crashed one.

What the environment does besides is up to the user of this module, who adds
steps of his own that change the world alone.
-/

/-- What is left of a program, and the operations it has performed. -/
structure Thread (Op : Type) (Ans : Op → Type) (ε α : Type) where
  program : Program Op Ans ε α
  events : List (Program.Event Op Ans)

structure Pool (ι Op : Type) (Ans : Op → Type) (ε α W : Type) where
  world : W
  thread : ι → Thread Op Ans ε α

namespace Pool

open Program

variable {ι Op ε α W : Type} {Ans : Op → Type}

/-- All programs at their beginning. -/
def init (world : W) (program : ι → Program Op Ans ε α) : Pool ι Op Ans ε α W where
  world := world
  thread i := ⟨program i, []⟩

/-- Every thread has come to where it stands by a trace of its program. -/
def Traced (program : ι → Program Op Ans ε α) (pool : Pool ι Op Ans ε α W) : Prop :=
  ∀ i, Trace (program i) (pool.thread i).events (pool.thread i).program

theorem traced_init {world : W} {program : ι → Program Op Ans ε α} :
    (init world program).Traced program :=
  fun _ => .nil

variable [DecidableEq ι]

/-- The pool after thread `i` got an answer. -/
def answered (pool : Pool ι Op Ans ε α W) (i : ι) (op : Op) (answer : Ans op)
    (rest : Program Op Ans ε α) (world : W) : Pool ι Op Ans ε α W where
  world := world
  thread := Function.update pool.thread i ⟨rest, (pool.thread i).events ++ [⟨op, answer⟩]⟩

inductive Step (exec : (op : Op) → W → Ans op → W → Prop) :
    Pool ι Op Ans ε α W → Pool ι Op Ans ε α W → Prop where
  | operation {pool i op k answer world}
      (hprogram : (pool.thread i).program = .call op k)
      (hexec : exec op pool.world answer world) :
      Step exec pool (pool.answered i op answer (k answer) world)

variable {pool : Pool ι Op Ans ε α W} {i j : ι} {op : Op} {answer : Ans op}
  {rest : Program Op Ans ε α} {world : W}

@[simp] theorem answered_world : (pool.answered i op answer rest world).world = world := rfl

@[simp] theorem answered_self :
    (pool.answered i op answer rest world).thread i =
      ⟨rest, (pool.thread i).events ++ [⟨op, answer⟩]⟩ := by
  simp [answered]

@[simp] theorem answered_ne (h : j ≠ i) :
    (pool.answered i op answer rest world).thread j = pool.thread j := by
  simp [answered, h]

/-- An operation performed after a step was performed before, or in it. -/
theorem mem_answered_events {event : Event Op Ans} :
    event ∈ ((pool.answered i op answer rest world).thread j).events ↔
      event ∈ (pool.thread j).events ∨ (j = i ∧ event = ⟨op, answer⟩) := by
  by_cases hj : j = i
  · subst hj
    simp
  · simp [hj]

/-- An event other than the last one was there before. -/
theorem mem_answered_events_of_ne {event : Event Op Ans} (hne : event ≠ ⟨op, answer⟩) :
    event ∈ ((pool.answered i op answer rest world).thread j).events ↔
      event ∈ (pool.thread j).events := by
  simp [mem_answered_events, hne]

theorem Traced.answered {program : ι → Program Op Ans ε α} (h : pool.Traced program)
    {k : Ans op → Program Op Ans ε α} (hprogram : (pool.thread i).program = .call op k) :
    (pool.answered i op answer (k answer) world).Traced program := by
  intro j
  by_cases hj : j = i
  · subst hj
    have htrace := h j
    rw [hprogram] at htrace
    simpa using htrace.append (.cons .nil)
  · simpa [hj] using h j

/-! ## Scheduling -/

/-- Let thread `i` perform its next operation, if it has one. -/
def advance (answer : (op : Op) → W → Ans op × W) (i : ι) (pool : Pool ι Op Ans ε α W) :
    Pool ι Op Ans ε α W :=
  match (pool.thread i).program with
  | .call op k =>
    let (reply, world) := answer op pool.world
    pool.answered i op reply (k reply) world
  | _ => pool

theorem advance_step {exec : (op : Op) → W → Ans op → W → Prop} {answer : (op : Op) → W → Ans op × W}
    (hanswer : ∀ op w, exec op w (answer op w).1 (answer op w).2) (i : ι)
    (pool : Pool ι Op Ans ε α W) :
    pool.advance answer i = pool ∨ Step exec pool (pool.advance answer i) := by
  cases hprogram : (pool.thread i).program with
  | call op k =>
      right
      have hstep := Step.operation hprogram (hanswer op pool.world)
      simpa only [advance, hprogram] using hstep
  | _ => exact .inl (by simp only [advance, hprogram])

/-- Let threads perform operations in a given order. -/
def schedule (answer : (op : Op) → W → Ans op × W) (pool : Pool ι Op Ans ε α W) :
    List ι → Pool ι Op Ans ε α W
  | [] => pool
  | i :: rest => (pool.advance answer i).schedule answer rest

theorem schedule_reachable {exec : (op : Op) → W → Ans op → W → Prop}
    {answer : (op : Op) → W → Ans op × W}
    (hanswer : ∀ op w, exec op w (answer op w).1 (answer op w).2) (order : List ι)
    (pool : Pool ι Op Ans ε α W) :
    Relation.ReflTransGen (Step exec) pool (pool.schedule answer order) := by
  induction order generalizing pool with
  | nil => exact .refl
  | cons i rest ih =>
      rcases advance_step hanswer i pool with hidle | hstep
      · rw [schedule, hidle]
        exact ih pool
      · exact .head hstep (ih _)

theorem schedule_append {answer : (op : Op) → W → Ans op × W} {pool : Pool ι Op Ans ε α W}
    {order order' : List ι} :
    pool.schedule answer (order ++ order') = (pool.schedule answer order).schedule answer order' := by
  induction order generalizing pool with
  | nil => rfl
  | cons i rest ih => exact ih

/-- The pools on the way of a schedule are a run. -/
theorem schedule_take_step {exec : (op : Op) → W → Ans op → W → Prop}
    {answer : (op : Op) → W → Ans op × W}
    (hanswer : ∀ op w, exec op w (answer op w).1 (answer op w).2) (order : List ι)
    (pool : Pool ι Op Ans ε α W) (n : Nat) :
    pool.schedule answer (order.take (n + 1)) = pool.schedule answer (order.take n) ∨
      Step exec (pool.schedule answer (order.take n)) (pool.schedule answer (order.take (n + 1))) := by
  rw [List.take_add_one, schedule_append]
  cases order[n]? with
  | none => exact .inl rfl
  | some i => exact advance_step hanswer i (pool.schedule answer (order.take n))

end Pool
