-- SUMMARY: Programs as trees of store and service operations: their traces, their effects on a world, and attempts that may be given up at any point.

/-!
# Programs

A program either returns, raises, or asks for one operation and goes on with
the answer. Nothing here says what an operation does. A world says that, through
a relation `exec`, so the same program can be run to its end, be given up after
any operation, or be interleaved with others operation by operation.
-/

inductive Program (Op : Type) (Ans : Op → Type) (ε α : Type) where
  | ret (a : α)
  | raise (e : ε)
  | call (op : Op) (k : Ans op → Program Op Ans ε α)

namespace Program

variable {Op : Type} {Ans : Op → Type} {ε α β γ W : Type}

def bind : Program Op Ans ε α → (α → Program Op Ans ε β) → Program Op Ans ε β
  | ret a, f => f a
  | raise e, _ => raise e
  | call op k, f => call op fun answer => (k answer).bind f

instance : Monad (Program Op Ans ε) where
  pure := ret
  bind := bind

/-- Ask for one operation. -/
def perform (op : Op) : Program Op Ans ε (Ans op) := call op ret

/-- Continue with a computation that asks for nothing. -/
def ofExcept : Except ε α → Program Op Ans ε α
  | .ok a => ret a
  | .error e => raise e

/-- `try`/`except`: the exceptions `handle` knows are answered by its program. -/
def tryCatch (handle : ε → Option (Program Op Ans ε α)) :
    Program Op Ans ε α → Program Op Ans ε α
  | ret a => ret a
  | raise e => (handle e).getD (raise e)
  | call op k => call op fun answer => (k answer).tryCatch handle

@[simp] theorem pure_eq {a : α} : (pure a : Program Op Ans ε α) = ret a := rfl

@[simp] theorem ret_bind {a : α} {f : α → Program Op Ans ε β} : (ret a >>= f) = f a := rfl

@[simp] theorem raise_bind {e : ε} {f : α → Program Op Ans ε β} :
    ((raise e : Program Op Ans ε α) >>= f) = raise e := rfl

@[simp] theorem call_bind {op : Op} {k : Ans op → Program Op Ans ε α}
    {f : α → Program Op Ans ε β} :
    (call op k >>= f) = call op fun answer => k answer >>= f := rfl

@[simp] theorem perform_bind {op : Op} {f : Ans op → Program Op Ans ε β} :
    (perform op >>= f) = call op f := rfl

theorem bind_assoc {p : Program Op Ans ε α} {f : α → Program Op Ans ε β}
    {g : β → Program Op Ans ε γ} : ((p >>= f) >>= g) = (p >>= fun a => f a >>= g) := by
  induction p with
  | ret a => rfl
  | raise e => rfl
  | call op k ih =>
      simp only [call_bind]
      congr
      funext answer
      exact ih answer

@[simp] theorem ofExcept_ok {a : α} : (ofExcept (.ok a) : Program Op Ans ε α) = ret a := rfl

@[simp] theorem ofExcept_error {e : ε} :
    (ofExcept (.error e) : Program Op Ans ε α) = raise e := rfl

theorem raise_ne_ret {e : ε} {a : α} : (raise e : Program Op Ans ε α) ≠ ret a := nofun

theorem call_ne_ret {op : Op} {k : Ans op → Program Op Ans ε α} {a : α} : call op k ≠ ret a := nofun

@[simp] theorem tryCatch_ret {handle : ε → Option (Program Op Ans ε α)} {a : α} :
    (ret a).tryCatch handle = ret a := rfl

@[simp] theorem tryCatch_raise {handle : ε → Option (Program Op Ans ε α)} {e : ε} :
    (raise e).tryCatch handle = (handle e).getD (raise e) := rfl

@[simp] theorem tryCatch_call {handle : ε → Option (Program Op Ans ε α)} {op : Op}
    {k : Ans op → Program Op Ans ε α} :
    (call op k).tryCatch handle = call op fun answer => (k answer).tryCatch handle := rfl

/-! ## Traces -/

/-- An operation together with the answer it got. -/
abbrev Event (Op : Type) (Ans : Op → Type) := Σ op : Op, Ans op

/-- `Trace p events q`: asking for these operations and getting these answers
    leads from `p` to `q`. Every answer is possible here. -/
inductive Trace : Program Op Ans ε α → List (Event Op Ans) → Program Op Ans ε α → Prop where
  | nil {p} : Trace p [] p
  | cons {op k answer events q} :
      Trace (k answer) events q → Trace (call op k) (⟨op, answer⟩ :: events) q

@[simp] theorem trace_ret {a : α} {events : List (Event Op Ans)} {q : Program Op Ans ε α} :
    Trace (ret a) events q ↔ events = [] ∧ q = ret a := by
  constructor
  · intro h; cases h; exact ⟨rfl, rfl⟩
  · rintro ⟨rfl, rfl⟩; exact .nil

@[simp] theorem trace_raise {e : ε} {events : List (Event Op Ans)} {q : Program Op Ans ε α} :
    Trace (raise e) events q ↔ events = [] ∧ q = raise e := by
  constructor
  · intro h; cases h; exact ⟨rfl, rfl⟩
  · rintro ⟨rfl, rfl⟩; exact .nil

@[simp] theorem trace_call {op : Op} {k : Ans op → Program Op Ans ε α}
    {events : List (Event Op Ans)} {q : Program Op Ans ε α} :
    Trace (call op k) events q ↔
      (events = [] ∧ q = call op k) ∨
      ∃ answer rest, events = ⟨op, answer⟩ :: rest ∧ Trace (k answer) rest q := by
  constructor
  · intro h
    cases h with
    | nil => exact .inl ⟨rfl, rfl⟩
    | cons h => exact .inr ⟨_, _, rfl, h⟩
  · rintro (⟨rfl, rfl⟩ | ⟨answer, rest, rfl, h⟩)
    · exact .nil
    · exact .cons h

/-- A trace of a sequence ends inside its first part, or runs through it. -/
theorem trace_bind {p : Program Op Ans ε α} {f : α → Program Op Ans ε β}
    {events : List (Event Op Ans)} {q : Program Op Ans ε β} :
    Trace (p >>= f) events q →
      (∃ p', Trace p events p' ∧ q = (p' >>= f)) ∨
      ∃ a front back, events = front ++ back ∧ Trace p front (ret a) ∧ Trace (f a) back q := by
  induction p generalizing events with
  | ret a => intro h; exact .inr ⟨a, [], events, rfl, .nil, h⟩
  | raise e =>
      intro h
      simp only [raise_bind, trace_raise] at h
      obtain ⟨rfl, rfl⟩ := h
      exact .inl ⟨_, .nil, rfl⟩
  | call op k ih =>
      intro h
      simp only [call_bind, trace_call] at h
      rcases h with ⟨rfl, rfl⟩ | ⟨answer, rest, rfl, h⟩
      · exact .inl ⟨_, .nil, rfl⟩
      · rcases ih answer h with ⟨p', hp, rfl⟩ | ⟨a, front, back, rfl, hp, hf⟩
        · exact .inl ⟨p', .cons hp, rfl⟩
        · exact .inr ⟨a, _ :: front, back, rfl, .cons hp, hf⟩

theorem Trace.append {p q r : Program Op Ans ε α} {front back : List (Event Op Ans)}
    (h : Trace p front q) (h' : Trace q back r) : Trace p (front ++ back) r := by
  induction h with
  | nil => exact h'
  | cons _ ih => exact .cons (ih h')

/-- What comes after the first part of a trace is a trace of what that part leads to. -/
theorem Trace.rest {p q r : Program Op Ans ε α} {front : List (Event Op Ans)}
    (back : List (Event Op Ans)) (h : Trace p front q) (h' : Trace p (front ++ back) r) :
    Trace q back r := by
  induction h with
  | nil => exact h'
  | cons _ ih =>
      cases h' with
      | cons h' => exact ih h'

/-! ## Effects -/

/-- `Effects exec w events w'`: the operations, with the answers they got, take
    the world from `w` to `w'`. -/
inductive Effects (exec : (op : Op) → W → Ans op → W → Prop) :
    W → List (Event Op Ans) → W → Prop where
  | nil {w} : Effects exec w [] w
  | cons {op answer w w₁ events w'} :
      exec op w answer w₁ → Effects exec w₁ events w' → Effects exec w (⟨op, answer⟩ :: events) w'

variable {exec : (op : Op) → W → Ans op → W → Prop}

@[simp] theorem effects_nil {w w' : W} : Effects exec w [] w' ↔ w' = w := by
  constructor
  · intro h; cases h; rfl
  · rintro rfl; exact .nil

@[simp] theorem effects_cons {op : Op} {answer : Ans op} {events : List (Event Op Ans)}
    {w w' : W} :
    Effects exec w (⟨op, answer⟩ :: events) w' ↔
      ∃ w₁, exec op w answer w₁ ∧ Effects exec w₁ events w' := by
  constructor
  · intro h; cases h with | cons h h' => exact ⟨_, h, h'⟩
  · rintro ⟨w₁, h, h'⟩; exact .cons h h'

/-- What every operation of a list preserves, the list preserves. -/
theorem Effects.preserves {P : W → Prop} {events : List (Event Op Ans)} {w w' : W}
    (hstep : ∀ event ∈ events, ∀ w w', P w → exec event.1 w event.2 w' → P w')
    (h : Effects exec w events w') (hw : P w) : P w' := by
  induction h with
  | nil => exact hw
  | cons hexec _ ih =>
      exact ih (fun event hmem => hstep event (List.mem_cons_of_mem _ hmem))
        (hstep _ List.mem_cons_self _ _ hw hexec)

/-! ## Attempts -/

/-- How one attempt to run a program ended, as seen by the program: it returned,
    it raised, or it was given up at some point, possibly after its last
    operation and before its result got out. -/
inductive Outcome (ε α : Type) where
  | returned (a : α)
  | raised (e : ε)
  | lost

def Outcome.isReturned : Outcome ε α → Bool
  | .returned _ => true
  | _ => false

theorem Outcome.isReturned_iff {outcome : Outcome ε α} :
    outcome.isReturned = true ↔ ∃ a, outcome = .returned a := by
  cases outcome <;> simp [isReturned]

def Outcome.isLost : Outcome ε α → Bool
  | .lost => true
  | _ => false

def Outcome.ofExcept : Except ε α → Outcome ε α
  | .ok a => .returned a
  | .error e => .raised e

/-- Where the program stands at the end of an attempt. -/
def Outcome.At : Outcome ε α → Program Op Ans ε α → Prop
  | .returned a, p => p = ret a
  | .raised e, p => p = raise e
  | .lost, _ => True

/-- The calls a program may make in an attempt with a given outcome. -/
def Calls (p : Program Op Ans ε α) (events : List (Event Op Ans)) (outcome : Outcome ε α) : Prop :=
  ∃ q, Trace p events q ∧ outcome.At q

/-- One attempt to run a program in a world. -/
structure Attempt (exec : (op : Op) → W → Ans op → W → Prop) (p : Program Op Ans ε α) (w : W)
    (events : List (Event Op Ans)) (outcome : Outcome ε α) (w' : W) : Prop where
  calls : Calls p events outcome
  effects : Effects exec w events w'

theorem calls_ret {a : α} {events : List (Event Op Ans)} {outcome : Outcome ε α} :
    Calls (ret a : Program Op Ans ε α) events outcome ↔
      events = [] ∧ (outcome = .returned a ∨ outcome = .lost) := by
  simp only [Calls, trace_ret]
  constructor
  · rintro ⟨q, ⟨rfl, rfl⟩, h⟩
    refine ⟨rfl, ?_⟩
    cases outcome with
    | returned b => exact .inl (by simpa [Outcome.At, eq_comm] using h)
    | raised e => simp [Outcome.At] at h
    | lost => exact .inr rfl
  · rintro ⟨rfl, rfl | rfl⟩
    · exact ⟨_, ⟨rfl, rfl⟩, rfl⟩
    · exact ⟨_, ⟨rfl, rfl⟩, trivial⟩

theorem calls_raise {e : ε} {events : List (Event Op Ans)} {outcome : Outcome ε α} :
    Calls (raise e : Program Op Ans ε α) events outcome ↔
      events = [] ∧ (outcome = .raised e ∨ outcome = .lost) := by
  simp only [Calls, trace_raise]
  constructor
  · rintro ⟨q, ⟨rfl, rfl⟩, h⟩
    refine ⟨rfl, ?_⟩
    cases outcome with
    | returned b => simp [Outcome.At] at h
    | raised e' => exact .inl (by simpa [Outcome.At, eq_comm] using h)
    | lost => exact .inr rfl
  · rintro ⟨rfl, rfl | rfl⟩
    · exact ⟨_, ⟨rfl, rfl⟩, rfl⟩
    · exact ⟨_, ⟨rfl, rfl⟩, trivial⟩

theorem eq_of_calls_ret {a b : α} {events : List (Event Op Ans)}
    (h : Calls (ret a : Program Op Ans ε α) events (.returned b)) : a = b := by
  obtain ⟨_, heq | heq⟩ := calls_ret.mp h
  · injection heq with heq
    exact heq.symm
  · cases heq

theorem calls_ofExcept {x : Except ε α} {events : List (Event Op Ans)} {outcome : Outcome ε α} :
    Calls (ofExcept x : Program Op Ans ε α) events outcome ↔
      events = [] ∧ (outcome = .ofExcept x ∨ outcome = .lost) := by
  cases x with
  | ok a => exact calls_ret
  | error e => exact calls_raise

theorem not_calls_raise {e : ε} {a : α} {events : List (Event Op Ans)} :
    ¬ Calls (raise e : Program Op Ans ε α) events (.returned a) := by
  intro h
  obtain ⟨_, heq | heq⟩ := calls_raise.mp h
  · cases heq
  · cases heq

theorem calls_call {op : Op} {k : Ans op → Program Op Ans ε α} {events : List (Event Op Ans)}
    {outcome : Outcome ε α} :
    Calls (call op k) events outcome ↔
      (events = [] ∧ outcome = .lost) ∨
      ∃ answer rest, events = ⟨op, answer⟩ :: rest ∧ Calls (k answer) rest outcome := by
  simp only [Calls, trace_call]
  constructor
  · rintro ⟨q, ⟨rfl, rfl⟩ | ⟨answer, rest, rfl, htrace⟩, hat⟩
    · cases outcome <;> simp_all [Outcome.At]
    · exact .inr ⟨answer, rest, rfl, q, htrace, hat⟩
  · rintro (⟨rfl, rfl⟩ | ⟨answer, rest, rfl, q, htrace, hat⟩)
    · exact ⟨_, .inl ⟨rfl, rfl⟩, trivial⟩
    · exact ⟨q, .inr ⟨answer, rest, rfl, htrace⟩, hat⟩

theorem calls_call_cons {op : Op} {k : Ans op → Program Op Ans ε α} {answer : Ans op}
    {rest : List (Event Op Ans)} {outcome : Outcome ε α} :
    Calls (call op k) (⟨op, answer⟩ :: rest) outcome ↔ Calls (k answer) rest outcome := by
  rw [calls_call]
  constructor
  · intro h
    cases h with
    | inl hstopped => cases hstopped.1
    | inr hmore =>
        obtain ⟨reply, later, heq, hlater⟩ := hmore
        cases heq
        exact hlater
  · intro h
    exact .inr ⟨answer, rest, rfl, h⟩

/-! ## Silent programs -/

/-- A program that asks for nothing. -/
def Silent : Program Op Ans ε α → Prop
  | ret _ | raise _ => True
  | call .. => False

theorem silent_ofExcept {x : Except ε α} : (ofExcept x : Program Op Ans ε α).Silent := by
  cases x <;> trivial

theorem Silent.bind {p : Program Op Ans ε α} {f : α → Program Op Ans ε β} (hp : p.Silent)
    (hf : ∀ a, (f a).Silent) : (p >>= f).Silent := by
  cases p with
  | ret a => exact hf a
  | raise e => trivial
  | call op k => exact hp.elim

theorem Silent.calls {p : Program Op Ans ε α} (hp : p.Silent) {events : List (Event Op Ans)}
    {outcome : Outcome ε α} (h : Calls p events outcome) : events = [] := by
  cases p with
  | ret a => exact (calls_ret.mp h).1
  | raise e => exact (calls_raise.mp h).1
  | call op k => exact hp.elim

/-- A trace of a sequence that begins silently is empty, or it is one of the
    rest. -/
theorem trace_silent_bind {p : Program Op Ans ε α} {f : α → Program Op Ans ε β} (hp : p.Silent)
    {events : List (Event Op Ans)} {q : Program Op Ans ε β} (h : Trace (p >>= f) events q) :
    (events = [] ∧ ∃ e, q = raise e) ∨ ∃ a, p = ret a ∧ Trace (f a) events q := by
  cases p with
  | ret a => exact .inr ⟨a, rfl, h⟩
  | raise e =>
      obtain ⟨rfl, rfl⟩ := trace_raise.mp h
      exact .inl ⟨rfl, e, rfl⟩
  | call op k => exact hp.elim

/-! ## Running -/

/-- Run a program in a world whose operations are functions. With `some n` the
    attempt is given up before operation `n + 1`, or before the result gets out
    if there are only `n`. -/
def run (answer : (op : Op) → W → Ans op × W) :
    Program Op Ans ε α → Option Nat → W → List (Event Op Ans) × Outcome ε α × W
  | _, some 0, w => ([], .lost, w)
  | ret a, none, w => ([], .returned a, w)
  | ret _, some _, w => ([], .lost, w)
  | raise e, none, w => ([], .raised e, w)
  | raise _, some _, w => ([], .lost, w)
  | call op k, cut, w =>
    let (reply, w₁) := answer op w
    let (events, outcome, w') := run answer (k reply) (cut.map (· - 1)) w₁
    (⟨op, reply⟩ :: events, outcome, w')

/-- A run is one of the attempts the world allows. -/
theorem run_attempt {answer : (op : Op) → W → Ans op × W}
    (hanswer : ∀ op w, exec op w (answer op w).1 (answer op w).2)
    (p : Program Op Ans ε α) (cut : Option Nat) (w : W) :
    Attempt exec p w (run answer p cut w).1 (run answer p cut w).2.1 (run answer p cut w).2.2 := by
  induction p generalizing cut w with
  | ret a =>
      rcases cut with _ | _ | n
      · exact ⟨⟨_, .nil, rfl⟩, .nil⟩
      · exact ⟨⟨_, .nil, trivial⟩, .nil⟩
      · exact ⟨⟨_, .nil, trivial⟩, .nil⟩
  | raise e =>
      rcases cut with _ | _ | n
      · exact ⟨⟨_, .nil, rfl⟩, .nil⟩
      · exact ⟨⟨_, .nil, trivial⟩, .nil⟩
      · exact ⟨⟨_, .nil, trivial⟩, .nil⟩
  | call op k ih =>
      rcases cut with _ | _ | n
      · obtain ⟨⟨q, htrace, hat⟩, heffects⟩ := ih (answer op w).1 none (answer op w).2
        exact ⟨⟨q, .cons htrace, hat⟩, .cons (hanswer op w) heffects⟩
      · exact ⟨⟨_, .nil, trivial⟩, .nil⟩
      · obtain ⟨⟨q, htrace, hat⟩, heffects⟩ := ih (answer op w).1 (some n) (answer op w).2
        exact ⟨⟨q, .cons htrace, hat⟩, .cons (hanswer op w) heffects⟩

/-- A run that is not cut short has a result or an exception. -/
theorem run_none_ne_lost {answer : (op : Op) → W → Ans op × W} (p : Program Op Ans ε α) (w : W) :
    (run answer p none w).2.1 ≠ .lost := by
  induction p generalizing w with
  | ret a => nofun
  | raise e => nofun
  | call op k ih => exact ih (answer op w).1 (answer op w).2

end Program
