-- SUMMARY: How often a program may ask for operations of one kind.
import Mathlib.Algebra.GroupWithZero.Nat
import ServerlessPatterns.Library.Contract

/-!
# Occurrences

A bound on the operations of one kind that a program asks for, whatever it is
answered and wherever it is given up. It is checked on the program text, like a
contract.
-/

namespace Program

variable {Op : Type} {Ans : Op → Type} {ε α β : Type} {about : Op → Prop} {m n : Nat}

/-- The program asks at most `n` times for an operation of the kind. -/
def AtMost (about : Op → Prop) : Nat → Program Op Ans ε α → Prop
  | _, ret _ => True
  | _, raise _ => True
  | n, call op k => (about op → 0 < n) ∧
      (∀ answer, about op → AtMost about (n - 1) (k answer)) ∧
      ∀ answer, ¬ about op → AtMost about n (k answer)

theorem atMost_ret {a : α} : AtMost about n (ret a : Program Op Ans ε α) := trivial

theorem atMost_raise {e : ε} : AtMost about n (raise e : Program Op Ans ε α) := trivial

theorem atMost_about {op : Op} {k : Ans op → Program Op Ans ε α} (hop : about op)
    (hk : ∀ answer, AtMost about n (k answer)) : AtMost about (n + 1) (call op k) :=
  ⟨fun _ => n.succ_pos, fun answer _ => hk answer, fun _ hnot => absurd hop hnot⟩

theorem atMost_other {op : Op} {k : Ans op → Program Op Ans ε α} (hop : ¬ about op)
    (hk : ∀ answer, AtMost about n (k answer)) : AtMost about n (call op k) :=
  ⟨fun h => absurd h hop, fun _ h => absurd h hop, fun answer _ => hk answer⟩

theorem atMost_ofExcept {x : Except ε α} :
    AtMost about n (ofExcept x : Program Op Ans ε α) := by
  cases x with
  | ok a => exact atMost_ret
  | error e => exact atMost_raise

theorem AtMost.mono {p : Program Op Ans ε α} (hp : AtMost about m p) (hle : m ≤ n) :
    AtMost about n p := by
  induction p generalizing m n with
  | ret a => trivial
  | raise e => trivial
  | call op k ih =>
      obtain ⟨hpos, habout, hother⟩ := hp
      refine ⟨fun h => Nat.lt_of_lt_of_le (hpos h) hle, fun answer h => ?_, fun answer h => ?_⟩
      · exact ih answer (habout answer h) (Nat.sub_le_sub_right hle 1)
      · exact ih answer (hother answer h) hle

theorem AtMost.bind {p : Program Op Ans ε α} {f : α → Program Op Ans ε β} (hp : AtMost about m p)
    (hf : ∀ a, AtMost about n (f a)) : AtMost about (m + n) (p >>= f) := by
  induction p generalizing m with
  | ret a => exact (hf a).mono (Nat.le_add_left n m)
  | raise e => trivial
  | call op k ih =>
      obtain ⟨hpos, habout, hother⟩ := hp
      refine ⟨fun h => Nat.add_pos_left (hpos h) n, fun answer h => ?_, fun answer h => ?_⟩
      · rw [Nat.sub_add_comm (hpos h)]
        exact ih answer (habout answer h)
      · exact ih answer (hother answer h)

/-- A program that asks for nothing of the kind before the rest does. -/
theorem AtMost.then {p : Program Op Ans ε α} {f : α → Program Op Ans ε β} (hp : AtMost about 0 p)
    (hf : ∀ a, AtMost about n (f a)) : AtMost about n (p >>= f) :=
  Nat.zero_add n ▸ hp.bind hf

theorem AtMost.tryCatch {p : Program Op Ans ε α} {handle : ε → Option (Program Op Ans ε α)}
    (hp : AtMost about m p) (hhandle : ∀ e q, handle e = some q → AtMost about n q) :
    AtMost about (m + n) (p.tryCatch handle) := by
  induction p generalizing m with
  | ret a => trivial
  | raise e =>
      rw [tryCatch_raise]
      cases he : handle e with
      | none => trivial
      | some q => exact (hhandle e q he).mono (Nat.le_add_left n m)
  | call op k ih =>
      obtain ⟨hpos, habout, hother⟩ := hp
      refine ⟨fun h => Nat.add_pos_left (hpos h) n, fun answer h => ?_, fun answer h => ?_⟩
      · rw [Nat.sub_add_comm (hpos h)]
        exact ih answer (habout answer h)
      · exact ih answer (hother answer h)

/-- Exceptions that are answered without an operation of the kind. -/
theorem AtMost.handled {p : Program Op Ans ε α} {handle : ε → Option (Program Op Ans ε α)}
    (hp : AtMost about n p) (hhandle : ∀ e q, handle e = some q → AtMost about 0 q) :
    AtMost about n (p.tryCatch handle) :=
  hp.tryCatch hhandle

/-- A loop asks for as many as its items do together. -/
theorem atMost_collect {body : α → Program Op Ans ε (Option β)} {bound : α → Nat} {xs : List α}
    {acc : List β} (hbody : ∀ x ∈ xs, AtMost about (bound x) (body x)) :
    AtMost about (xs.map bound).sum (collect body xs acc) := by
  induction xs generalizing acc with
  | nil => exact atMost_ret
  | cons x xs ih =>
      obtain ⟨hx, hxs⟩ := List.forall_mem_cons.mp hbody
      rw [List.map_cons, List.sum_cons]
      exact hx.bind fun y => ih hxs

theorem none_collect {body : α → Program Op Ans ε (Option β)} {xs : List α} {acc : List β}
    (hbody : ∀ x ∈ xs, AtMost about 0 (body x)) : AtMost about 0 (collect body xs acc) := by
  induction xs generalizing acc with
  | nil => exact atMost_ret
  | cons x xs ih =>
      obtain ⟨hx, hxs⟩ := List.forall_mem_cons.mp hbody
      exact hx.then fun y => ih hxs

/-- What the bound says about an attempt. -/
theorem AtMost.calls [DecidablePred about] {p : Program Op Ans ε α} (hp : AtMost about n p)
    {events : List (Event Op Ans)} {outcome : Outcome ε α} (h : Calls p events outcome) :
    events.countP (fun event => about event.1) ≤ n := by
  induction p generalizing events n with
  | ret a => simp [(calls_ret.mp h).1]
  | raise e => simp [(calls_raise.mp h).1]
  | call op k ih =>
      obtain ⟨hpos, habout, hother⟩ := hp
      rcases calls_call.mp h with ⟨rfl, _⟩ | ⟨answer, rest, rfl, hrest⟩
      · simp
      · rw [List.countP_cons]
        by_cases hop : about op
        · have hle := ih answer (habout answer hop) hrest
          have := hpos hop
          simp only [hop, decide_true, if_true]
          omega
        · have hle := ih answer (hother answer hop) hrest
          simpa [hop] using hle

theorem AtMost.none {p : Program Op Ans ε α} (hp : AtMost about 0 p) {events : List (Event Op Ans)}
    {outcome : Outcome ε α} (h : Calls p events outcome) : ∀ event ∈ events, ¬ about event.1 := by
  classical
  intro event hevent
  have hcount := List.countP_eq_zero.mp (Nat.le_zero.mp (hp.calls h)) event hevent
  simpa using hcount

end Program
