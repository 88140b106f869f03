-- SUMMARY: Contracts for programs: what they ask for, what they return and what they raise, given what they are answered.
import Mathlib.Data.List.Forall2
import ServerlessPatterns.Library.Program

/-!
# Contracts

A contract says which operations a program asks for and what holds of a value it
returns or an exception it raises, as long as the operations are answered as
expected. It is checked on the program text, rule by rule, without looking at
traces. `Meets.calls` carries it over to every attempt.
-/

namespace Program

variable {Op : Type} {Ans : Op → Type} {ε α β W : Type}
  {asks asks' : Op → Prop} {expected : (op : Op) → Ans op → Prop}
  {post post' : α → Prop} {raises : ε → Prop}

def Meets (asks : Op → Prop) (expected : (op : Op) → Ans op → Prop) (raises : ε → Prop)
    (post : α → Prop) : Program Op Ans ε α → Prop
  | ret a => post a
  | raise e => raises e
  | call op k => asks op ∧ ∀ answer, expected op answer → Meets asks expected raises post (k answer)

theorem meets_ret {a : α} (h : post a) :
    (ret a : Program Op Ans ε α).Meets asks expected raises post := h

theorem meets_raise {e : ε} (h : raises e) :
    (raise e : Program Op Ans ε α).Meets asks expected raises post := h

theorem meets_call {op : Op} {k : Ans op → Program Op Ans ε α} (hop : asks op)
    (hk : ∀ answer, expected op answer → (k answer).Meets asks expected raises post) :
    (call op k).Meets asks expected raises post := ⟨hop, hk⟩

theorem meets_ofExcept {x : Except ε α} (hok : ∀ a, x = .ok a → post a)
    (herror : ∀ e, x = .error e → raises e) :
    (ofExcept x : Program Op Ans ε α).Meets asks expected raises post := by
  cases x with
  | ok a => exact hok a rfl
  | error e => exact herror e rfl

theorem meets_any {x : Except ε α} :
    (ofExcept x : Program Op Ans ε α).Meets asks expected (fun _ => True) fun _ => True :=
  meets_ofExcept (fun _ _ => trivial) fun _ _ => trivial

theorem Meets.bind {p : Program Op Ans ε α} {f : α → Program Op Ans ε β} {post' : β → Prop}
    (hp : p.Meets asks expected raises post)
    (hf : ∀ a, post a → (f a).Meets asks expected raises post') :
    (p >>= f).Meets asks expected raises post' := by
  induction p with
  | ret a => exact hf a hp
  | raise e => exact hp
  | call op k ih => exact ⟨hp.1, fun answer h => ih answer (hp.2 answer h)⟩

/-- Weaken what a contract promises. -/
theorem Meets.mono {p : Program Op Ans ε α} (hp : p.Meets asks expected raises post)
    (hasks : ∀ op, asks op → asks' op) (hpost : ∀ a, post a → post' a) :
    p.Meets asks' expected raises post' := by
  induction p with
  | ret a => exact hpost a hp
  | raise e => exact hp
  | call op k ih => exact ⟨hasks op hp.1, fun answer h => ih answer (hp.2 answer h)⟩

/-- A contract for what happens when the exceptions of a program are handled. -/
theorem Meets.tryCatch {p : Program Op Ans ε α} {raises' : ε → Prop}
    {handle : ε → Option (Program Op Ans ε α)} (hp : p.Meets asks expected raises post)
    (hhandle : ∀ e, raises e → ((handle e).getD (raise e)).Meets asks expected raises' post) :
    (p.tryCatch handle).Meets asks expected raises' post := by
  induction p with
  | ret a => exact hp
  | raise e => exact hhandle e hp
  | call op k ih => exact ⟨hp.1, fun answer h => ih answer (hp.2 answer h)⟩

/-- What a contract says about an attempt whose operations were answered as
    expected. -/
theorem Meets.calls {p : Program Op Ans ε α} (hp : p.Meets asks expected raises post)
    {events : List (Event Op Ans)} {outcome : Outcome ε α} (h : Calls p events outcome)
    (hexpected : ∀ event ∈ events, expected event.1 event.2) :
    (∀ event ∈ events, asks event.1) ∧ (∀ a, outcome = .returned a → post a) ∧
      ∀ e, outcome = .raised e → raises e := by
  induction p generalizing events with
  | ret a =>
      obtain ⟨rfl, rfl | rfl⟩ := calls_ret.mp h
      · refine ⟨by simp, ?_, nofun⟩
        rintro b heq
        injection heq with heq
        exact heq ▸ hp
      · exact ⟨by simp, nofun, nofun⟩
  | raise e =>
      obtain ⟨rfl, rfl | rfl⟩ := calls_raise.mp h
      · refine ⟨by simp, nofun, ?_⟩
        rintro e' heq
        injection heq with heq
        exact heq ▸ hp
      · exact ⟨by simp, nofun, nofun⟩
  | call op k ih =>
      rcases calls_call.mp h with ⟨rfl, rfl⟩ | ⟨answer, rest, rfl, hrest⟩
      · exact ⟨by simp, nofun, nofun⟩
      · have hfirst := hexpected _ List.mem_cons_self
        obtain ⟨hasks, hreturned, hraised⟩ := ih answer (hp.2 answer hfirst) hrest
          fun event hmem => hexpected event (List.mem_cons_of_mem _ hmem)
        exact ⟨List.forall_mem_cons.mpr ⟨hp.1, hasks⟩, hreturned, hraised⟩

/-- An attempt of a sequence ends inside its first part without a result, or it
    runs through it. -/
theorem calls_bind {p : Program Op Ans ε α} {f : α → Program Op Ans ε β}
    {events : List (Event Op Ans)} {outcome : Outcome ε β} (h : Calls (p >>= f) events outcome) :
    (outcome = .lost ∧ Calls p events .lost) ∨
    (∃ e, outcome = .raised e ∧ Calls p events (.raised e)) ∨
    ∃ a front back, events = front ++ back ∧ Calls p front (.returned a) ∧
      Calls (f a) back outcome := by
  obtain ⟨q, htrace, hat⟩ := h
  rcases trace_bind htrace with ⟨p', hp, rfl⟩ | ⟨a, front, back, rfl, hp, hf⟩
  · cases p' with
    | ret a => exact .inr (.inr ⟨a, events, [], by simp, ⟨_, hp, rfl⟩, ⟨_, .nil, hat⟩⟩)
    | raise e =>
        cases outcome with
        | returned b => cases hat
        | raised e' =>
            injection hat with heq
            exact .inr (.inl ⟨e', rfl, ⟨_, hp, by rw [heq]; rfl⟩⟩)
        | lost => exact .inl ⟨rfl, ⟨_, hp, trivial⟩⟩
    | call op k =>
        cases outcome with
        | returned b => cases hat
        | raised e => cases hat
        | lost => exact .inl ⟨rfl, ⟨_, hp, trivial⟩⟩
  · exact .inr (.inr ⟨a, front, back, rfl, ⟨_, hp, rfl⟩, ⟨q, hf, hat⟩⟩)

/-- A sequence that returned ran through both of its parts. -/
theorem calls_bind_returned {p : Program Op Ans ε α} {f : α → Program Op Ans ε β}
    {events : List (Event Op Ans)} {b : β} (h : Calls (p >>= f) events (.returned b)) :
    ∃ a front back, events = front ++ back ∧ Calls p front (.returned a) ∧
      Calls (f a) back (.returned b) := by
  rcases calls_bind h with ⟨hlost, _⟩ | ⟨e, hraised, _⟩ | hboth
  · cases hlost
  · cases hraised
  · exact hboth

/-- Attempts of the two parts make one of the sequence. -/
theorem Calls.bind {p : Program Op Ans ε α} {f : α → Program Op Ans ε β} {a : α}
    {front back : List (Event Op Ans)} {outcome : Outcome ε β} (hp : Calls p front (.returned a))
    (hf : Calls (f a) back outcome) : Calls (p >>= f) (front ++ back) outcome := by
  induction p generalizing front with
  | ret b =>
      have hnil : front = [] := (calls_ret.mp hp).1
      subst hnil
      have heq : b = a := eq_of_calls_ret hp
      subst heq
      exact hf
  | raise e => exact absurd hp not_calls_raise
  | call op k ih =>
      cases calls_call.mp hp with
      | inl hstopped => cases hstopped.2
      | inr hmore =>
          obtain ⟨answer, rest, rfl, hrest⟩ := hmore
          apply calls_call.mpr
          exact .inr ⟨answer, rest ++ back, rfl, ih answer hrest⟩

theorem calls_bind_ret {p : Program Op Ans ε α} {g : α → β} {events : List (Event Op Ans)} {b : β} :
    Calls (p >>= fun a => ret (g a)) events (.returned b) ↔
      ∃ a, g a = b ∧ Calls p events (.returned a) := by
  constructor
  · intro h
    obtain ⟨a, front, back, rfl, hp, hret⟩ := calls_bind_returned h
    have hnil : back = [] := (calls_ret.mp hret).1
    subst hnil
    rw [List.append_nil]
    exact ⟨a, eq_of_calls_ret hret, hp⟩
  · rintro ⟨a, rfl, hp⟩
    have hret : Calls (ret (g a) : Program Op Ans ε β) [] (.returned (g a)) :=
      calls_ret.mpr ⟨rfl, .inl rfl⟩
    have hcalls : Calls (p >>= fun a => ret (g a)) (events ++ []) (.returned (g a)) := hp.bind hret
    rwa [List.append_nil] at hcalls

/-- What the world only ever answers, it answers in a list of operations. -/
theorem Effects.answered {exec : (op : Op) → W → Ans op → W → Prop} {events : List (Event Op Ans)}
    {w w' : W} (h : Effects exec w events w')
    (hexec : ∀ op w answer w', exec op w answer w' → expected op answer) :
    ∀ event ∈ events, expected event.1 event.2 := by
  induction h with
  | nil => simp
  | cons hstep _ ih => exact List.forall_mem_cons.mpr ⟨hexec _ _ _ _ hstep, ih⟩

/-! ## Loops -/

/-- A loop over a list that appends what its body yields. -/
def collect (body : α → Program Op Ans ε (Option β)) :
    List α → List β → Program Op Ans ε (List β)
  | [], acc => ret acc
  | x :: xs, acc => body x >>= fun y => collect body xs (acc ++ y.toList)

/-- A loop that returned ran its body for every item, each time to its return,
    and collected what that yielded. -/
theorem collect_returned {body : α → Program Op Ans ε (Option β)} {xs : List α} {acc ys : List β}
    {events : List (Event Op Ans)} (h : Calls (collect body xs acc) events (.returned ys)) :
    (∀ y ∈ acc, y ∈ ys) ∧ ∀ x ∈ xs, ∃ part y, Calls (body x) part (.returned y) ∧
      (∀ event ∈ part, event ∈ events) ∧ ∀ z ∈ y, z ∈ ys := by
  induction xs generalizing acc events with
  | nil =>
      have heq := eq_of_calls_ret h
      exact ⟨fun y hy => heq ▸ hy, by simp⟩
  | cons x xs ih =>
      obtain ⟨y, front, back, rfl, hbody, hrest⟩ := calls_bind_returned h
      obtain ⟨hacc, hxs⟩ := ih hrest
      refine ⟨fun z hz => hacc z (List.mem_append_left _ hz), List.forall_mem_cons.mpr ⟨?_, ?_⟩⟩
      · refine ⟨front, y, hbody, fun event => List.mem_append_left _, fun z hz => ?_⟩
        exact hacc z (List.mem_append_right _ (by simpa using hz))
      · intro x' hx'
        obtain ⟨part, y', hbody', hpart, hy'⟩ := hxs x' hx'
        exact ⟨part, y', hbody', fun event hmem => List.mem_append_right _ (hpart event hmem), hy'⟩

/-- A contract of the body for every item is one of the loop. -/
theorem meets_collect {body : α → Program Op Ans ε (Option β)} {good : β → Prop} {xs : List α}
    {acc : List β} (hacc : ∀ y ∈ acc, good y)
    (hbody : ∀ x ∈ xs, (body x).Meets asks expected raises fun y => ∀ z ∈ y, good z) :
    (collect body xs acc).Meets asks expected raises fun ys => ∀ y ∈ ys, good y := by
  induction xs generalizing acc with
  | nil => exact meets_ret hacc
  | cons x xs ih =>
      obtain ⟨hx, hxs⟩ := List.forall_mem_cons.mp hbody
      refine hx.bind fun y hy => ih ?_ hxs
      intro z hz
      rcases List.mem_append.mp hz with hold | hnew
      · exact hacc z hold
      · exact hy z (by simpa using hnew)

theorem collect_append {body : α → Program Op Ans ε (Option β)} {front back : List α}
    {acc : List β} :
    collect body (front ++ back) acc =
      (collect body front acc >>= fun ys => collect body back ys) := by
  induction front generalizing acc with
  | nil => rfl
  | cons x front ih =>
      simp only [List.cons_append, collect, ih, bind_assoc]

/-- What a loop has collected so far only stands in front of the rest. -/
theorem collect_acc {body : α → Program Op Ans ε (Option β)} {xs : List α} {acc : List β} :
    collect body xs acc = (collect body xs [] >>= fun ys => ret (acc ++ ys)) := by
  induction xs generalizing acc with
  | nil => simp [collect]
  | cons x xs ih =>
      have hacc : ∀ y : Option β, collect body xs (acc ++ y.toList) =
          (collect body xs ([] ++ y.toList) >>= fun ys => ret (acc ++ ys)) := by
        intro y
        rw [ih, @ih ([] ++ y.toList), bind_assoc]
        simp
      simp only [collect, bind_assoc, hacc]

/-- A loop over two lists does what it does on the first and then what it does on
    the second. -/
theorem calls_collect_append {body : α → Program Op Ans ε (Option β)} {front back : List α}
    {events : List (Event Op Ans)} {ys : List β} :
    Calls (collect body (front ++ back) []) events (.returned ys) ↔
      ∃ events₁ ys₁ events₂ ys₂, events = events₁ ++ events₂ ∧ ys = ys₁ ++ ys₂ ∧
        Calls (collect body front []) events₁ (.returned ys₁) ∧
        Calls (collect body back []) events₂ (.returned ys₂) := by
  constructor
  · intro h
    rw [collect_append] at h
    obtain ⟨ys₁, events₁, events₂, rfl, hfront, hrest⟩ := calls_bind_returned h
    rw [collect_acc] at hrest
    obtain ⟨ys₂, rfl, hback⟩ := calls_bind_ret.mp hrest
    exact ⟨events₁, ys₁, events₂, ys₂, rfl, rfl, hfront, hback⟩
  · rintro ⟨events₁, ys₁, events₂, ys₂, rfl, rfl, hfront, hback⟩
    rw [collect_append]
    apply hfront.bind
    rw [collect_acc]
    exact calls_bind_ret.mpr ⟨ys₂, rfl, hback⟩

theorem collect_map {γ : Type} {g : γ → α} {body : α → Program Op Ans ε (Option β)} {xs : List γ}
    {acc : List β} : collect body (xs.map g) acc = collect (fun x => body (g x)) xs acc := by
  induction xs generalizing acc with
  | nil => rfl
  | cons x xs ih => simp only [List.map_cons, collect, ih]

/-! ## Programs whose operations are known -/

/-- A program that asks for exactly these operations, in this order, whatever the
    answers are, and then returns. -/
def Performs (expected : (op : Op) → Ans op → Prop) : Program Op Ans ε α → List Op → Prop
  | ret _, ops => ops = []
  | raise _, _ => False
  | call op k, ops =>
    ∃ rest, ops = op :: rest ∧ ∀ answer, expected op answer → Performs expected (k answer) rest

theorem performs_ret {a : α} : (ret a : Program Op Ans ε α).Performs expected [] := rfl

theorem performs_call {op : Op} {k : Ans op → Program Op Ans ε α} {ops : List Op}
    (hk : ∀ answer, expected op answer → (k answer).Performs expected ops) :
    (call op k).Performs expected (op :: ops) := ⟨ops, rfl, hk⟩

theorem Performs.bind {p : Program Op Ans ε α} {f : α → Program Op Ans ε β} {ops ops' : List Op}
    (hp : p.Performs expected ops) (hf : ∀ a, (f a).Performs expected ops') :
    (p >>= f).Performs expected (ops ++ ops') := by
  induction p generalizing ops with
  | ret a =>
      have hnil : ops = [] := hp
      subst hnil
      exact hf a
  | raise e => exact hp.elim
  | call op k ih =>
      obtain ⟨rest, rfl, hk⟩ := hp
      apply performs_call
      intro answer hanswer
      exact ih answer (hk answer hanswer)

/-- A loop asks for the operations of its items, one item after the other. -/
theorem performs_collect {body : α → Program Op Ans ε (Option β)} {ops : α → List Op} {xs : List α}
    {acc : List β} (hbody : ∀ x ∈ xs, (body x).Performs expected (ops x)) :
    (collect body xs acc).Performs expected (xs.flatMap ops) := by
  induction xs generalizing acc with
  | nil => exact performs_ret
  | cons x xs ih =>
      obtain ⟨hx, hxs⟩ := List.forall_mem_cons.mp hbody
      rw [List.flatMap_cons]
      apply hx.bind
      intro y
      exact ih hxs

/-- An attempt asks for a first part of the operations, and for all of them
    unless it was given up. It does not raise. -/
theorem Performs.calls {p : Program Op Ans ε α} {ops : List Op} (hp : p.Performs expected ops)
    {events : List (Event Op Ans)} {outcome : Outcome ε α} (h : Calls p events outcome)
    (hexpected : ∀ event ∈ events, expected event.1 event.2) :
    events.map Sigma.fst <+: ops ∧
      (outcome ≠ .lost → events.map Sigma.fst = ops ∧ ∃ a, outcome = .returned a) := by
  induction p generalizing events ops with
  | ret a =>
      have hnil : ops = [] := hp
      obtain ⟨rfl, houtcome⟩ := calls_ret.mp h
      subst hnil
      refine ⟨List.prefix_rfl, fun hended => ⟨rfl, a, ?_⟩⟩
      exact houtcome.resolve_right hended
  | raise e => exact hp.elim
  | call op k ih =>
      obtain ⟨rest, rfl, hk⟩ := hp
      cases calls_call.mp h with
      | inl hstopped =>
          obtain ⟨rfl, rfl⟩ := hstopped
          exact ⟨List.nil_prefix, fun hended => absurd rfl hended⟩
      | inr hmore =>
          obtain ⟨answer, later, rfl, hlater⟩ := hmore
          have hanswer : expected op answer := hexpected _ List.mem_cons_self
          obtain ⟨hfront, hall⟩ := ih answer (hk answer hanswer) hlater
            fun event hmem => hexpected event (List.mem_cons_of_mem _ hmem)
          refine ⟨List.cons_prefix_cons.mpr ⟨rfl, hfront⟩, fun hended => ?_⟩
          obtain ⟨heq, hreturned⟩ := hall hended
          exact ⟨congrArg (op :: ·) heq, hreturned⟩

/-! ## Programs that end with a commit -/

/-- A program that commits its result with its last operation: until then it only
    asks for what `asks` allows, and it returns just after the commit. A refused
    commit raises. -/
def Commits (asks : Op → Prop) (expected : (op : Op) → Ans op → Prop) (raises : ε → Prop)
    (refused : Event Op Ans → Prop) (post : Event Op Ans → α → Prop) : Program Op Ans ε α → Prop
  | ret _ => False
  | raise e => raises e
  | call op k =>
    (asks op ∧ ∀ answer, expected op answer → Commits asks expected raises refused post (k answer)) ∨
    ∀ answer, (refused ⟨op, answer⟩ ∧ ∃ e, k answer = raise e) ∨
      ∃ a, k answer = ret a ∧ post ⟨op, answer⟩ a

variable {refused : Event Op Ans → Prop} {commit : Event Op Ans → α → Prop}

theorem commits_raise {e : ε} (h : raises e) :
    (raise e : Program Op Ans ε α).Commits asks expected raises refused commit := h

theorem commits_call {op : Op} {k : Ans op → Program Op Ans ε α} (hop : asks op)
    (hk : ∀ answer, expected op answer → (k answer).Commits asks expected raises refused commit) :
    (call op k).Commits asks expected raises refused commit := .inl ⟨hop, hk⟩

theorem commits_last {op : Op} {k : Ans op → Program Op Ans ε α}
    (h : ∀ answer, (refused ⟨op, answer⟩ ∧ ∃ e, k answer = raise e) ∨
      ∃ a, k answer = ret a ∧ commit ⟨op, answer⟩ a) :
    (call op k).Commits asks expected raises refused commit := .inr h

theorem Meets.commits {p : Program Op Ans ε β} {f : β → Program Op Ans ε α} {post : β → Prop}
    (hp : p.Meets asks expected raises post)
    (hf : ∀ b, post b → (f b).Commits asks expected raises refused commit) :
    (p >>= f).Commits asks expected raises refused commit := by
  induction p with
  | ret b => exact hf b hp
  | raise e => exact hp
  | call op k ih => exact .inl ⟨hp.1, fun answer h => ih answer (hp.2 answer h)⟩

/-- An attempt either stops before the commit, or it has the commit as its last
    operation. An invariant of the world holds up to the commit when the allowed
    operations keep it; it may be what makes the answers the expected ones. -/
theorem Commits.attempt {exec : (op : Op) → W → Ans op → W → Prop} {p : Program Op Ans ε α}
    (hp : p.Commits asks expected raises refused commit) {P : W → Prop} {w w' : W}
    {events : List (Event Op Ans)} {outcome : Outcome ε α}
    (h : Attempt exec p w events outcome w') (hw : P w)
    (hexec : ∀ op w answer w', asks op → P w → exec op w answer w' → expected op answer ∧ P w') :
    (P w' ∧ (∀ event ∈ events, asks event.1) ∧
      (outcome = .lost ∨ ∃ e, raises e ∧ outcome = .raised e)) ∨
    ∃ front event w₁, events = front ++ [event] ∧ (∀ event ∈ front, asks event.1) ∧ P w₁ ∧
      exec event.1 w₁ event.2 w' ∧
      ((refused event ∧ (outcome = .lost ∨ ∃ e, outcome = .raised e)) ∨
        ∃ a, commit event a ∧ (outcome = .lost ∨ outcome = .returned a)) := by
  obtain ⟨hcalls, heffects⟩ := h
  induction p generalizing events w with
  | ret a => exact hp.elim
  | raise e =>
      obtain ⟨rfl, houtcome⟩ := calls_raise.mp hcalls
      rw [effects_nil] at heffects
      subst heffects
      refine .inl ⟨hw, by simp, ?_⟩
      rcases houtcome with rfl | rfl
      · exact .inr ⟨e, hp, rfl⟩
      · exact .inl rfl
  | call op k ih =>
      rcases calls_call.mp hcalls with ⟨rfl, rfl⟩ | ⟨answer, rest, rfl, hrest⟩
      · rw [effects_nil] at heffects
        subst heffects
        exact .inl ⟨hw, by simp, .inl rfl⟩
      obtain ⟨w₁, hop, heffects⟩ := effects_cons.mp heffects
      rcases hp with ⟨hasks, hk⟩ | hlast
      · -- An operation before the commit: the invariant carries over to the rest.
        obtain ⟨hanswer, hw₁⟩ := hexec op w answer w₁ hasks hw hop
        rcases ih answer (hk answer hanswer) hw₁ hrest heffects with
          ⟨hw', hall, houtcome⟩ | ⟨front, event, w₂, rfl, hall, hw₂, hevent, houtcome⟩
        · exact .inl ⟨hw', List.forall_mem_cons.mpr ⟨hasks, hall⟩, houtcome⟩
        · exact .inr ⟨⟨op, answer⟩ :: front, event, w₂, rfl,
            List.forall_mem_cons.mpr ⟨hasks, hall⟩, hw₂, hevent, houtcome⟩
      · right
        rcases hlast answer with ⟨hrefused, e, hk⟩ | ⟨a, hk, hcommit⟩
        · rw [hk] at hrest
          obtain ⟨rfl, houtcome⟩ := calls_raise.mp hrest
          rw [effects_nil] at heffects
          subst heffects
          refine ⟨[], _, w, rfl, by simp, hw, hop, .inl ⟨hrefused, ?_⟩⟩
          exact houtcome.symm.imp id fun h => ⟨e, h⟩
        · rw [hk] at hrest
          obtain ⟨rfl, houtcome⟩ := calls_ret.mp hrest
          rw [effects_nil] at heffects
          subst heffects
          exact ⟨[], _, w, rfl, by simp, hw, hop, .inr ⟨a, hcommit, houtcome.symm⟩⟩

/-- Weaken what is committed. -/
theorem Commits.mono {p : Program Op Ans ε α} {commit' : Event Op Ans → α → Prop}
    (hp : p.Commits asks expected raises refused commit)
    (hcommit : ∀ event a, commit event a → commit' event a) :
    p.Commits asks expected raises refused commit' := by
  induction p with
  | ret a => exact hp.elim
  | raise e => exact hp
  | call op k ih =>
      cases hp with
      | inl hmore => exact .inl ⟨hmore.1, fun answer h => ih answer (hmore.2 answer h)⟩
      | inr hlast =>
          right
          intro answer
          cases hlast answer with
          | inl hrefused => exact .inl hrefused
          | inr hreturned =>
              obtain ⟨a, hk, ha⟩ := hreturned
              exact .inr ⟨a, hk, hcommit _ a ha⟩

/-! ## Contracts that see the history -/

/-- What a program asks for after the events of a history, and what holds of the whole
    history when it returns. -/
def Follows (asks : List (Event Op Ans) → Op → Prop) (expected : (op : Op) → Ans op → Prop)
    (post : List (Event Op Ans) → α → Prop) : List (Event Op Ans) → Program Op Ans ε α → Prop
  | history, ret a => post history a
  | _, raise _ => True
  | history, call op k =>
    asks history op ∧ ∀ answer, expected op answer →
      Follows asks expected post (history ++ [⟨op, answer⟩]) (k answer)

section

variable {may : List (Event Op Ans) → Op → Prop} {result : List (Event Op Ans) → α → Prop}
  {history : List (Event Op Ans)}

theorem follows_raise {e : ε} : Follows may expected result history (raise e) := trivial

theorem follows_ofExcept_bind {x : Except ε β} {f : β → Program Op Ans ε α}
    (hf : ∀ b, x = .ok b → Follows may expected result history (f b)) :
    Follows may expected result history (ofExcept x >>= f) := by
  cases x with
  | ok b => exact hf b rfl
  | error e => exact follows_raise

/-- An attempt only asks for what it may after some history. -/
theorem Follows.calls {p : Program Op Ans ε α} (hp : Follows may expected result history p)
    {events : List (Event Op Ans)} {outcome : Outcome ε α} (h : Calls p events outcome)
    (hexpected : ∀ event ∈ events, expected event.1 event.2) :
    ∀ event ∈ events, ∃ history, may history event.1 := by
  induction p generalizing history events with
  | ret a =>
      obtain ⟨rfl, _⟩ := calls_ret.mp h
      simp
  | raise e =>
      obtain ⟨rfl, _⟩ := calls_raise.mp h
      simp
  | call op k ih =>
      rcases calls_call.mp h with ⟨rfl, _⟩ | ⟨answer, rest, rfl, hrest⟩
      · simp
      · obtain ⟨hfirst, hlater⟩ := List.forall_mem_cons.mp hexpected
        exact List.forall_mem_cons.mpr ⟨⟨history, hp.1⟩, ih answer (hp.2 answer hfirst) hrest hlater⟩

/-- What may be asked for whatever the history. -/
theorem Follows.meets {p : Program Op Ans ε α} (hp : Follows may expected result history p)
    (hasks : ∀ history op, may history op → asks op) :
    p.Meets asks expected (fun _ => True) fun _ => True := by
  induction p generalizing history with
  | ret a => exact meets_ret trivial
  | raise e => exact meets_raise trivial
  | call op k ih => exact ⟨hasks history op hp.1, fun answer hanswer => ih answer (hp.2 answer hanswer)⟩

/-- A contract that does not look back. -/
theorem Meets.follows {p : Program Op Ans ε α} (hp : p.Meets asks expected raises post)
    (hasks : ∀ history op, (∀ event ∈ history, asks event.1) → asks op → may history op)
    (hpost : ∀ history a, post a → result history a) (hhistory : ∀ event ∈ history, asks event.1) :
    Follows may expected result history p := by
  induction p generalizing history with
  | ret a => exact hpost history a hp
  | raise e => exact follows_raise
  | call op k ih =>
      refine ⟨hasks history op hhistory hp.1, fun answer hanswer => ?_⟩
      apply ih answer (hp.2 answer hanswer)
      exact List.forall_mem_append.mpr ⟨hhistory, List.forall_mem_singleton.mpr hp.1⟩

/-- A program that commits last has only asked for what is allowed by then. -/
theorem Commits.follows {p : Program Op Ans ε α} (hp : p.Commits asks expected raises refused commit)
    (hasks : ∀ history op, (∀ event ∈ history, asks event.1) → asks op → may history op)
    (hlast : ∀ history op, (∀ event ∈ history, asks event.1) →
      (∀ answer, refused ⟨op, answer⟩ ∨ ∃ a, commit ⟨op, answer⟩ a) → may history op)
    (hcommit : ∀ history event a, commit event a → result (history ++ [event]) a)
    (hhistory : ∀ event ∈ history, asks event.1) : Follows may expected result history p := by
  induction p generalizing history with
  | ret a => exact hp.elim
  | raise e => exact follows_raise
  | call op k ih =>
      cases hp with
      | inl hmore =>
          refine ⟨hasks history op hhistory hmore.1, fun answer hanswer => ?_⟩
          apply ih answer (hmore.2 answer hanswer)
          exact List.forall_mem_append.mpr ⟨hhistory, List.forall_mem_singleton.mpr hmore.1⟩
      | inr hend =>
          constructor
          · apply hlast history op hhistory
            intro answer
            cases hend answer with
            | inl hrefused => exact .inl hrefused.1
            | inr hreturned =>
                obtain ⟨a, _, ha⟩ := hreturned
                exact .inr ⟨a, ha⟩
          · intro answer _
            cases hend answer with
            | inl hrefused =>
                obtain ⟨_, e, hk⟩ := hrefused
                rw [hk]
                exact follows_raise
            | inr hreturned =>
                obtain ⟨a, hk, ha⟩ := hreturned
                rw [hk]
                exact hcommit history _ a ha

end

/-! ## Answers that are ignored -/

/-- Which of the expected answers such an operation gets makes no difference to what
    the program does next. -/
def Indifferent (expected : (op : Op) → Ans op → Prop) (ignores : Op → Prop) :
    Program Op Ans ε α → Prop
  | ret _ | raise _ => True
  | call op k =>
    (ignores op → ∀ answer answer', expected op answer → expected op answer' → k answer = k answer') ∧
      ∀ answer, expected op answer → Indifferent expected ignores (k answer)

/-- The same event, but for what an ignored operation was answered. -/
inductive Varied (ignores : Op → Prop) : Event Op Ans → Event Op Ans → Prop where
  | same {event} : Varied ignores event event
  | ignored {op answer answer'} (h : ignores op) : Varied ignores ⟨op, answer⟩ ⟨op, answer'⟩

section

variable {ignores : Op → Prop}

theorem Indifferent.bind {p : Program Op Ans ε α} {f : α → Program Op Ans ε β}
    (hp : p.Indifferent expected ignores) (hf : ∀ a, (f a).Indifferent expected ignores) :
    (p >>= f).Indifferent expected ignores := by
  induction p with
  | ret a => exact hf a
  | raise e => trivial
  | call op k ih =>
      refine ⟨fun hignores answer answer' h h' => ?_, fun answer h => ih answer (hp.2 answer h)⟩
      change (k answer >>= f) = (k answer' >>= f)
      rw [hp.1 hignores answer answer' h h']

theorem indifferent_collect {body : α → Program Op Ans ε (Option β)} {xs : List α} {acc : List β}
    (hbody : ∀ x ∈ xs, (body x).Indifferent expected ignores) :
    (collect body xs acc).Indifferent expected ignores := by
  induction xs generalizing acc with
  | nil => trivial
  | cons x xs ih =>
      obtain ⟨hx, hxs⟩ := List.forall_mem_cons.mp hbody
      exact hx.bind fun y => ih hxs

/-- An attempt comes to the same end whatever the ignored operations are answered. -/
theorem Indifferent.calls {p : Program Op Ans ε α} (hp : p.Indifferent expected ignores)
    {events events' : List (Event Op Ans)} {outcome : Outcome ε α} (h : Calls p events outcome)
    (hvaried : List.Forall₂ (Varied ignores) events events')
    (hexpected : ∀ event ∈ events, expected event.1 event.2)
    (hexpected' : ∀ event ∈ events', expected event.1 event.2) : Calls p events' outcome := by
  induction hvaried generalizing p with
  | nil => exact h
  | @cons event event' events events' hfirst _ ih =>
      obtain ⟨hanswer, hrest⟩ := List.forall_mem_cons.mp hexpected
      obtain ⟨hanswer', hrest'⟩ := List.forall_mem_cons.mp hexpected'
      cases p with
      | ret a => cases (calls_ret.mp h).1
      | raise e => cases (calls_raise.mp h).1
      | call op k =>
          rcases calls_call.mp h with ⟨hnil, _⟩ | ⟨answer, rest, heq, hcalls⟩
          · cases hnil
          · cases heq
            apply calls_call.mpr
            cases hfirst with
            | same => exact .inr ⟨_, _, rfl, ih (hp.2 answer hanswer) hcalls hrest hrest'⟩
            | @ignored _ _ answer' hignores =>
                have heq : k answer = k answer' := hp.1 hignores answer answer' hanswer hanswer'
                rw [heq] at hcalls
                exact .inr ⟨_, _, rfl, ih (hp.2 answer' hanswer') hcalls hrest hrest'⟩

end

end Program
