-- SUMMARY: Shell scripts with exit statuses: what `set -e` ends, and the places where it is ignored.

/-!
# Shell scripts

Every command ends with an exit status. Under `set -e` a status other than zero ends the
shell, unless the command is the condition of an `if` or stands before `||`: there it is
ignored, and so it is in the functions and subshells that the command consists of.
-/

namespace Shell

/-- Scripts over external commands, printed lines and the values of shell variables. -/
inductive Script (Cmd Line σ : Type) where
  | run (command : Cmd)
  | print (line : σ → Line)
  | assign (change : σ → σ)
  /-- `[[ … ]]` -/
  | test (condition : σ → Bool)
  | exit (code : Nat)
  | seq (first second : Script Cmd Line σ)
  | subshell (body : Script Cmd Line σ)
  | ifElse (condition yes no : Script Cmd Line σ)
  /-- `first || second` -/
  | orElse (first second : Script Cmd Line σ)

inductive Event (Cmd Line : Type) where
  | ran (command : Cmd)
  | printed (line : Line)

section

variable {Cmd Line ι : Type}

def commandsOf (events : List (Event Cmd Line)) : List Cmd :=
  events.filterMap fun
    | .ran command => some command
    | .printed _ => none

def linesOf (events : List (Event Cmd Line)) : List Line :=
  events.filterMap fun
    | .ran _ => none
    | .printed line => some line

@[simp] theorem commandsOf_append {events events' : List (Event Cmd Line)} :
    commandsOf (events ++ events') = commandsOf events ++ commandsOf events' :=
  List.filterMap_append

@[simp] theorem linesOf_append {events events' : List (Event Cmd Line)} :
    linesOf (events ++ events') = linesOf events ++ linesOf events' :=
  List.filterMap_append

theorem commandsOf_flatMap {f : ι → List (Event Cmd Line)} {items : List ι} :
    commandsOf (items.flatMap f) = items.flatMap fun item => commandsOf (f item) :=
  List.filterMap_flatMap

theorem linesOf_flatMap {f : ι → List (Event Cmd Line)} {items : List ι} :
    linesOf (items.flatMap f) = items.flatMap fun item => linesOf (f item) :=
  List.filterMap_flatMap

@[simp] theorem commandsOf_printed {lines : List Line} :
    commandsOf (lines.map .printed : List (Event Cmd Line)) = [] := by
  simp [commandsOf]

@[simp] theorem linesOf_printed {lines : List Line} :
    linesOf (lines.map .printed : List (Event Cmd Line)) = lines := by
  rw [linesOf, List.filterMap_map]
  exact List.filterMap_some

end

/-- A piece of a script leaves a status behind, or it ends the shell. -/
inductive Ending (σ : Type) where
  | done (status : Nat) (vars : σ)
  | exited (code : Nat) (vars : σ)

namespace Ending

variable {σ : Type}

/-- The status of a shell that has run the piece and nothing else. -/
def code : Ending σ → Nat
  | done status _ => status
  | exited code _ => code

def vars : Ending σ → σ
  | done _ vars => vars
  | exited _ vars => vars

/-- Where errexit is in force, a command that fails ends the shell. -/
def command (errexit : Bool) (status : Nat) (vars : σ) : Ending σ :=
  if errexit = true ∧ status ≠ 0 then exited status vars else done status vars

end Ending

structure Outcome (Cmd Line σ : Type) where
  events : List (Event Cmd Line)
  ending : Ending σ

variable {Cmd Line σ ι : Type}

namespace Outcome

/-- Go on, unless the shell has ended. -/
def bind (o : Outcome Cmd Line σ) (next : Nat → σ → Outcome Cmd Line σ) : Outcome Cmd Line σ :=
  match o.ending with
  | .done status vars => ⟨o.events ++ (next status vars).events, (next status vars).ending⟩
  | .exited _ _ => o

@[simp] theorem bind_done {events : List (Event Cmd Line)} {status : Nat} {vars : σ}
    {next : Nat → σ → Outcome Cmd Line σ} :
    (⟨events, .done status vars⟩ : Outcome Cmd Line σ).bind next =
      ⟨events ++ (next status vars).events, (next status vars).ending⟩ := rfl

@[simp] theorem bind_exited {events : List (Event Cmd Line)} {code : Nat} {vars : σ}
    {next : Nat → σ → Outcome Cmd Line σ} :
    (⟨events, .exited code vars⟩ : Outcome Cmd Line σ).bind next = ⟨events, .exited code vars⟩ := rfl

theorem bind_ret {o : Outcome Cmd Line σ} :
    (o.bind fun status vars => ⟨[], .done status vars⟩) = o := by
  obtain ⟨events, ending⟩ := o
  cases ending with
  | done status vars => rw [bind_done, List.append_nil]
  | exited code vars => rfl

theorem bind_assoc {o : Outcome Cmd Line σ} {f g : Nat → σ → Outcome Cmd Line σ} :
    (o.bind f).bind g = o.bind fun status vars => (f status vars).bind g := by
  obtain ⟨events, ending⟩ := o
  cases ending with
  | exited code vars => rfl
  | done status vars =>
      simp only [bind_done]
      obtain ⟨events', ending'⟩ := f status vars
      cases ending' with
      | exited code vars' => rfl
      | done status' vars' => simp only [bind_done, List.append_assoc]

end Outcome

namespace Script

/-- Do nothing, with success. -/
def skip : Script Cmd Line σ := assign id

/-- Run a piece of a script in which errexit is in force or ignored, when the external
    commands end with the given statuses. -/
def eval (status : Cmd → Nat) : Bool → Script Cmd Line σ → σ → Outcome Cmd Line σ
  | errexit, run command, vars => ⟨[.ran command], .command errexit (status command) vars⟩
  | _, print line, vars => ⟨[.printed (line vars)], .done 0 vars⟩
  | _, assign change, vars => ⟨[], .done 0 (change vars)⟩
  | errexit, test condition, vars => ⟨[], .command errexit (if condition vars then 0 else 1) vars⟩
  | _, exit code, vars => ⟨[], .exited code vars⟩
  | errexit, seq first second, vars =>
    (eval status errexit first vars).bind fun _ => eval status errexit second
  | errexit, subshell body, vars =>
    -- What the body assigns is lost, and an `exit` ends the subshell only.
    let inner := eval status errexit body vars
    ⟨inner.events, .command errexit inner.ending.code vars⟩
  | errexit, ifElse condition yes no, vars =>
    (eval status false condition vars).bind fun result =>
      if result = 0 then eval status errexit yes else eval status errexit no
  | errexit, orElse first second, vars =>
    (eval status false first vars).bind fun result vars' =>
      if result = 0 then ⟨[], .done 0 vars'⟩ else eval status errexit second vars'

/-- `for item in items; do body; done` -/
def forEach (body : ι → Script Cmd Line σ) (items : List ι) : Script Cmd Line σ :=
  items.foldl (fun before item => seq before (body item)) skip

/-- The passes of a loop, after one that ended with the status. -/
def passes (status : Cmd → Nat) (errexit : Bool) (body : ι → Script Cmd Line σ) :
    List ι → Nat → σ → Outcome Cmd Line σ
  | [], last, vars => ⟨[], .done last vars⟩
  | item :: rest, _, vars =>
    (eval status errexit (body item) vars).bind fun last => passes status errexit body rest last

theorem eval_foldl {status : Cmd → Nat} {errexit : Bool} {body : ι → Script Cmd Line σ}
    {items : List ι} {before : Script Cmd Line σ} {vars : σ} :
    eval status errexit (items.foldl (fun before item => seq before (body item)) before) vars =
      (eval status errexit before vars).bind (passes status errexit body items) := by
  induction items generalizing before with
  | nil => exact Outcome.bind_ret.symm
  | cons item items ih =>
      rw [List.foldl_cons, ih, eval, Outcome.bind_assoc]
      rfl

/-- A loop is its passes one after the other. -/
theorem eval_forEach {status : Cmd → Nat} {errexit : Bool} {body : ι → Script Cmd Line σ}
    {items : List ι} {vars : σ} :
    eval status errexit (forEach body items) vars = passes status errexit body items 0 vars := by
  rw [forEach, eval_foldl, skip, eval, Outcome.bind_done, List.nil_append]
  rfl

end Script

end Shell
