-- SUMMARY: `deploy-all.sh` from the check of its targets on, as a shell script over `cd` and `terraform`.
import ServerlessPatterns.Library.Shell

/-!
# The deployment script

One Terraform action is run against every target pattern in turn. The targets are those
the arguments select or, without a selection, all that were found.
-/

namespace DeployAll

open Shell

inductive Action where
  | validate
  | plan
  | apply
  | destroy
  deriving DecidableEq

def Action.name : Action → String
  | validate => "validate"
  | plan => "plan"
  | apply => "apply"
  | destroy => "destroy"

structure Settings where
  patternsDir : String
  action : Action
  keepGoing : Bool

/-- The commands that `run_pattern` runs for one target. -/
inductive Stage where
  | cd
  | init
  | action
  deriving DecidableEq

structure Command where
  /-- Which target the command is run for, by its position among the targets. -/
  position : Nat
  stage : Stage
  words : List String
  deriving DecidableEq

inductive Level where
  | log
  | ok
  | err
  deriving DecidableEq

structure Line where
  level : Level
  /-- Which target the line is about, if it is about one. -/
  position : Option Nat
  text : String
  deriving DecidableEq

/-- The shell variables that change. -/
structure Vars where
  failed : List String

abbrev DeployScript := Script Command Line Vars

def log (text : String) : Line := ⟨.log, none, text⟩
def ok (text : String) : Line := ⟨.ok, none, text⟩
def err (text : String) : Line := ⟨.err, none, text⟩

/-- `${names[*]}` -/
def words (names : List String) : String := " ".intercalate names

/-- A target and its position. -/
abbrev Target := String × Nat

section

variable (settings : Settings)

/-! ## One pattern -/

/-- The arguments of `terraform init`. -/
def initWords : List String :=
  match settings.action with
  | .validate => ["terraform", "init", "-backend=false", "-input=false", "-no-color"]
  | .plan | .apply | .destroy => ["terraform", "init", "-input=false", "-no-color"]

/-- The arguments of the action. -/
def actionWords : List String :=
  match settings.action with
  | .validate => ["terraform", "validate", "-no-color"]
  | .plan => ["terraform", "plan", "-input=false", "-no-color"]
  | .apply => ["terraform", "apply", "-auto-approve", "-input=false", "-no-color"]
  | .destroy => ["terraform", "destroy", "-auto-approve", "-input=false", "-no-color"]

def command (target : Target) (stage : Stage) : Command where
  position := target.2
  stage := stage
  words :=
    match stage with
    | .cd => ["cd", s!"{settings.patternsDir}/{target.1}"]
    | .init => initWords settings
    | .action => actionWords settings

def startedLine (target : Target) : Line :=
  ⟨.log, some target.2, s!"{target.1}: terraform {settings.action.name}"⟩

def runPattern (target : Target) : DeployScript :=
  .seq (.print fun _ => startedLine settings target)
    (.subshell
      (.seq (.run (command settings target .cd))
        (.seq (.run (command settings target .init)) (.run (command settings target .action)))))

/-! ## The loop over the targets -/

def succeededLine (target : Target) : Line :=
  ⟨.ok, some target.2, s!"{target.1}: {settings.action.name} succeeded"⟩

def failedLine (target : Target) : Line :=
  ⟨.err, some target.2, s!"{target.1}: {settings.action.name} failed"⟩

def stoppingLine : Line := err "stopping (use --keep-going to continue)."

/-- One pass of the loop. -/
def pass (target : Target) : DeployScript :=
  .ifElse (runPattern settings target)
    (.print fun _ => succeededLine settings target)
    (.seq (.print fun _ => failedLine settings target)
      (.seq (.assign fun vars => ⟨vars.failed ++ [target.1]⟩)
        (.orElse (.test fun _ => settings.keepGoing)
          (.seq (.print fun _ => stoppingLine) (.exit 1)))))

/-! ## The whole script -/

def noPatternsLine : Line := err "no patterns with a main.tf were found."

def headingLine (targets : List String) : Line :=
  log s!"Action: {settings.action.name}   Patterns: {words targets}"

def failuresLine (failed : List String) : Line := err s!"completed with failures: {words failed}"

def allSucceededLine (targets : List String) : Line :=
  ok s!"all patterns: {settings.action.name} succeeded ({targets.length} module(s))."

/-- What the script does behind the loop. -/
def summary (targets : List String) : DeployScript :=
  .seq (.ifElse (.test fun vars => !vars.failed.isEmpty)
      (.seq (.print fun vars => failuresLine vars.failed) (.exit 1))
      .skip)
    (.print fun _ => allSucceededLine settings targets)

def main (targets : List String) : DeployScript :=
  .seq (.orElse (.test fun _ => !targets.isEmpty) (.seq (.print fun _ => noPatternsLine) (.exit 1)))
    (.seq (.print fun _ => headingLine settings targets)
      (.seq (Script.forEach (pass settings) targets.zipIdx) (summary settings targets)))

/-- What `trap cleanup EXIT` prints. -/
def cleanup (ending : Ending Vars) : List (Event Command Line) :=
  if ending.code ≠ 0 ∧ ending.vars.failed = [] then
    [.printed (err s!"deploy-all.sh exited unexpectedly (code {ending.code}).")]
  else []

structure Run where
  events : List (Event Command Line)
  exitCode : Nat

/-- A run of the script under `set -e`, when the commands of the target at each position
    end with the given statuses. -/
def deployAll (status : Nat → Stage → Nat) (targets : List String) : Run :=
  let outcome := (main settings targets).eval (fun c => status c.position c.stage) true ⟨[]⟩
  ⟨outcome.events ++ cleanup outcome.ending, outcome.ending.code⟩

end

end DeployAll
