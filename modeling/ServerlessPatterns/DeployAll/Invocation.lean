-- SUMMARY: `deploy-all.sh` from its arguments to its exit code: when it runs anything, for which patterns, and how it exits.
import ServerlessPatterns.DeployAll.CommandLine
import ServerlessPatterns.DeployAll.Runs

/-!
# Invocations of the deployment script

Before the first command is run, the arguments have been parsed, Terraform and the
patterns have been found, and every pattern that was selected has been checked.
-/

namespace DeployAll

open Shell

/-- What the script finds on the host. -/
structure Host where
  patternsDir : String
  /-- `command -v terraform` -/
  terraformFound : Bool
  patternsDirFound : Bool
  /-- The directories that `patterns/*/` expands to. -/
  directories : List String
  /-- `patterns/NAME/main.tf` is a file. -/
  hasMain : String → Bool
  sort : List String → List String
  sort_perm : ∀ names, (sort names).Perm names

inductive Output where
  | line (line : Line)
  | usage

structure Invocation where
  events : List (Event Command Output)
  exitCode : Nat

variable (host : Host)

/-! ## The script -/

def discoverPatterns : List String := host.sort (host.directories.filter host.hasMain)

def missingLine (name : String) : Line :=
  err s!"no deployable pattern named '{name}' (missing patterns/{name}/main.tf)"

/-- The loop over the selected patterns. -/
def selectTargets : List String → List String → Except Line (List String)
  | [], found => .ok found
  | name :: rest, found =>
    if host.hasMain name then selectTargets rest (found ++ [name]) else .error (missingLine name)

def targetsOf (selected : List String) : Except Line (List String) :=
  if selected.isEmpty then .ok (discoverPatterns host) else selectTargets host selected []

def ofLine : Event Command Line → Event Command Output
  | .ran command => .ran command
  | .printed line => .printed (.line line)

/-- Print something, and leave the script before its loop. -/
def leave (code : Nat) (printed : List Output) : Invocation where
  events := printed.map .printed ++ (cleanup (.exited code ⟨[]⟩)).map ofLine
  exitCode := code

def Run.invocation (run : Run) : Invocation := ⟨run.events.map ofLine, run.exitCode⟩

def invoke (status : Nat → Stage → Nat) (args : List String) : Invocation :=
  match parse args .default with
  | .help => leave 0 [.usage]
  | .malformed message showsUsage =>
    leave 2 (.line (err message) :: if showsUsage then [.usage] else [])
  | .run arguments =>
    if host.terraformFound = false then
      leave 1 [.line (err "terraform is not installed or not on PATH.")]
    else if host.patternsDirFound = false then
      leave 1 [.line (err s!"patterns directory not found: {host.patternsDir}")]
    else
      match targetsOf host arguments.selected with
      | .error line => leave 1 [.line line]
      | .ok targets =>
        (deployAll ⟨host.patternsDir, arguments.action, arguments.keepGoing⟩ status targets).invocation

/-! ## What an invocation does -/

/-- The host is ready to run the action on these targets, which all have a `main.tf`. -/
structure Ready (arguments : Arguments) (targets : List String) : Prop where
  terraform : host.terraformFound = true
  patternsDir : host.patternsDirFound = true
  /-- Those selected, in their order and as often, or else all there are. -/
  chosen : targets = if arguments.selected = [] then discoverPatterns host else arguments.selected
  deployable : ∀ name ∈ targets, host.hasMain name = true

/-- How the script answers its arguments. -/
structure Conducts (status : Nat → Stage → Nat) (args : List String) (result : Invocation) :
    Prop where
  /-- It exits with 2 for the arguments that it cannot read, and for no others. -/
  malformed : result.exitCode = 2 ↔ ∃ message showsUsage, Means args (.malformed message showsUsage)
  succeeds : result.exitCode = 0 ↔ Means args .help ∨ ∃ arguments targets,
    Means args (.run arguments) ∧ Ready host arguments targets ∧ targets ≠ [] ∧
      ∀ target ∈ targets.zipIdx, status target.2 .action = 0
  codes : result.exitCode ≤ 2
  /-- On a host that is ready it runs the commands of the targets it reaches, in order. -/
  commands : ∀ arguments targets, Means args (.run arguments) → Ready host arguments targets →
    commandsOf result.events =
      (reached ⟨host.patternsDir, arguments.action, arguments.keepGoing⟩ status
        targets.zipIdx).flatMap
        (commandsFor ⟨host.patternsDir, arguments.action, arguments.keepGoing⟩)
  /-- Else it runs nothing. -/
  nothing : (∀ arguments targets, Means args (.run arguments) → ¬ Ready host arguments targets) →
    commandsOf result.events = []

variable {host} {settings : Settings} {status : Nat → Stage → Nat} {args targets selected : List String}
  {arguments : Arguments} {code : Nat} {printed : List Output}

/-! ## Targets -/

theorem selectTargets_eq (host : Host) (selected found : List String) :
    (∃ line, selectTargets host selected found = .error line ∧
        ∃ name ∈ selected, host.hasMain name = false) ∨
      (selectTargets host selected found = .ok (found ++ selected) ∧
        ∀ name ∈ selected, host.hasMain name = true) := by
  induction selected generalizing found with
  | nil => exact .inr ⟨by rw [selectTargets, List.append_nil], nofun⟩
  | cons name rest ih =>
      rw [selectTargets]
      by_cases hmain : host.hasMain name = true
      · rw [if_pos hmain]
        rcases ih (found ++ [name]) with ⟨line, herror, missing, hmem, hmissing⟩ | ⟨hok, hall⟩
        · exact .inl ⟨line, herror, missing, List.mem_cons_of_mem _ hmem, hmissing⟩
        · refine .inr ⟨by rw [hok, List.append_assoc, List.singleton_append], ?_⟩
          exact List.forall_mem_cons.mpr ⟨hmain, hall⟩
      · rw [if_neg hmain]
        exact .inl ⟨_, rfl, name, List.mem_cons_self, by simpa using hmain⟩

/-- The targets are those a host is ready for, or a selected one cannot be deployed. -/
theorem targetsOf_eq (arguments : Arguments) (hterraform : host.terraformFound = true)
    (hpatterns : host.patternsDirFound = true) :
    (∃ line, targetsOf host arguments.selected = .error line ∧
        ∀ targets, ¬ Ready host arguments targets) ∨
      ∃ targets, targetsOf host arguments.selected = .ok targets ∧ Ready host arguments targets := by
  unfold targetsOf
  by_cases hnone : arguments.selected = []
  · right
    refine ⟨discoverPatterns host, by simp [hnone], hterraform, hpatterns, by simp [hnone], ?_⟩
    intro name hmem
    exact (List.mem_filter.mp ((host.sort_perm _).mem_iff.mp hmem)).2
  · have hsome : arguments.selected.isEmpty = false := by simpa using hnone
    rw [hsome]
    rcases selectTargets_eq host arguments.selected [] with
      ⟨line, herror, name, hmem, hmissing⟩ | ⟨hok, hall⟩
    · refine .inl ⟨line, herror, fun targets hready => ?_⟩
      have hchosen := hready.chosen
      rw [if_neg hnone] at hchosen
      subst hchosen
      have hmain := hready.deployable name hmem
      rw [hmissing] at hmain
      cases hmain
    · exact .inr ⟨arguments.selected, hok, hterraform, hpatterns, by simp [hnone], hall⟩

/-! ## Exit codes -/

theorem deployAll_exitCode_le : (deployAll settings status targets).exitCode ≤ 1 := by
  change ((main settings targets).eval (fun c => status c.position c.stage) true
    ⟨[]⟩).ending.code ≤ 1
  by_cases hne : targets = []
  · subst hne
    simp [main, Script.eval, Ending.command, Ending.code]
  obtain ⟨ending, hending, hpasses⟩ : ∃ ending,
      LoopEnding settings status targets.zipIdx ⟨[]⟩ ending ∧ _ := passes_spec _ 0 _
  rw [eval_main hne, Outcome.bind_done, hpasses]
  cases hending with
  | stopped => exact Nat.le_refl 1
  | @finished last vars' hfailed =>
      rw [Outcome.bind_done, eval_summary]
      split_ifs
      · exact Nat.zero_le 1
      · exact Nat.le_refl 1

/-! ## Invocations -/

theorem commandsOf_ofLine {events : List (Event Command Line)} :
    commandsOf (events.map ofLine) = commandsOf events := by
  unfold commandsOf
  rw [List.filterMap_map]
  congr 1
  funext event
  cases event <;> rfl

/-- Nothing is run before the loop. -/
theorem commandsOf_leave : commandsOf (leave code printed).events = [] := by
  obtain ⟨lines, hlines, _⟩ : ∃ lines : List Line,
      cleanup (.exited code ⟨[]⟩) = lines.map .printed ∧ _ := cleanup_general
  rw [leave, commandsOf_append, commandsOf_printed, hlines, commandsOf_ofLine, commandsOf_printed]
  rfl

theorem means_unique {parsed parsed' : Parsed} (h : Means args parsed) (h' : Means args parsed') :
    parsed = parsed' := (parse_of_means h).symm.trans (parse_of_means h')

/-- An invocation whose arguments can be read. -/
theorem conducts_run {result : Invocation} (hmeans : Means args (.run arguments))
    (hcode : result.exitCode ≤ 1)
    (hzero : result.exitCode = 0 ↔ ∃ targets, Ready host arguments targets ∧ targets ≠ [] ∧
      ∀ target ∈ targets.zipIdx, status target.2 .action = 0)
    (hcommands : ∀ targets, Ready host arguments targets → commandsOf result.events =
      (reached ⟨host.patternsDir, arguments.action, arguments.keepGoing⟩ status
        targets.zipIdx).flatMap
        (commandsFor ⟨host.patternsDir, arguments.action, arguments.keepGoing⟩))
    (hnothing : (∀ targets, ¬ Ready host arguments targets) → commandsOf result.events = []) :
    Conducts host status args result where
  malformed := by
    constructor
    · intro htwo
      omega
    · rintro ⟨message, showsUsage, hmalformed⟩
      cases means_unique hmeans hmalformed
  succeeds := by
    rw [hzero]
    constructor
    · rintro ⟨targets, hready⟩
      exact .inr ⟨arguments, targets, hmeans, hready⟩
    · rintro (hhelp | ⟨arguments', targets, hmeans', hready⟩)
      · cases means_unique hmeans hhelp
      · cases means_unique hmeans hmeans'
        exact ⟨targets, hready⟩
  codes := by omega
  commands := by
    intro arguments' targets hmeans' hready
    cases means_unique hmeans hmeans'
    exact hcommands targets hready
  nothing hunready := hnothing fun targets => hunready arguments targets hmeans

/-- An invocation that finds its host not ready. -/
theorem conducts_unready (hmeans : Means args (.run arguments))
    (hunready : ∀ targets, ¬ Ready host arguments targets) :
    Conducts host status args (leave 1 printed) := by
  refine conducts_run hmeans (Nat.le_refl 1) ⟨fun h => absurd h Nat.one_ne_zero, ?_⟩
    (fun targets hready => absurd hready (hunready targets)) fun _ => commandsOf_leave
  rintro ⟨targets, hready, _⟩
  exact absurd hready (hunready targets)

/-- A host is ready for one list of targets only. -/
theorem Ready.unique {targets targets' : List String} (h : Ready host arguments targets)
    (h' : Ready host arguments targets') : targets = targets' := h.chosen.trans h'.chosen.symm

theorem conducts_ready {targets : List String} (hmeans : Means args (.run arguments))
    (hready : Ready host arguments targets) : Conducts host status args
      (deployAll ⟨host.patternsDir, arguments.action, arguments.keepGoing⟩ status targets).invocation := by
  have hspec := @deployAll_spec ⟨host.patternsDir, arguments.action, arguments.keepGoing⟩ status targets
  refine conducts_run hmeans deployAll_exitCode_le (hspec.2.2.trans ?_) ?_
    fun hunready => absurd hready (hunready targets)
  · constructor
    · exact fun hall => ⟨targets, hready, hall⟩
    · rintro ⟨targets', hready', hall⟩
      rw [hready.unique hready']
      exact hall
  · intro targets' hready'
    rw [Run.invocation, commandsOf_ofLine, hready'.unique hready]
    exact hspec.1

/-- Whatever the arguments are, what the host has and how its commands end. -/
theorem invoke_conducts (host : Host) (status : Nat → Stage → Nat) (args : List String) :
    Conducts host status args (invoke host status args) := by
  obtain ⟨parsed, hmeans⟩ := exists_means args
  unfold invoke
  rw [parse_of_means hmeans]
  cases parsed with
  | help =>
      refine ⟨⟨nofun, ?_⟩, ⟨fun _ => .inl hmeans, fun _ => rfl⟩, Nat.zero_le 2, ?_, fun _ => commandsOf_leave⟩
      · rintro ⟨message, showsUsage, hmalformed⟩
        cases means_unique hmeans hmalformed
      · intro arguments targets hrun _
        cases means_unique hmeans hrun
  | malformed message showsUsage =>
      refine ⟨⟨fun _ => ⟨_, _, hmeans⟩, fun _ => rfl⟩, ⟨nofun, ?_⟩, Nat.le_refl 2, ?_,
        fun _ => commandsOf_leave⟩
      · rintro (hhelp | ⟨arguments, targets, hrun, _⟩)
        · cases means_unique hmeans hhelp
        · cases means_unique hmeans hrun
      · intro arguments targets hrun _
        cases means_unique hmeans hrun
  | run arguments =>
      dsimp only
      split_ifs with hterraform hpatterns
      · apply conducts_unready hmeans
        intro targets hready
        cases hterraform.symm.trans hready.terraform
      · apply conducts_unready hmeans
        intro targets hready
        cases hpatterns.symm.trans hready.patternsDir
      · rcases targetsOf_eq arguments (by simpa using hterraform)
          (by simpa using hpatterns) with ⟨line, herror, hunready⟩ | ⟨targets, hok, hready⟩
        · rw [herror]
          exact conducts_unready hmeans hunready
        · rw [hok]
          exact conducts_ready hmeans hready

end DeployAll
