-- SUMMARY: What a run of `deploy-all.sh` does: the commands of the targets it reaches, the lines it prints and the code it exits with.
import Mathlib.Data.List.Basic
import ServerlessPatterns.DeployAll.Script

/-!
# Runs of the deployment script

`run_pattern` is the condition of an `if`. So errexit is ignored in its subshell, all
three commands of a target are run, and the last one alone decides.
-/

namespace DeployAll

open Shell

variable {settings : Settings} {status : Nat → Stage → Nat} {targets : List String}
  {target : Target} {vars : Vars}

/-! ## One pass -/

/-- The commands of a target, which are run whatever becomes of them. -/
def commandsFor (settings : Settings) (target : Target) : List Command :=
  [command settings target .cd, command settings target .init, command settings target .action]

/-- What is printed behind the commands of a target. -/
def verdict (settings : Settings) (status : Nat → Stage → Nat) (target : Target) : List Line :=
  if status target.2 .action = 0 then [succeededLine settings target]
  else failedLine settings target :: if settings.keepGoing then [] else [stoppingLine]

def passEvents (settings : Settings) (status : Nat → Stage → Nat) (target : Target) :
    List (Event Command Line) :=
  .printed (startedLine settings target) :: (commandsFor settings target).map .ran ++
    (verdict settings status target).map .printed

/-- Where a pass ends: it stops the script if its action fails and it may not go on. -/
def passEnding (settings : Settings) (status : Nat → Stage → Nat) (target : Target) (vars : Vars) :
    Ending Vars :=
  if status target.2 .action = 0 then .done 0 vars
  else if settings.keepGoing then .done 0 ⟨vars.failed ++ [target.1]⟩
  else .exited 1 ⟨vars.failed ++ [target.1]⟩

theorem eval_pass : (pass settings target).eval (fun c => status c.position c.stage) true vars =
    ⟨passEvents settings status target, passEnding settings status target vars⟩ := by
  have hpattern : (runPattern settings target).eval (fun c => status c.position c.stage) false vars =
      ⟨.printed (startedLine settings target) :: (commandsFor settings target).map .ran,
        .done (status target.2 .action) vars⟩ := by
    simp [runPattern, Script.eval, Ending.command, Ending.code, commandsFor, command]
  rw [pass, Script.eval, hpattern, Outcome.bind_done, passEvents, passEnding, verdict]
  by_cases haction : status target.2 .action = 0
  · simp [haction, Script.eval]
  · cases hkeep : settings.keepGoing <;>
      simp [haction, Script.eval, Ending.command]

/-! ## The loop -/

/-- The targets that the script gets to. -/
def reached (settings : Settings) (status : Nat → Stage → Nat) : List Target → List Target
  | [] => []
  | target :: rest =>
    target :: if status target.2 .action = 0 ∨ settings.keepGoing = true then
      reached settings status rest else []

/-- The loop is left by the `exit` of a pass, or it comes to its end. -/
inductive LoopEnding (settings : Settings) (status : Nat → Stage → Nat) (rest : List Target)
    (vars : Vars) : Ending Vars → Prop where
  | stopped {vars' : Vars} (hkeep : settings.keepGoing = false)
      (hfails : ∃ target ∈ rest, status target.2 .action ≠ 0) :
      LoopEnding settings status rest vars (.exited 1 vars')
  | finished {last : Nat} {vars' : Vars}
      (hfailed : vars'.failed = [] ↔ vars.failed = [] ∧ ∀ target ∈ rest, status target.2 .action = 0) :
      LoopEnding settings status rest vars (.done last vars')

theorem passes_spec (rest : List Target) (last : Nat) (vars : Vars) :
    ∃ ending, LoopEnding settings status rest vars ending ∧
      Script.passes (fun c => status c.position c.stage) true (pass settings) rest last vars =
        ⟨(reached settings status rest).flatMap (passEvents settings status), ending⟩ := by
  induction rest generalizing last vars with
  | nil => exact ⟨_, .finished (by simp), rfl⟩
  | cons target rest ih =>
      rw [Script.passes, eval_pass, reached, List.flatMap_cons, passEnding]
      by_cases haction : status target.2 .action = 0
      · obtain ⟨ending, hending, hrest⟩ := ih 0 vars
        refine ⟨ending, ?_, by simp [haction, hrest]⟩
        cases hending with
        | stopped hkeep hfails => exact .stopped hkeep (by simp [haction, hfails])
        | finished hfailed => exact .finished (by simp [haction, hfailed])
      · cases hkeep : settings.keepGoing with
        | false =>
            refine ⟨.exited 1 ⟨vars.failed ++ [target.1]⟩, ?_, by simp [haction]⟩
            exact .stopped hkeep ⟨target, by simp, haction⟩
        | true =>
            obtain ⟨ending, hending, hrest⟩ := ih 0 ⟨vars.failed ++ [target.1]⟩
            refine ⟨ending, ?_, by simp [haction, hrest]⟩
            cases hending with
            | stopped hstop => cases hkeep.symm.trans hstop
            | finished hfailed => exact .finished (by simp [haction, hfailed])

/-! ## The run -/

/-- A line that is about no target. -/
def General (line : Line) : Prop := line.position = none

theorem cleanup_general {ending : Ending Vars} :
    ∃ lines : List Line, cleanup ending = lines.map .printed ∧ ∀ line ∈ lines, General line := by
  unfold cleanup
  split_ifs
  · exact ⟨[_], rfl, by simp [General, err]⟩
  · exact ⟨[], rfl, by simp⟩

theorem eval_summary : (summary settings targets).eval (fun c => status c.position c.stage) true vars =
    if vars.failed = [] then ⟨[.printed (allSucceededLine settings targets)], .done 0 vars⟩
    else ⟨[.printed (failuresLine vars.failed)], .exited 1 vars⟩ := by
  by_cases hfailed : vars.failed = []
  · simp [summary, Script.eval, Script.skip, Ending.command, hfailed]
  · simp [summary, Script.eval, Ending.command, hfailed]

/-- A run with targets is a heading, the loop and a summary, if the script gets there. -/
theorem eval_main (hne : targets ≠ []) :
    (main settings targets).eval (fun c => status c.position c.stage) true ⟨[]⟩ =
      (⟨[.printed (headingLine settings targets)], .done 0 ⟨[]⟩⟩ : Outcome Command Line Vars).bind
        fun _ vars => (Script.passes (fun c => status c.position c.stage) true (pass settings)
          targets.zipIdx 0 vars).bind
            fun _ => (summary settings targets).eval (fun c => status c.position c.stage) true := by
  have hguard : targets.isEmpty = false := List.isEmpty_eq_false_iff.mpr hne
  simp [main, Script.eval, hguard, Ending.command, Script.eval_forEach]

/-- What is printed besides the loop is about no target. -/
theorem main_spec :
    ∃ (front back : List Line) (ending : Ending Vars), (∀ line ∈ front ++ back, General line) ∧
      (main settings targets).eval (fun c => status c.position c.stage) true ⟨[]⟩ =
        ⟨front.map .printed ++
          (reached settings status targets.zipIdx).flatMap (passEvents settings status) ++
          back.map .printed, ending⟩ ∧
      (ending.code = 0 ↔
        targets ≠ [] ∧ ∀ target ∈ targets.zipIdx, status target.2 .action = 0) := by
  by_cases hne : targets = []
  · subst hne
    refine ⟨[noPatternsLine], [], .exited 1 ⟨[]⟩, ?_, ?_, ?_⟩
    · simp [General, noPatternsLine, err]
    · simp [main, Script.eval, Ending.command, reached]
    · exact ⟨fun h => absurd h Nat.one_ne_zero, fun h => absurd rfl h.1⟩
  obtain ⟨ending, hending, hpasses⟩ : ∃ ending,
      LoopEnding settings status targets.zipIdx ⟨[]⟩ ending ∧ _ := passes_spec _ 0 _
  rw [eval_main hne, Outcome.bind_done, hpasses]
  cases hending with
  | @stopped vars' hkeep hfails =>
      obtain ⟨target, hmem, haction⟩ := hfails
      refine ⟨[headingLine settings targets], [], .exited 1 vars', ?_, ?_, ?_⟩
      · simp [General, headingLine, log]
      · simp
      · exact ⟨fun h => absurd h Nat.one_ne_zero, fun h => absurd (h.2 target hmem) haction⟩
  | @finished last vars' hfailed =>
      rw [Outcome.bind_done, eval_summary]
      by_cases hnone : vars'.failed = []
      · refine ⟨[headingLine settings targets], [allSucceededLine settings targets],
          .done 0 vars', ?_, ?_, ?_⟩
        · simp [General, headingLine, log, allSucceededLine, ok]
        · simp [hnone]
        · exact ⟨fun _ => ⟨hne, (hfailed.mp hnone).2⟩, fun _ => rfl⟩
      · refine ⟨[headingLine settings targets], [failuresLine vars'.failed],
          .exited 1 vars', ?_, ?_, ?_⟩
        · simp [General, headingLine, log, failuresLine, err]
        · simp [hnone]
        · exact ⟨fun h => absurd h Nat.one_ne_zero, fun h => absurd (hfailed.mpr ⟨rfl, h.2⟩) hnone⟩

theorem commandsOf_passEvents :
    commandsOf (passEvents settings status target) = commandsFor settings target := by
  simp [passEvents, commandsOf, commandsFor]

theorem linesOf_passEvents : linesOf (passEvents settings status target) =
    startedLine settings target :: verdict settings status target := by
  simp [passEvents, linesOf, commandsFor]

/-- The commands and the lines of a run, and how it exits. -/
theorem deployAll_spec :
    commandsOf (deployAll settings status targets).events =
        (reached settings status targets.zipIdx).flatMap (commandsFor settings) ∧
      (∃ front back, linesOf (deployAll settings status targets).events =
          front ++ (reached settings status targets.zipIdx).flatMap
            (fun target => startedLine settings target :: verdict settings status target) ++ back ∧
        ∀ line ∈ front ++ back, General line) ∧
      ((deployAll settings status targets).exitCode = 0 ↔
        targets ≠ [] ∧ ∀ target ∈ targets.zipIdx, status target.2 .action = 0) := by
  obtain ⟨front, back, ending, hgeneral, hmain, hcode⟩ : ∃ (front back : List Line)
      (ending : Ending Vars), (∀ line ∈ front ++ back, General line) ∧
      (main settings targets).eval (fun c => status c.position c.stage) true ⟨[]⟩ = _ ∧ _ := main_spec
  obtain ⟨last, hlast, hlastGeneral⟩ : ∃ lines : List Line, cleanup ending = _ ∧ _ := cleanup_general
  simp only [deployAll, hmain, hlast]
  refine ⟨?_, ⟨front, back ++ last, ?_, ?_⟩, hcode⟩
  · simp only [commandsOf_append, commandsOf_printed, commandsOf_flatMap, commandsOf_passEvents,
      List.nil_append, List.append_nil]
  · simp only [linesOf_append, linesOf_printed, linesOf_flatMap, linesOf_passEvents,
      List.append_assoc]
  · intro line hline
    rw [← List.append_assoc, List.mem_append] at hline
    exact hline.elim (hgeneral line) (hlastGeneral line)

/-! ## Targets that are reached -/

/-- Nothing stops the script before the target. -/
def Reaches (settings : Settings) (status : Nat → Stage → Nat) (target : Target) : Prop :=
  settings.keepGoing = true ∨ ∀ j < target.2, status j .action = 0

theorem mem_reached : target ∈ reached settings status targets.zipIdx ↔
    target ∈ targets.zipIdx ∧ Reaches settings status target := by
  -- The positions start at any number, since those of the rest of the list do.
  have hfrom : ∀ k, target ∈ reached settings status (targets.zipIdx k) ↔
      target ∈ targets.zipIdx k ∧ (settings.keepGoing = true ∨
        ∀ j, k ≤ j → j < target.2 → status j .action = 0) := by
    induction targets with
    | nil => simp [reached]
    | cons name rest ih =>
        intro k
        rw [List.zipIdx_cons, reached, List.mem_cons, List.mem_cons]
        constructor
        · rintro (rfl | hmem)
          · exact ⟨.inl rfl, .inr fun j hle hlt => absurd hlt (by simpa using hle)⟩
          · split_ifs at hmem with hgoes
            · obtain ⟨hrest, hkeep | hbefore⟩ := (ih (k + 1)).mp hmem
              · exact ⟨.inr hrest, .inl hkeep⟩
              · refine ⟨.inr hrest, hgoes.symm.imp_right fun hfirst j hle hlt => ?_⟩
                rcases Nat.eq_or_lt_of_le hle with rfl | hlater
                · exact hfirst
                · exact hbefore j hlater hlt
            · simp at hmem
        · rintro ⟨rfl | hrest, hreaches⟩
          · exact .inl rfl
          · have hlater := List.le_snd_of_mem_zipIdx hrest
            refine .inr ?_
            rw [if_pos (hreaches.symm.imp_left fun hbefore => hbefore k (Nat.le_refl k) hlater)]
            exact (ih (k + 1)).mpr ⟨hrest, hreaches.imp_right fun hbefore j hle hlt =>
              hbefore j (by omega) hlt⟩
  simpa [Reaches] using hfrom 0

/-- Behind a target that is reached and is not the last of them, no action has failed. -/
theorem pairwise_reached {rest : List Target} (hkeep : settings.keepGoing = false) :
    (reached settings status rest).Pairwise fun target _ => status target.2 .action = 0 := by
  induction rest with
  | nil => exact .nil
  | cons target rest ih =>
      rw [reached]
      split_ifs with hgoes
      · have haction := hgoes.resolve_right (by simp [hkeep])
        exact .cons (fun _ _ => haction) ih
      · exact List.pairwise_singleton _ _

theorem exists_earlier {j : Nat} (hmem : target ∈ targets.zipIdx) (hlt : j < target.2) :
    ∃ earlier ∈ targets.zipIdx, earlier.2 = j := by
  have hlength := List.snd_lt_of_mem_zipIdx hmem
  have hj : j < targets.length := by omega
  exact ⟨(targets[j], j), List.mk_mem_zipIdx_iff_getElem?.mpr (List.getElem?_eq_getElem hj), rfl⟩

end DeployAll
