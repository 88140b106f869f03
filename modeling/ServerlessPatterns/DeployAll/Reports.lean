-- SUMMARY: When `deploy-all.sh` reports success only for success, and when it stops at a failure.
import ServerlessPatterns.DeployAll.Runs

/-!
# Reports of the deployment script

The script promises that a failure is reported and ends the run with a code other than
zero, at once or, with `--keep-going`, behind the last target.
-/

namespace DeployAll

open Shell

variable {settings : Settings} {status : Nat → Stage → Nat} {targets : List String}
  {target : Target}

/-! ## What the script promises -/

/-- The script is done with a target: it has run a command for it and says how it went. -/
def Processed (settings : Settings) (run : Run) (target : Target) : Prop :=
  (∃ c ∈ commandsOf run.events, c.position = target.2) ∧
    (succeededLine settings target ∈ linesOf run.events ∨
      failedLine settings target ∈ linesOf run.events)

/-- All commands of the target succeed. -/
def Succeeds (status : Nat → Stage → Nat) (target : Target) : Prop :=
  ∀ stage, status target.2 stage = 0

/-- Success is reported for success only, and a failure ends the run unless it is to go on. -/
structure Truthful (settings : Settings) (status : Nat → Stage → Nat) (targets : List String) :
    Prop where
  reports : ∀ target,
    succeededLine settings target ∈ linesOf (deployAll settings status targets).events →
      Succeeds status target
  exitCode : (deployAll settings status targets).exitCode = 0 ↔
    ∀ target ∈ targets.zipIdx, Succeeds status target
  stops : settings.keepGoing = false → ∀ target ∈ targets.zipIdx, ¬ Succeeds status target →
    ∀ c ∈ commandsOf (deployAll settings status targets).events, c.position ≤ target.2
  goesOn : settings.keepGoing = true → ∀ target ∈ targets.zipIdx,
    Processed settings (deployAll settings status targets) target

/-- Not even another command of the same target is run behind one that failed. -/
def StopsAtOnce (settings : Settings) (status : Nat → Stage → Nat) (targets : List String) : Prop :=
  settings.keepGoing = false →
    (commandsOf (deployAll settings status targets).events).Pairwise
      fun c _ => status c.position c.stage = 0

/-- The commands before the action succeed. -/
def Prepared (status : Nat → Stage → Nat) (target : Target) : Prop :=
  status target.2 .cd = 0 ∧ status target.2 .init = 0

/-- There is a target, and no action succeeds behind a `cd` or `init` that failed. -/
def Unmasked (settings : Settings) (status : Nat → Stage → Nat) (targets : List String) : Prop :=
  targets ≠ [] ∧ ∀ target ∈ targets.zipIdx, Reaches settings status target →
    status target.2 .action = 0 → Prepared status target

theorem succeeds_iff : Succeeds status target ↔
    Prepared status target ∧ status target.2 .action = 0 := by
  constructor
  · exact fun h => ⟨⟨h .cd, h .init⟩, h .action⟩
  · rintro ⟨⟨hcd, hinit⟩, haction⟩ stage
    cases stage with
    | cd => exact hcd
    | init => exact hinit
    | action => exact haction

/-! ## What a run reports -/

theorem verdict_mem {line : Line} (hmem : target ∈ targets.zipIdx)
    (hreaches : Reaches settings status target) (hline : line ∈ verdict settings status target) :
    line ∈ linesOf (deployAll settings status targets).events := by
  obtain ⟨front, back, hlines, _⟩ : ∃ front back : List Line,
      linesOf (deployAll settings status targets).events = _ ∧ _ := deployAll_spec.2.1
  rw [hlines]
  refine List.mem_append_left _ (List.mem_append_right _ (List.mem_flatMap.mpr ⟨target, ?_, ?_⟩))
  · exact mem_reached.mpr ⟨hmem, hreaches⟩
  · exact List.mem_cons_of_mem _ hline

/-- Success is reported for the targets whose action succeeds. -/
theorem of_succeededLine_mem
    (h : succeededLine settings target ∈ linesOf (deployAll settings status targets).events) :
    ∃ reported ∈ targets.zipIdx, reported.2 = target.2 ∧ Reaches settings status reported ∧
      status reported.2 .action = 0 := by
  obtain ⟨front, back, hlines, hgeneral⟩ : ∃ front back : List Line,
      linesOf (deployAll settings status targets).events = _ ∧ _ := deployAll_spec.2.1
  have hnot : ∀ line ∈ front ++ back, line ≠ succeededLine settings target := by
    rintro line hline rfl
    cases hgeneral _ hline
  rw [hlines, List.mem_append, List.mem_append] at h
  rcases h with (hfront | hloop) | hback
  · exact absurd rfl (hnot _ (List.mem_append_left _ hfront))
  · obtain ⟨reported, hreached, hline⟩ := List.mem_flatMap.mp hloop
    obtain ⟨hmem, hreaches⟩ := mem_reached.mp hreached
    rcases List.mem_cons.mp hline with heq | hverdict
    · cases congrArg Line.level heq
    · unfold verdict at hverdict
      split_ifs at hverdict with haction hkeep
      · have heq := congrArg Line.position (List.mem_singleton.mp hverdict)
        exact ⟨reported, hmem, (Option.some.inj heq).symm, hreaches, haction⟩
      · cases congrArg Line.level (List.mem_singleton.mp hverdict)
      · rcases List.mem_cons.mp hverdict with heq | hstopping
        · cases congrArg Line.level heq
        · cases congrArg Line.level (List.mem_singleton.mp hstopping)
  · exact absurd rfl (hnot _ (List.mem_append_right _ hback))

theorem mem_commandsOf {c : Command} : c ∈ commandsOf (deployAll settings status targets).events ↔
    ∃ target ∈ targets.zipIdx, Reaches settings status target ∧ c ∈ commandsFor settings target := by
  rw [deployAll_spec.1, List.mem_flatMap]
  simp only [mem_reached, and_assoc]

theorem position_commandsFor {c : Command} (h : c ∈ commandsFor settings target) :
    c.position = target.2 := by
  simp only [commandsFor, List.mem_cons, List.not_mem_nil, or_false] at h
  rcases h with rfl | rfl | rfl <;> rfl

theorem truthful_of_unmasked (h : Unmasked settings status targets) :
    Truthful settings status targets where
  reports := by
    intro target hreported
    obtain ⟨reported, hmem, hposition, hreaches, haction⟩ := of_succeededLine_mem hreported
    have hsucceeds := succeeds_iff.mpr ⟨h.2 reported hmem hreaches haction, haction⟩
    unfold Succeeds at hsucceeds ⊢
    rw [← hposition]
    exact hsucceeds
  exitCode := by
    rw [deployAll_spec.2.2]
    constructor
    · rintro ⟨_, hall⟩ target hmem
      have hreaches : Reaches settings status target := by
        refine .inr fun j hlt => ?_
        obtain ⟨earlier, hearlier, rfl⟩ := exists_earlier hmem hlt
        exact hall earlier hearlier
      exact succeeds_iff.mpr ⟨h.2 target hmem hreaches (hall target hmem), hall target hmem⟩
    · exact fun hall => ⟨h.1, fun target hmem => hall target hmem .action⟩
  stops := by
    intro hkeep target hmem hfails c hc
    obtain ⟨later, _, hreaches, hcommand⟩ := mem_commandsOf.mp hc
    rw [position_commandsFor hcommand]
    by_contra hbehind
    have hbefore := hreaches.resolve_left (by simp [hkeep])
    have haction := hbefore target.2 (by omega)
    have hreached : Reaches settings status target := .inr fun j hlt => hbefore j (by omega)
    exact hfails (succeeds_iff.mpr ⟨h.2 target hmem hreached haction, haction⟩)
  goesOn := by
    intro hkeep target hmem
    have hreaches : Reaches settings status target := .inl hkeep
    refine ⟨⟨command settings target .cd, ?_, rfl⟩, ?_⟩
    · exact mem_commandsOf.mpr ⟨target, hmem, hreaches, List.mem_cons_self⟩
    · by_cases haction : status target.2 .action = 0
      · exact .inl (verdict_mem hmem hreaches (by simp [verdict, haction]))
      · exact .inr (verdict_mem hmem hreaches (by simp [verdict, haction]))

theorem truthful_iff_unmasked : Truthful settings status targets ↔ Unmasked settings status targets := by
  constructor
  · intro h
    refine ⟨?_, fun target hmem hreaches haction => ?_⟩
    · rintro rfl
      have hnone : (deployAll settings status []).exitCode = 0 := h.exitCode.mpr nofun
      exact (deployAll_spec.2.2.mp hnone).1 rfl
    · have hline : succeededLine settings target ∈ verdict settings status target := by
        simp [verdict, haction]
      exact (succeeds_iff.mp (h.reports target (verdict_mem hmem hreaches hline))).1
  · exact truthful_of_unmasked

theorem stopsAtOnce_iff : StopsAtOnce settings status targets ↔
    (settings.keepGoing = false → ∀ target ∈ targets.zipIdx, Reaches settings status target →
      Prepared status target) := by
  refine imp_congr_right fun hkeep => ?_
  rw [deployAll_spec.1, List.pairwise_flatMap]
  have hone : ∀ target, (commandsFor settings target).Pairwise
      (fun c _ => status c.position c.stage = 0) ↔ Prepared status target := by
    simp [commandsFor, command, Prepared]
  constructor
  · rintro ⟨hall, _⟩ target hmem hreaches
    exact (hone target).mp (hall target (mem_reached.mpr ⟨hmem, hreaches⟩))
  · intro hprepared
    have hreached : ∀ target ∈ reached settings status targets.zipIdx, Prepared status target := by
      intro target hmem
      exact hprepared target (mem_reached.mp hmem).1 (mem_reached.mp hmem).2
    refine ⟨fun target hmem => (hone target).mpr (hreached target hmem), ?_⟩
    refine (pairwise_reached hkeep).imp_of_mem fun hmem _ haction c hc _ _ => ?_
    rw [position_commandsFor hc]
    exact succeeds_iff.mpr ⟨hreached _ hmem, haction⟩ c.stage

/-- The script keeps its promises exactly when no action succeeds behind a `cd` or `init`
    that failed. That it stops at the very command is more: nothing but an action may fail. -/
theorem truthful_iff :
    (Truthful settings status targets ↔ Unmasked settings status targets) ∧
    (Truthful settings status targets ∧ StopsAtOnce settings status targets ↔
      Unmasked settings status targets ∧ (settings.keepGoing = false →
        ∀ target ∈ targets.zipIdx, Reaches settings status target → Prepared status target)) :=
  ⟨truthful_iff_unmasked, and_congr truthful_iff_unmasked stopsAtOnce_iff⟩

/-- The first of two targets cannot be initialized, but is applied. -/
def failedInit : Nat → Stage → Nat
  | 0, .init => 1
  | _, _ => 0

theorem truthful_counterexample :
    ¬ Truthful ⟨"patterns", .apply, false⟩ failedInit ["retry-backoff", "saga"] := by
  rw [truthful_iff_unmasked]
  rintro ⟨_, hall⟩
  have hmem : ("retry-backoff", 0) ∈ ["retry-backoff", "saga"].zipIdx := by decide
  have hreaches : Reaches ⟨"patterns", .apply, false⟩ failedInit ("retry-backoff", 0) := .inr nofun
  cases (hall _ hmem hreaches rfl).2

end DeployAll
