-- SUMMARY: The arguments of `deploy-all.sh`: the loop that parses them, and the grammar of what it accepts.
import Mathlib.Data.List.Basic
import ServerlessPatterns.DeployAll.Script

/-!
# Command line

The loop takes one argument after the other, or two for a pattern. It stops at the first
one that asks for help or that it does not know, and does not look at those behind it.
-/

namespace DeployAll

/-- `ACTION`, `KEEP_GOING` and `SELECTED`. -/
structure Arguments where
  action : Action
  keepGoing : Bool
  selected : List String

def Arguments.default : Arguments := ⟨.plan, false, []⟩

/-- What the loop comes to. -/
inductive Parsed where
  | run (arguments : Arguments)
  | help
  | malformed (message : String) (showsUsage : Bool)

/-! ## The loop -/

/-- The branches of the `case`. -/
inductive Word where
  | action (action : Action)
  | pattern
  | keepGoing
  | help
  | unknown

def Word.of (arg : String) : Word :=
  if arg = "validate" then .action .validate
  else if arg = "plan" then .action .plan
  else if arg = "apply" then .action .apply
  else if arg = "destroy" then .action .destroy
  else if arg = "-p" ∨ arg = "--pattern" then .pattern
  else if arg = "-k" ∨ arg = "--keep-going" then .keepGoing
  else if arg = "-h" ∨ arg = "--help" then .help
  else .unknown

def parse : List String → Arguments → Parsed
  | [], arguments => .run arguments
  | arg :: rest, arguments =>
    match Word.of arg with
    | .action action => parse rest { arguments with action := action }
    | .pattern =>
      match rest with
      | [] => .malformed s!"{arg} requires a value" false
      | name :: rest => parse rest { arguments with selected := arguments.selected ++ [name] }
    | .keepGoing => parse rest { arguments with keepGoing := true }
    | .help => .help
    | .unknown => .malformed s!"unknown argument: {arg}" true

/-! ## The grammar -/

/-- What a user may ask for, in one of the spellings. -/
inductive Flag where
  | action (action : Action)
  | pattern (long : Bool) (name : String)
  | keepGoing (long : Bool)

namespace Flag

def words : Flag → List String
  | .action chosen => [chosen.name]
  | .pattern long name => [if long then "--pattern" else "-p", name]
  | .keepGoing long => [if long then "--keep-going" else "-k"]

def apply (arguments : Arguments) : Flag → Arguments
  | .action chosen => { arguments with action := chosen }
  | .pattern _ name => { arguments with selected := arguments.selected ++ [name] }
  | .keepGoing _ => { arguments with keepGoing := true }

end Flag

/-- All flags together, the later ones after the earlier ones. -/
def settled (flags : List Flag) : Arguments := flags.foldl Flag.apply .default

/-- What a command line means. Any word may be the name of a pattern, also one that is a
    flag elsewhere. -/
inductive Means : List String → Parsed → Prop where
  | run (flags : List Flag) : Means (flags.flatMap Flag.words) (.run (settled flags))
  | help (flags : List Flag) {word : String} (hword : word ∈ ["-h", "--help"]) (rest : List String) :
      Means (flags.flatMap Flag.words ++ word :: rest) .help
  | valueless (flags : List Flag) {word : String} (hword : word ∈ ["-p", "--pattern"]) :
      Means (flags.flatMap Flag.words ++ [word]) (.malformed s!"{word} requires a value" false)
  | unknown (flags : List Flag) {word : String}
      (hword : word ∉ ["validate", "plan", "apply", "destroy", "-p", "--pattern", "-k",
        "--keep-going", "-h", "--help"]) (rest : List String) :
      Means (flags.flatMap Flag.words ++ word :: rest) (.malformed s!"unknown argument: {word}" true)

variable {arg word : String} {args rest : List String} {flags : List Flag} {arguments : Arguments}
  {parsed : Parsed}

/-! ## Words -/

theorem of_name (action : Action) : Word.of action.name = .action action := by
  cases action <;> simp [Word.of, Action.name]

theorem of_pattern (h : word ∈ ["-p", "--pattern"]) : Word.of word = .pattern := by
  simp only [List.mem_cons, List.not_mem_nil, or_false] at h
  rcases h with rfl | rfl <;> simp [Word.of]

theorem of_help (h : word ∈ ["-h", "--help"]) : Word.of word = .help := by
  simp only [List.mem_cons, List.not_mem_nil, or_false] at h
  rcases h with rfl | rfl <;> simp [Word.of]

theorem of_unknown (h : word ∉ ["validate", "plan", "apply", "destroy", "-p", "--pattern", "-k",
    "--keep-going", "-h", "--help"]) : Word.of word = .unknown := by
  simp only [List.mem_cons, List.not_mem_nil, or_false, not_or] at h
  simp [Word.of, h]

/-- What an argument is, by the branch that it takes. -/
inductive Spelled (arg : String) : Word → Prop where
  | action {action : Action} (h : arg = action.name) : Spelled arg (.action action)
  | pattern (long : Bool) (h : arg = if long then "--pattern" else "-p") : Spelled arg .pattern
  | keepGoing (long : Bool) (h : arg = if long then "--keep-going" else "-k") : Spelled arg .keepGoing
  | help (h : arg ∈ ["-h", "--help"]) : Spelled arg .help
  | unknown (h : arg ∉ ["validate", "plan", "apply", "destroy", "-p", "--pattern", "-k",
      "--keep-going", "-h", "--help"]) : Spelled arg .unknown

theorem spelled_of (arg : String) : Spelled arg (Word.of arg) := by
  unfold Word.of
  split_ifs with hvalidate hplan happly hdestroy hpattern hkeep hhelp
  · exact .action hvalidate
  · exact .action hplan
  · exact .action happly
  · exact .action hdestroy
  · rcases hpattern with rfl | rfl
    · exact .pattern false rfl
    · exact .pattern true rfl
  · rcases hkeep with rfl | rfl
    · exact .keepGoing false rfl
    · exact .keepGoing true rfl
  · exact .help (by simpa using hhelp)
  · apply Spelled.unknown
    simp only [List.mem_cons, List.not_mem_nil, or_false, not_or]
    tauto

/-! ## Parsing -/

theorem parse_help (h : Word.of word = .help) : parse (word :: rest) arguments = .help := by
  rw [parse.eq_def]
  simp [h]

theorem parse_unknown (h : Word.of word = .unknown) :
    parse (word :: rest) arguments = .malformed s!"unknown argument: {word}" true := by
  rw [parse.eq_def]
  simp [h]

theorem parse_flag (flag : Flag) :
    parse (flag.words ++ rest) arguments = parse rest (flag.apply arguments) := by
  cases flag with
  | action chosen =>
      rw [Flag.words, List.singleton_append, parse.eq_def]
      simp [of_name, Flag.apply]
  | pattern long name => cases long <;> simp [Flag.words, parse, Word.of, Flag.apply]
  | keepGoing long =>
      rw [Flag.words, List.singleton_append, parse.eq_def]
      cases long <;> simp [Word.of, Flag.apply]

theorem parse_flags : parse (flags.flatMap Flag.words ++ rest) arguments =
    parse rest (flags.foldl Flag.apply arguments) := by
  induction flags generalizing arguments with
  | nil => rfl
  | cons flag flags ih => rw [List.flatMap_cons, List.append_assoc, parse_flag, ih, List.foldl_cons]

theorem parse_of_means (h : Means args parsed) : parse args .default = parsed := by
  cases h with
  | run flags =>
      rw [← List.append_nil (flags.flatMap Flag.words), parse_flags]
      rfl
  | help flags hword rest => rw [parse_flags, parse_help (of_help hword)]
  | valueless flags hword => rw [parse_flags, parse, of_pattern hword]
  | unknown flags hword rest => rw [parse_flags, parse_unknown (of_unknown hword)]

theorem Means.cons (flag : Flag) (h : Means args parsed) :
    ∃ parsed, Means (flag.words ++ args) parsed := by
  cases h with
  | run flags => exact ⟨_, .run (flag :: flags)⟩
  | help flags hword rest =>
      rw [← List.append_assoc]
      exact ⟨_, .help (flag :: flags) hword rest⟩
  | valueless flags hword =>
      rw [← List.append_assoc]
      exact ⟨_, .valueless (flag :: flags) hword⟩
  | unknown flags hword rest =>
      rw [← List.append_assoc]
      exact ⟨_, .unknown (flag :: flags) hword rest⟩

/-- Every command line means something. -/
theorem exists_means : ∀ args, ∃ parsed, Means args parsed
  | [] => ⟨_, .run []⟩
  | arg :: rest => by
    have hspelled := spelled_of arg
    cases hword : Word.of arg with
    | action action =>
        rw [hword] at hspelled
        cases hspelled with
        | action harg =>
            obtain ⟨_, hrest⟩ := exists_means rest
            exact harg ▸ hrest.cons (.action action)
    | pattern =>
        rw [hword] at hspelled
        cases hspelled with
        | pattern long harg =>
            cases rest with
            | nil => exact ⟨_, .valueless [] (by cases long <;> simp [harg])⟩
            | cons name rest =>
                obtain ⟨_, hrest⟩ := exists_means rest
                exact harg ▸ hrest.cons (.pattern long name)
    | keepGoing =>
        rw [hword] at hspelled
        cases hspelled with
        | keepGoing long harg =>
            obtain ⟨_, hrest⟩ := exists_means rest
            exact harg ▸ hrest.cons (.keepGoing long)
    | help =>
        rw [hword] at hspelled
        cases hspelled with
        | help harg => exact ⟨_, .help [] harg rest⟩
    | unknown =>
        rw [hword] at hspelled
        cases hspelled with
        | unknown harg => exact ⟨_, .unknown [] harg rest⟩

/-- The loop comes to what the command line says, for every list of arguments. -/
theorem parse_iff_means : parse args .default = parsed ↔ Means args parsed := by
  constructor
  · rintro rfl
    obtain ⟨parsed, hmeans⟩ := exists_means args
    rwa [parse_of_means hmeans]
  · exact parse_of_means

end DeployAll
