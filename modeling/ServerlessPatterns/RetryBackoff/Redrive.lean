-- SUMMARY: For which configurations a message that always fails reaches the dead-letter queue before it expires.
import ServerlessPatterns.Library.Backoff
import ServerlessPatterns.Library.Configuration
import ServerlessPatterns.Library.Retention
import ServerlessPatterns.RetryBackoff.BatchContract

/-!
# Redrive

The variables of the backoff and of the queue are validated one by one. Whether the
delays fit into the retention period depends on all four.
-/

namespace RetryBackoff

open Program BatchFunction Configuration Retention

/-- The Terraform variables of the backoff and the work queue, within their
    validations. -/
structure Variables where
  backoffBaseSeconds : ℚ
  backoffMaxSeconds : ℚ
  maxReceiveCount : Nat
  messageRetentionSeconds : ℚ
  baseAdmitted : 1 ≤ backoffBaseSeconds ∧ backoffBaseSeconds ≤ 900
  maxAdmitted : 1 ≤ backoffMaxSeconds ∧ backoffMaxSeconds ≤ 43200
  countAdmitted : 1 ≤ maxReceiveCount ∧ maxReceiveCount ≤ 1000
  retentionAdmitted : 60 ≤ messageRetentionSeconds ∧ messageRetentionSeconds ≤ 1209600

namespace Variables

/-- The environment of the function. -/
def config (vars : Variables) (tostring : ℚ → String) (queueUrl : String) : Config where
  queueUrl := queueUrl
  backoffBaseSeconds := some (tostring vars.backoffBaseSeconds)
  backoffMaxSeconds := some (tostring vars.backoffMaxSeconds)

/-- The work queue. -/
def policy (vars : Variables) : Policy where
  retention := vars.messageRetentionSeconds
  maxReceiveCount := vars.maxReceiveCount

/-- The base as the function reads it. -/
def base (vars : Variables) : Nat := readBack 5 vars.backoffBaseSeconds

/-- The maximum as the function reads it. -/
def cap (vars : Variables) : Nat := readBack 900 vars.backoffMaxSeconds

end Variables

/-- A message, with the receipt handle of each of its receipts. -/
structure Message where
  messageId : String
  receiptHandle : Nat → String
  body : String
  attributes : List (String × Json)

/-- The record of its `n`-th receipt. -/
def Message.record (message : Message) (n : Nat) : Record where
  messageId := message.messageId
  receiptHandle := message.receiptHandle n
  body := message.body
  receiveCount := toString n
  attributes := message.attributes

/-- An invocation on the `n`-th receipt in which processing fails, and which hides the
    message for this long. -/
def Hidden (py : Python) (config : Config) (message : Message) (n : Nat) (d : ℚ) : Prop :=
  ∃ (calls : List (Event Op Ans)) (failures : List Json) (delay : Int),
    Calls (handle py config (event [(message.record n).json])) calls (.returned (response failures)) ∧
    (∀ call ∈ calls, Answered call.1 call.2) ∧
    ⟨.changeMessageVisibility config.queueUrl (.str (message.receiptHandle n)) delay, .ok ()⟩ ∈ calls ∧
    (delay : ℚ) = d

variable {py : Python} {tostring : ℚ → String} {config : Config} {vars : Variables}
  {queueUrl : String} {message : Message}

/-! ## The delays of a message -/

theorem parsed_record {n : Nat} : parsed py (message.record n).json = parsed py (message.record 1).json := by
  rw [parsed_json, parsed_json]
  rfl

/-- The longest delay of a failing message is just below the ceiling of its backoff. -/
theorem longest_hidden (hnumerals : Numerals py tostring) {body : Json}
    (hparsed : parsed py (message.record 1).json = .ok body) :
    Longest (Hidden py config message)
      fun n => (longestDelay n (config.base py) (config.cap py) : ℚ) where
  nonneg n := by
    have hnonneg : 0 ≤ longestDelay n (config.base py) (config.cap py) := le_max_left 0 _
    exact_mod_cast hnonneg
  bounds n d h := by
    obtain ⟨calls, failures, delay, hcalls, hanswered, hmem, rfl⟩ := h
    obtain ⟨reported, hrecord, rfl⟩ := single_calls.mp hcalls
    have hhandled := handleRecord_handled (hnumerals.count n) hrecord hanswered
    generalize hpart : (⟨calls, reported.toList⟩ : Part Op Ans) = part at hhandled
    obtain rfl : calls = part.calls := congrArg Part.calls hpart
    cases hhandled with
    | unparseable => cases hmem
    | processed => simp at hmem
    | backedOff _ hcount _ hhigh =>
        obtain rfl := Option.some.inj ((hnumerals.count n).symm.trans hcount)
        simp only [List.mem_cons, List.not_mem_nil, or_false] at hmem
        rcases hmem with hmem | hmem | hmem
        · cases hmem
        · cases hmem
        · cases hmem
          exact hhigh
  attained n := by
    have hrecord := handleRecord_backedOff config (longestDelay n (config.base py) (config.cap py))
      (hnumerals.count n) (parsed_record.trans hparsed)
      (rfl : (Exc.builtin "RetryableError" "nope").isInstance "Exception" = true)
    have hnonneg : 0 ≤ longestDelay n (config.base py) (config.cap py) := le_max_left 0 _
    have hcast : (0 : ℚ) ≤ (longestDelay n (config.base py) (config.cap py) : ℚ) := by
      exact_mod_cast hnonneg
    have htruncate : Python.truncate (longestDelay n (config.base py) (config.cap py) : ℚ) =
        longestDelay n (config.base py) (config.cap py) := by
      rw [Python.truncate, if_pos hcast, Int.floor_intCast]
    rw [htruncate] at hrecord
    refine ⟨_, _, _, single_calls.mpr ⟨_, hrecord, rfl⟩, ?_, ?_, rfl⟩
    · simp only [List.forall_mem_cons]
      refine ⟨Python.ordinary_error rfl, ?_, Python.ordinary_ok, by simp⟩
      exact drawn_longest (le_max_left 0 _)
    · simp [Message.record]

/-- With a cap that SQS accepts, the ceilings are those of a capped exponential
    backoff. -/
theorem backoffCeiling_eq {base cap k : Nat} (hcap : cap ≤ 43200) :
    backoffCeiling ((k + 1 : Nat) : Int) base cap = Backoff.delay base cap k := by
  have hexponent : (max 1 ((k + 1 : Nat) : Int) - 1).toNat = k := by omega
  have hcast : ((Backoff.delay base cap k : Nat) : Int) = min (cap : Int) (base * 2 ^ k) := by
    unfold Backoff.delay
    push_cast
    rfl
  have hnonneg : (0 : Int) ≤ base * 2 ^ k := by positivity
  rw [backoffCeiling_unguarded, hexponent, hcast]
  omega

theorem Variables.config_base (hnumerals : Numerals py tostring) :
    (vars.config tostring queueUrl).base py = vars.base :=
  hnumerals.readBack vars.baseAdmitted.1

theorem Variables.config_cap (hnumerals : Numerals py tostring) :
    (vars.config tostring queueUrl).cap py = vars.cap :=
  hnumerals.readBack vars.maxAdmitted.1

/-- The admitted ceilings are positive, so that the longest delays are one second below. -/
theorem longestDelay_admitted {base cap k : Nat} (hbase : 0 < base) (hpos : 0 < cap) (hcap : cap ≤ 43200) :
    (longestDelay ((k + 1 : Nat) : Int) base cap : ℚ) = Backoff.delay base cap k - 1 := by
  have hdelay : 0 < Backoff.delay base cap k := lt_min hpos (Nat.mul_pos hbase (by positivity))
  have hmax : max 0 ((Backoff.delay base cap k : Int) - 1) = (Backoff.delay base cap k : Int) - 1 := by
    omega
  rw [longestDelay, backoffCeiling_eq hcap, hmax]
  push_cast
  rfl

theorem oldest_eq (hnumerals : Numerals py tostring) {n : Nat} :
    oldest (fun n => (longestDelay n ((vars.config tostring queueUrl).base py)
      ((vars.config tostring queueUrl).cap py) : ℚ)) n = Backoff.total vars.base vars.cap n - n := by
  have hbase : 0 < vars.base := readBack_pos (by decide) vars.baseAdmitted.1
  have hpos : 0 < vars.cap := readBack_pos (by decide) vars.maxAdmitted.1
  have hcap : vars.cap ≤ 43200 := readBack_le (by decide) (by exact_mod_cast vars.maxAdmitted.2)
  rw [Variables.config_base hnumerals, Variables.config_cap hnumerals]
  induction n with
  | zero => simp [oldest, Backoff.total]
  | succ n ih =>
      have htotal : Backoff.total vars.base vars.cap (n + 1) =
          Backoff.total vars.base vars.cap n + Backoff.delay vars.base vars.cap n :=
        Finset.sum_range_succ ..
      rw [oldest_succ, ih, htotal, longestDelay_admitted hbase hpos hcap]
      push_cast
      ring

theorem deadLettered_iff_total (hnumerals : Numerals py tostring) {body : Json}
    (hparsed : parsed py (message.record 1).json = .ok body) :
    AlwaysDeadLettered vars.policy (Hidden py (vars.config tostring queueUrl) message) ↔
      (Backoff.total vars.base vars.cap vars.maxReceiveCount : ℚ) - vars.maxReceiveCount ≤
        vars.messageRetentionSeconds := by
  rw [alwaysDeadLettered_iff (longest_hidden hnumerals hparsed), oldest_eq hnumerals]
  rfl

/-- A message whose processing fails on every receipt always ends in the dead-letter
    queue if and only if the longest delays fit into the retention period. The ceilings
    are the base, doubled up to the maximum, and the maximum for the receipts that are
    left, and each delay is at most one second below its ceiling. -/
theorem deadLettered_iff (hnumerals : Numerals py tostring) {body : Json}
    (hparsed : parsed py (message.record 1).json = .ok body) :
    AlwaysDeadLettered vars.policy (Hidden py (vars.config tostring queueUrl) message) ↔
      vars.base * (2 ^ min vars.maxReceiveCount (Backoff.doublings vars.base vars.cap) - 1) +
        (vars.maxReceiveCount - min vars.maxReceiveCount (Backoff.doublings vars.base vars.cap)) *
          vars.cap - vars.maxReceiveCount ≤ vars.messageRetentionSeconds := by
  have hbase : 0 < vars.base := readBack_pos (by decide) vars.baseAdmitted.1
  rw [deadLettered_iff_total hnumerals hparsed, Backoff.total_eq hbase, Nat.cast_add, Nat.cast_mul, Nat.cast_mul,
    Nat.cast_sub Nat.one_le_two_pow, Nat.cast_sub (Nat.min_le_left _ _), Nat.cast_pow]
  norm_cast

/-! ## Sample configurations -/

def sampleMessage : Message where
  messageId := "evt-1"
  receiptHandle n := "handle-" ++ toString n
  body := ""
  attributes := []

theorem parsed_sampleMessage : parsed decimal (sampleMessage.record 1).json = .ok (.obj []) := rfl

/-- The defaults of all variables. -/
def defaults : Variables where
  backoffBaseSeconds := (5 : Nat)
  backoffMaxSeconds := (900 : Nat)
  maxReceiveCount := 5
  messageRetentionSeconds := 345600
  baseAdmitted := by norm_num
  maxAdmitted := by norm_num
  countAdmitted := by norm_num
  retentionAdmitted := by norm_num

theorem deadLettered_iff_defaults :
    AlwaysDeadLettered defaults.policy
      (Hidden decimal (defaults.config sampleTostring "work") sampleMessage) := by
  apply (deadLettered_iff numerals_decimal parsed_sampleMessage).mpr
  have hbase : defaults.base = 5 := readBack_natCast
  have hcap : defaults.cap = 900 := readBack_natCast
  have hdoublings : Backoff.doublings 5 900 = 8 := by decide +kernel
  rw [hbase, hcap, hdoublings]
  norm_num [defaults]

/-- A message is kept for a minute, and may be backed off for an hour at a time. -/
def shortRetention : Variables where
  backoffBaseSeconds := (900 : Nat)
  backoffMaxSeconds := (3600 : Nat)
  maxReceiveCount := 5
  messageRetentionSeconds := 60
  baseAdmitted := by norm_num
  maxAdmitted := by norm_num
  countAdmitted := by norm_num
  retentionAdmitted := by norm_num

theorem deadLettered_counterexample :
    ¬ AlwaysDeadLettered shortRetention.policy
      (Hidden decimal (shortRetention.config sampleTostring "work") sampleMessage) := by
  have hbase : shortRetention.base = 900 := readBack_natCast
  have hcap : shortRetention.cap = 3600 := readBack_natCast
  have htotal : Backoff.total 900 3600 5 = 13500 := by decide +kernel
  rw [deadLettered_iff_total numerals_decimal parsed_sampleMessage, hbase, hcap]
  change ¬ ((Backoff.total 900 3600 5 : Nat) : ℚ) - ((5 : Nat) : ℚ) ≤ 60
  rw [htotal]
  norm_num

end RetryBackoff
