-- SUMMARY: What the backoff processor does with each record of a batch: what it reports, what it backs off, and for how long.
import Mathlib.Tactic.Positivity
import Mathlib.Tactic.Ring
import ServerlessPatterns.RetryBackoff.Isolation

/-!
# The contract of a batch

Each record is reported at once, or processed, or processed in vain. In the last case
it is backed off and reported, and it makes no difference whether SQS accepts the
backoff.
-/

namespace RetryBackoff

open Program BatchFunction

variable {py : Python} {config : Config} {record : Record} {records : List Record}
  {bound : Int → ℚ}

def Config.base (py : Python) (config : Config) : Int := intEnv py config.backoffBaseSeconds 5
def Config.cap (py : Python) (config : Config) : Int := intEnv py config.backoffMaxSeconds 900

/-- `max(0, min(cap, base * 2^(n-1), 43200))`. -/
def delayBound (base cap n : Int) : ℚ :=
  max 0 (min (min (cap : ℚ) (base * 2 ^ (n - 1))) 43200)

/-- `random.uniform(low, high)` is `low + (high - low) * random()`, where `random()` is
    at least zero and below one. -/
def Drawn (low high : Int) (drawn : ℚ) : Prop :=
  ∃ u : ℚ, (0 ≤ u ∧ u < 1) ∧ drawn = low + (high - low) * u

/-- What is expected of the environment, the draws included. -/
def Answered : (op : Op) → Ans op → Prop
  | .uniform low high, drawn => Drawn low high drawn
  | op, answer => Expected op answer

theorem Answered.expected {op : Op} {answer : Ans op} (h : Answered op answer) :
    Expected op answer := by
  cases op with
  | uniform => trivial
  | _ => exact h

/-- What an invocation may do with a record. -/
inductive Handled (py : Python) (config : Config) (bound : Int → ℚ) (record : Record) :
    Part Op Ans → Prop where
  | unparseable {e} (hbody : record.body ≠ "") (hloads : py.loads record.body = .error e) :
      Handled py config bound record ⟨[], [failure (.str record.messageId)]⟩
  | processed {body} (hparsed : parsed py record.json = .ok body) :
      Handled py config bound record
        ⟨[⟨.processRecord (.str record.messageId) body record.systemAttributes, .ok ()⟩], []⟩
  | backedOff {body e n high drawn reply} {delay : Int} (hparsed : parsed py record.json = .ok body)
      (hcount : py.parseInt record.receiveCount = some n) (hlow : 0 ≤ delay)
      (hhigh : (delay : ℚ) ≤ bound n) :
      Handled py config bound record
        ⟨[⟨.processRecord (.str record.messageId) body record.systemAttributes, .error e⟩,
          ⟨.uniform 0 high, drawn⟩,
          ⟨.changeMessageVisibility config.queueUrl (.str record.receiptHandle) delay, reply⟩],
          [failure (.str record.messageId)]⟩

theorem Handled.mono {bound' : Int → ℚ} {part : Part Op Ans} (h : Handled py config bound record part)
    (hle : ∀ n, bound n ≤ bound' n) : Handled py config bound' record part := by
  cases h with
  | unparseable hbody hloads => exact .unparseable hbody hloads
  | processed hparsed => exact .processed hparsed
  | backedOff hparsed hcount hlow hhigh =>
      exact .backedOff hparsed hcount hlow (hhigh.trans (hle _))

def ChangesVisibility : Op → Prop
  | .changeMessageVisibility .. => True
  | _ => False

/-- Every invocation of the batch that is not given up handles the records one after
    the other, returns what they report, and does so whatever SQS answers to the
    changes of visibility. -/
def BatchContract (py : Python) (config : Config) (bound : Int → ℚ) (records : List Record) : Prop :=
  ∀ calls outcome, Calls (handle py config (event (records.map Record.json))) calls outcome →
    outcome ≠ .lost → (∀ call ∈ calls, Answered call.1 call.2) →
    (∃ parts : List (Part Op Ans), List.Forall₂ (Handled py config bound) records parts ∧
      calls = parts.flatMap Part.calls ∧
      outcome = .returned (response (parts.flatMap Part.failures))) ∧
    ∀ calls', List.Forall₂ (Varied ChangesVisibility) calls calls' →
      (∀ call ∈ calls', Answered call.1 call.2) →
      Calls (handle py config (event (records.map Record.json))) calls' outcome

/-! ## The delay -/

/-- The guard on the exponent makes no difference to the delay. -/
theorem backoffCeiling_unguarded {base cap n : Int} :
    backoffCeiling n base cap = max 0 (min (min cap (base * 2 ^ (max 1 n - 1).toNat)) 43200) := by
  unfold backoffCeiling sqsMaxVisibilitySeconds
  dsimp only
  by_cases hbase : base ≤ 0
  · -- Nothing is waited for when the base is not positive.
    have hneg : ∀ k : Nat, base * 2 ^ k ≤ 0 := fun k =>
      Int.mul_nonpos_of_nonpos_of_nonneg hbase (by positivity)
    have hguarded := hneg (min (max 1 n - 1) 30).toNat
    have hexact := hneg (max 1 n - 1).toNat
    omega
  · cases Int.le_total (max 1 n - 1) 30 with
    | inl hsmall => rw [min_eq_left hsmall]
    | inr hlarge =>
        have hmin : (min (max 1 n - 1) 30).toNat = 30 := by omega
        have hguarded : (43200 : Int) ≤ base * 2 ^ 30 := by omega
        have hexponent : (2 : Int) ^ 30 ≤ 2 ^ (max 1 n - 1).toNat :=
          pow_le_pow_right₀ (by decide) (by omega)
        have hexact : (43200 : Int) ≤ base * 2 ^ (max 1 n - 1).toNat := by
          calc (43200 : Int) ≤ 1 * 2 ^ 30 := by decide
            _ ≤ base * 2 ^ (max 1 n - 1).toNat :=
              mul_le_mul (by omega) hexponent (by decide) (by omega)
        rw [hmin]
        omega

theorem backoffCeiling_cast {base cap n : Int} :
    (backoffCeiling n base cap : ℚ) = delayBound base cap (max 1 n) := by
  have hpow : (2 : ℚ) ^ (max 1 n - 1) = ((2 ^ (max 1 n - 1).toNat : Int) : ℚ) := by
    have hnonneg : ((max 1 n - 1).toNat : Int) = max 1 n - 1 := Int.toNat_of_nonneg (by omega)
    rw [← hnonneg, zpow_natCast]
    push_cast
    rfl
  rw [backoffCeiling_unguarded, delayBound, hpow]
  push_cast
  rfl

/-- The longest delay that is drawn. The ceiling itself is not. -/
def longestDelay (receiveCount base cap : Int) : Int := max 0 (backoffCeiling receiveCount base cap - 1)

theorem longestDelay_le {base cap n : Int} : longestDelay n base cap ≤ backoffCeiling n base cap := by
  have hnonneg : 0 ≤ backoffCeiling n base cap := le_max_left 0 _
  unfold longestDelay
  omega

/-- A draw that is cut down lies below the upper end, unless both ends are zero. -/
theorem Drawn.truncate {high : Int} {drawn : ℚ} (h : Drawn 0 high drawn) (hhigh : 0 ≤ high) :
    0 ≤ Python.truncate drawn ∧ Python.truncate drawn ≤ max 0 (high - 1) := by
  obtain ⟨u, ⟨hlow, hbelow⟩, rfl⟩ := h
  have hcast : (0 : ℚ) ≤ high := by exact_mod_cast hhigh
  have hpoint : (((0 : Int) : ℚ) + ((high : ℚ) - ((0 : Int) : ℚ)) * u) = high * u := by
    push_cast
    ring
  have hnonneg : 0 ≤ (high : ℚ) * u := mul_nonneg hcast hlow
  have htruncate : Python.truncate ((high : ℚ) * u) = ⌊(high : ℚ) * u⌋ := if_pos hnonneg
  rw [hpoint, htruncate]
  refine ⟨Int.floor_nonneg.mpr hnonneg, ?_⟩
  rcases hhigh.eq_or_lt with rfl | hpos
  · simp
  · have hposcast : (0 : ℚ) < high := by exact_mod_cast hpos
    have hlt : (high : ℚ) * u < high := by nlinarith
    have hfloor : ⌊(high : ℚ) * u⌋ < high := Int.floor_lt.mpr hlt
    omega

/-- The greatest whole number below the upper end can be drawn. -/
theorem drawn_longest {high : Int} (hhigh : 0 ≤ high) : Drawn 0 high ((max 0 (high - 1) : Int) : ℚ) := by
  rcases hhigh.eq_or_lt with rfl | hpos
  · exact ⟨0, ⟨le_rfl, zero_lt_one⟩, by simp⟩
  · have hcast : (0 : ℚ) < high := by exact_mod_cast hpos
    have hone : (1 : ℚ) ≤ high := by exact_mod_cast hpos
    have hmax : max 0 (high - 1) = high - 1 := by omega
    refine ⟨(high - 1) / high, ⟨div_nonneg (by linarith) hcast.le, (div_lt_one hcast).mpr (by linarith)⟩, ?_⟩
    rw [hmax]
    push_cast
    field_simp
    ring

/-! ## One record -/

/-- A failed record draws its delay, asks SQS once for it, and is reported. -/
theorem backOff_calls {count : Int} {e : Exc} (he : e.isInstance "Exception" = true)
    {calls : List (Event Op Ans)} {reported : Option Json}
    (h : Calls ((backOff py config record.json (.str record.messageId) count e).getD (.raise e))
      calls (.returned reported)) :
    ∃ drawn reply,
      calls = [⟨.uniform 0 (backoffCeiling count (config.base py) (config.cap py)), drawn⟩,
        ⟨.changeMessageVisibility config.queueUrl (.str record.receiptHandle)
          (Python.truncate drawn), reply⟩] ∧
      reported = some (failure (.str record.messageId)) := by
  rw [backOff_json he, Option.getD_some] at h
  obtain ⟨delay, front, back, rfl, hfront, hback⟩ := calls_bind_returned h
  obtain ⟨rfl, _⟩ := calls_ret.mp hback
  have hreported := eq_of_calls_ret hback
  rcases calls_call.mp hfront with ⟨_, hlost⟩ | ⟨drawn, rest, rfl, hrest⟩
  · cases hlost
  rcases calls_call.mp hrest with ⟨_, hlost⟩ | ⟨reply, rest', rfl, hrest'⟩
  · cases hlost
  refine ⟨drawn, reply, ?_, hreported.symm⟩
  have hnil : rest' = [] := by
    cases reply with
    | ok done => exact (calls_ret.mp hrest').1
    | error e' =>
        change Calls ((swallow (Python.truncate drawn) e').getD (.raise e')) rest' _ at hrest'
        unfold swallow at hrest'
        split at hrest'
        · exact (calls_ret.mp hrest').1
        · exact absurd hrest' not_calls_raise
  rw [hnil]
  rfl

theorem handleRecord_handled {count : Int} (hcount : py.parseInt record.receiveCount = some count)
    {calls : List (Event Op Ans)} {reported : Option Json}
    (h : Calls (handleRecord py config record.json) calls (.returned reported))
    (hanswered : ∀ call ∈ calls, Answered call.1 call.2) :
    Handled py config (fun n => longestDelay n (config.base py) (config.cap py)) record
      ⟨calls, reported.toList⟩ := by
  rw [handleRecord_json hcount] at h
  cases hparsed : parsed py record.json with
  | error e =>
      rw [hparsed] at h
      have hbody : record.body ≠ "" ∧ py.loads record.body = .error e := by
        rw [parsed_json] at hparsed
        split at hparsed
        · cases hparsed
        · exact ⟨‹_›, hparsed⟩
      dsimp only at h
      split at h
      · obtain ⟨rfl, _⟩ := calls_ret.mp h
        rw [← eq_of_calls_ret h]
        exact .unparseable hbody.1 hbody.2
      · exact absurd h not_calls_raise
  | ok body =>
      rw [hparsed] at h
      rcases calls_call.mp h with ⟨_, hlost⟩ | ⟨answer, rest, rfl, hrest⟩
      · cases hlost
      cases answer with
      | ok done =>
          obtain ⟨rfl, _⟩ := calls_ret.mp hrest
          rw [← eq_of_calls_ret hrest]
          exact .processed hparsed
      | error e =>
          have he : e.isInstance "Exception" = true := hanswered _ List.mem_cons_self e rfl
          obtain ⟨drawn, reply, rfl, rfl⟩ := backOff_calls he hrest
          have hdrawn : Drawn 0 (backoffCeiling count (config.base py) (config.cap py)) drawn :=
            hanswered _ (List.mem_cons_of_mem _ List.mem_cons_self)
          obtain ⟨hlow, hhigh⟩ := hdrawn.truncate (le_max_left 0 _)
          exact .backedOff hparsed hcount hlow (by exact_mod_cast hhigh)

/-- Every draw can be what a failed record is backed off by. -/
theorem handleRecord_backedOff (config : Config) (drawn : ℚ) {count : Int} {body : Json} {e : Exc}
    (hcount : py.parseInt record.receiveCount = some count)
    (hparsed : parsed py record.json = .ok body) (he : e.isInstance "Exception" = true) :
    Calls (handleRecord py config record.json)
      [⟨.processRecord (.str record.messageId) body record.systemAttributes, .error e⟩,
        ⟨.uniform 0 (backoffCeiling count (config.base py) (config.cap py)), drawn⟩,
        ⟨.changeMessageVisibility config.queueUrl (.str record.receiptHandle)
          (Python.truncate drawn), .ok ()⟩]
      (.returned (some (failure (.str record.messageId)))) := by
  rw [handleRecord_json hcount, hparsed]
  apply calls_call_cons.mpr
  rw [failed_json he]
  apply calls_call_cons.mpr
  apply calls_call_cons.mpr
  exact calls_ret.mpr ⟨rfl, .inl rfl⟩

/-- Whether SQS accepts the change of visibility is not looked at. -/
theorem swallowed {answer : Except Exc Unit} {delay : Int} (h : Python.Ordinary answer) :
    (ofExcept answer >>= fun _ => ret delay).tryCatch (swallow delay) = (ret delay : Handler Int) := by
  cases answer with
  | ok done => rfl
  | error e =>
      have hcaught : swallow delay e = some (ret delay) := if_pos (h e rfl)
      simp [hcaught]

theorem backoffRecord_indifferent {receiptHandle : Json} {count : Int} :
    (backoffRecord py config receiptHandle count).Indifferent Answered ChangesVisibility := by
  refine ⟨nofun, fun drawn _ => ⟨fun _ answer answer' h h' => ?_, fun answer h => ?_⟩⟩
  · exact (swallowed h).trans (swallowed h').symm
  · change ((ofExcept answer >>= fun _ => ret (Python.truncate drawn)).tryCatch
      (swallow (Python.truncate drawn))).Indifferent _ _
    rw [swallowed h]
    trivial

theorem handleRecord_indifferent {count : Int}
    (hcount : py.parseInt record.receiveCount = some count) :
    (handleRecord py config record.json).Indifferent Answered ChangesVisibility := by
  rw [handleRecord_json hcount]
  cases parsed py record.json with
  | error e =>
      dsimp only
      split <;> trivial
  | ok body =>
      refine ⟨nofun, fun answer hanswer => ?_⟩
      cases answer with
      | ok done => trivial
      | error e =>
          dsimp only
          rw [failed_json (hanswer e rfl)]
          exact backoffRecord_indifferent.bind fun delay => trivial

/-! ## The batch -/

theorem handle_indifferent
    (hcounts : ∀ record ∈ records, ∃ count, py.parseInt record.receiveCount = some count) :
    (handle py config (event (records.map Record.json))).Indifferent Answered ChangesVisibility := by
  rw [handle_loops]
  have hloop : (collect (handleRecord py config) (records.map Record.json) []).Indifferent
      Answered ChangesVisibility := by
    apply indifferent_collect
    intro json hjson
    obtain ⟨record, hrecord, rfl⟩ := List.mem_map.mp hjson
    obtain ⟨count, hcount⟩ := hcounts record hrecord
    exact handleRecord_indifferent hcount
  exact hloop.bind fun failures => trivial

/-- An invocation on a single record is a run of the loop body. -/
theorem single_calls {calls : List (Event Op Ans)} {failures : List Json} :
    Calls (handle py config (event [record.json])) calls (.returned (response failures)) ↔
      ∃ reported, Calls (handleRecord py config record.json) calls (.returned reported) ∧
        failures = reported.toList := by
  rw [calls_loop handle_loops]
  constructor
  · intro hloop
    obtain ⟨reported, front, back, rfl, hbody, hret⟩ := calls_bind_returned hloop
    obtain ⟨rfl, _⟩ := calls_ret.mp hret
    rw [List.append_nil]
    refine ⟨reported, hbody, ?_⟩
    rw [← eq_of_calls_ret hret, List.nil_append]
  · rintro ⟨reported, hbody, rfl⟩
    have hret : Calls (collect (handleRecord py config) [] ([] ++ reported.toList)) []
        (.returned reported.toList) := calls_ret.mpr ⟨rfl, .inl rfl⟩
    have hloop : Calls (handleRecord py config record.json >>= fun y =>
        collect (handleRecord py config) [] ([] ++ y.toList)) (calls ++ [])
        (.returned reported.toList) := hbody.bind hret
    rwa [List.append_nil] at hloop

theorem handled_parts {parts : List (Part Op Ans)}
    (hcounts : ∀ record ∈ records, ∃ count, py.parseInt record.receiveCount = some count)
    (hparts : List.Forall₂ (fun record part => Calls (handle py config (event [record.json]))
      part.calls (.returned (response part.failures))) records parts)
    (hanswered : ∀ call ∈ parts.flatMap Part.calls, Answered call.1 call.2) :
    List.Forall₂ (Handled py config
      fun n => delayBound (config.base py) (config.cap py) (max 1 n)) records parts := by
  induction hparts with
  | nil => exact .nil
  | @cons record part records parts hfirst _ ih =>
      rw [List.flatMap_cons] at hanswered
      obtain ⟨hpart, hrest⟩ := List.forall_mem_append.mp hanswered
      obtain ⟨⟨count, hcount⟩, hcounts⟩ := List.forall_mem_cons.mp hcounts
      obtain ⟨reported, hcalls, hfailures⟩ := single_calls.mp hfirst
      have hbound : ∀ n : Int, (longestDelay n (config.base py) (config.cap py) : ℚ) ≤
          delayBound (config.base py) (config.cap py) (max 1 n) := by
        intro n
        rw [← backoffCeiling_cast]
        exact_mod_cast longestDelay_le
      have hhandled := (handleRecord_handled hcount hcalls hpart).mono hbound
      rw [← hfailures] at hhandled
      exact .cons hhandled (ih hcounts hrest)

/-- `json.loads` raises nothing but `JSONDecodeError` on the bodies, and the receive
    counts are integers: then every batch is handled as it should be, where a receive
    count below one counts as the first. -/
theorem handle_contract
    (hcounts : ∀ record ∈ records, ∃ count, py.parseInt record.receiveCount = some count)
    (hloads : ∀ record ∈ records, ∀ e, py.loads record.body = .error e →
      e.isInstance "json.JSONDecodeError" = true) :
    BatchContract py config (fun n => delayBound (config.base py) (config.cap py) (max 1 n))
      records := by
  intro calls outcome hcalls hended hanswered
  have hisolated : Isolated Expected (handle py config) (records.map Record.json) := by
    apply isolated_of_contained handle_loops
    intro json hjson
    obtain ⟨record, hrecord, rfl⟩ := List.mem_map.mp hjson
    obtain ⟨count, hcount⟩ := hcounts record hrecord
    apply handleRecord_contained hcount
    rintro ⟨_, e, herror, hclass⟩
    simp [unparseable, hloads record hrecord e herror] at hclass
  obtain ⟨parts, hparts, rfl, rfl⟩ := hisolated calls outcome hcalls hended
    fun call hmem => (hanswered call hmem).expected
  constructor
  · exact ⟨parts, handled_parts hcounts (List.forall₂_map_left_iff.mp hparts) hanswered, rfl, rfl⟩
  · intro calls' hvaried hanswered'
    exact (handle_indifferent hcounts).calls hcalls hvaried hanswered hanswered'

/-- A healthy record and one that is no JSON. -/
theorem handle_contract_junk :
    BatchContract digitLimited sampleConfig (fun n => delayBound 5 900 (max 1 n))
      (["\x7b\x7d", "not-json"].map sampleBody) := by
  apply handle_contract sampleBody_counts
  intro record hrecord e herror
  obtain ⟨body, hbody, rfl⟩ := List.mem_map.mp hrecord
  simp only [List.mem_cons, List.not_mem_nil, or_false] at hbody
  rcases hbody with rfl | rfl
  · cases digitLimited_empty.symm.trans herror
  · have hjunk : digitLimited.loads "not-json" = .error ⟨"JSONDecodeError",
        ["json.JSONDecodeError", "ValueError", "Exception"], "Expecting value"⟩ := by decide +kernel
    cases hjunk.symm.trans herror
    rfl

/-! ## A receive count of zero -/

/-- The sample interpreter, with a zero among the numbers it reads. -/
def readsZero : Python :=
  { Python.sample with parseInt := fun text => if text = "0" then some 0 else none }

def zeroCount : Record where
  messageId := "evt-1"
  receiptHandle := "handle-1"
  body := "\x7b\x7d"
  receiveCount := "0"
  attributes := []

/-- `process_record` fails, and a delay of four seconds is drawn. -/
def zeroCount_calls : List (Event Op Ans) :=
  [⟨.processRecord (.str "evt-1") (.obj []) zeroCount.systemAttributes,
      .error (Exc.builtin "RetryableError" "nope")⟩,
    ⟨.uniform 0 5, 4⟩,
    ⟨.changeMessageVisibility sampleConfig.queueUrl (.str "handle-1") (Python.truncate 4),
      .ok ()⟩]

theorem readsZero_loads : readsZero.loads "\x7b\x7d" = .ok (.obj []) := by decide +kernel

theorem zeroCount_handled :
    Calls (handle readsZero sampleConfig (event [zeroCount.json])) zeroCount_calls
      (.returned (response [failure (.str "evt-1")])) := by
  have hcount : readsZero.parseInt zeroCount.receiveCount = some 0 := rfl
  have hparsed : parsed readsZero zeroCount.json = .ok (.obj []) := by
    rw [parsed_json, if_neg (by decide)]
    exact readsZero_loads
  have hrecord : Calls (handleRecord readsZero sampleConfig zeroCount.json) zeroCount_calls
      (.returned (some (failure (.str "evt-1")))) :=
    handleRecord_backedOff _ _ hcount hparsed rfl
  exact single_calls.mpr ⟨_, hrecord, rfl⟩

/-- With the receive count taken as it is, the bound on the delay is not kept: at a
    count of zero the delay is four seconds and the bound two and a half. -/
theorem handle_contract_counterexample :
    ¬ ∀ (py : Python) (config : Config) (records : List Record),
      (∀ record ∈ records, ∃ count, py.parseInt record.receiveCount = some count) →
      (∀ record ∈ records, ∀ e, py.loads record.body = .error e →
        e.isInstance "json.JSONDecodeError" = true) →
      BatchContract py config (delayBound (config.base py) (config.cap py)) records := by
  intro hclaim
  have hcontract : BatchContract readsZero sampleConfig (delayBound 5 900) [zeroCount] := by
    apply hclaim readsZero sampleConfig [zeroCount]
    · exact fun record hrecord => ⟨0, by rw [List.mem_singleton.mp hrecord]; rfl⟩
    · intro record hrecord e herror
      rw [List.mem_singleton.mp hrecord] at herror
      cases readsZero_loads.symm.trans herror
  have hanswered : ∀ call ∈ zeroCount_calls, Answered call.1 call.2 := by
    simp only [zeroCount_calls, List.forall_mem_cons]
    refine ⟨Python.ordinary_error rfl, ?_, Python.ordinary_ok, by simp⟩
    exact ⟨4 / 5, by norm_num, by norm_num⟩
  obtain ⟨⟨parts, hparts, hcalls, _⟩, _⟩ :=
    hcontract _ _ zeroCount_handled (by simp) hanswered
  obtain ⟨part, rest, hhandled, hrest, rfl⟩ := List.forall₂_cons_left_iff.mp hparts
  cases hrest
  simp only [List.flatMap_cons, List.flatMap_nil, List.append_nil] at hcalls
  cases hhandled with
  | unparseable => simp [zeroCount_calls] at hcalls
  | processed => simp [zeroCount_calls] at hcalls
  | @backedOff body e n high drawn reply delay _ hcount _ hhigh =>
      obtain rfl : 0 = n := Option.some.inj hcount
      have hdelay : Python.truncate 4 = delay := by
        simp only [zeroCount_calls, List.cons.injEq, Sigma.mk.injEq,
          Op.changeMessageVisibility.injEq] at hcalls
        exact hcalls.2.2.1.1.2.2
      have hfour : Python.truncate 4 = 4 := by norm_num [Python.truncate]
      rw [← hdelay, hfour] at hhigh
      norm_num [delayBound] at hhigh

end RetryBackoff
