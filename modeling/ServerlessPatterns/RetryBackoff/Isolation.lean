-- SUMMARY: Which bodies make the backoff processor raise, and that one record cannot break a batch unless it has such a body.
import ServerlessPatterns.FanOut.Isolation
import ServerlessPatterns.RetryBackoff.Handler

/-!
# Isolation of records with backoff

Only a non-empty body is parsed. Both consumers catch the same classes of
exceptions around `json.loads`, so the same bodies break their batches.
-/

namespace RetryBackoff

open Program BatchFunction

/-- `process_record` and SQS raise nothing but an `Exception`. -/
def Expected : (op : Op) → Ans op → Prop
  | .processRecord .., answer => Python.Ordinary answer
  | .uniform .., _ => True
  | .changeMessageVisibility .., answer => Python.Ordinary answer

/-- `json.loads` is run on the body and raises what the handler does not catch. -/
def Escapes (py : Python) (body : String) : Prop :=
  body ≠ "" ∧ ∃ e, py.loads body = .error e ∧ unparseable e = false

variable {py : Python} {config : Config} {record : Record}

theorem handle_loops : Loops (handle py config) (handleRecord py config) := fun _ => rfl

theorem parsed_json :
    parsed py record.json = if record.body = "" then .ok (.obj []) else py.loads record.body := by
  have hget : Python.get record.json "body" = .ok (.str record.body) := rfl
  have hitem : Python.item record.json "body" = .ok (.str record.body) := rfl
  unfold parsed
  rw [hget, hitem]
  by_cases hbody : record.body = ""
  · simp [hbody, Bind.bind, Except.bind, Json.truthy, pure, Except.pure]
  · simp [hbody, Bind.bind, Except.bind, Json.truthy, Python.jsonLoads]

/-- The loop body on a record of the queue. -/
theorem handleRecord_json {count : Int} (hcount : py.parseInt record.receiveCount = some count) :
    handleRecord py config record.json =
      match parsed py record.json with
      | .error e => if unparseable e then ret (some (failure (.str record.messageId))) else .raise e
      | .ok body =>
        .call (.processRecord (.str record.messageId) body record.systemAttributes) fun answer =>
          (ofExcept answer >>= fun _ => ret none).tryCatch
            (backOff py config record.json (.str record.messageId) count) := by
  have hint : (Python.getD record.systemAttributes "ApproximateReceiveCount" (.str "1") >>= py.int) =
      .ok count := by
    change py.int (.str record.receiveCount) = _
    simp [Python.int, hcount]
  have hattributes : Python.getD record.json "attributes" (.obj []) =
      .ok record.systemAttributes := rfl
  have hid : Python.item record.json "messageId" = .ok (.str record.messageId) := rfl
  unfold handleRecord
  rw [hid, hattributes]
  simp only [ofExcept_ok, ret_bind, hint]
  cases parsed py record.json <;> rfl

theorem backOff_json {e : Exc} (he : e.isInstance "Exception" = true) {messageId : Json} {count : Int} :
    backOff py config record.json messageId count e =
      some (backoffRecord py config (.str record.receiptHandle) count >>= fun _ =>
        ret (some (failure messageId))) := by
  have hreceipt : Python.item record.json "receiptHandle" = .ok (.str record.receiptHandle) := rfl
  simp only [backOff, he, if_true, hreceipt, ofExcept_ok, ret_bind]
  rfl

/-- A record whose business logic failed is backed off and reported. -/
theorem failed_json {e : Exc} (he : e.isInstance "Exception" = true) {messageId : Json} {count : Int} :
    (ofExcept (.error e : Except Exc Unit) >>= fun _ => ret none).tryCatch
        (backOff py config record.json messageId count) =
      (backoffRecord py config (.str record.receiptHandle) count >>= fun _ =>
        ret (some (failure messageId))) := by
  rw [ofExcept_error, raise_bind, tryCatch_raise, backOff_json he, Option.getD_some]

theorem exists_expected (op : Op) : ∃ answer, Expected op answer := by
  cases op with
  | processRecord => exact ⟨.ok (), Python.ordinary_ok⟩
  | uniform => exact ⟨0, trivial⟩
  | changeMessageVisibility => exact ⟨.ok (), Python.ordinary_ok⟩

/-- Setting the backoff never masks the failure it is for. -/
theorem backoffRecord_meets {receiptHandle : Json} {count : Int} :
    (backoffRecord py config receiptHandle count).Meets (fun _ => True) Expected (fun _ => False)
      fun _ => True := by
  apply meets_call trivial
  intro drawn _
  apply meets_call trivial
  intro answer hanswer
  cases answer with
  | ok done => exact meets_ret trivial
  | error e =>
      have hcaught : swallow (Python.truncate drawn) e = some (ret (Python.truncate drawn)) :=
        if_pos (hanswer e rfl)
      change ((swallow (Python.truncate drawn) e).getD (.raise e)).Meets _ _ _ _
      rw [hcaught]
      exact meets_ret trivial

theorem handleRecord_escapes {count : Int} (hcount : py.parseInt record.receiveCount = some count)
    (h : Escapes py record.body) : ∃ e, handleRecord py config record.json = .raise e := by
  obtain ⟨hbody, e, hloads, hclass⟩ := h
  refine ⟨e, ?_⟩
  rw [handleRecord_json hcount, parsed_json, if_neg hbody, hloads]
  simp [hclass]

theorem handleRecord_contained {count : Int}
    (hcount : py.parseInt record.receiveCount = some count) (h : ¬ Escapes py record.body) :
    Contained Expected (handleRecord py config record.json) := by
  have hcaught : ∀ e, parsed py record.json = .error e → unparseable e = true := by
    intro e herror
    rw [parsed_json] at herror
    by_cases hbody : record.body = ""
    · rw [if_pos hbody] at herror
      cases herror
    · rw [if_neg hbody] at herror
      by_contra hclass
      exact h ⟨hbody, e, herror, by simpa using hclass⟩
  rw [handleRecord_json hcount]
  cases hparsed : parsed py record.json with
  | error e =>
      simp only [hcaught e hparsed, if_true]
      exact meets_ret trivial
  | ok body =>
      apply meets_call trivial
      intro answer hanswer
      cases answer with
      | ok done => exact meets_ret trivial
      | error e =>
          rw [failed_json (hanswer e rfl)]
          apply backoffRecord_meets.bind
          intro delay _
          exact meets_ret trivial

/-- A batch of the fan-out worker is isolated if and only if `json.loads` raises on
    none of its bodies what the worker does not catch, and a batch of the backoff
    processor if and only if it does so on none of its non-empty bodies. -/
theorem batches_isolated_iff {records : List Record}
    (hcounts : ∀ record ∈ records, ∃ count, py.parseInt record.receiveCount = some count) :
    (Isolated FanOut.Expected (FanOut.handler py) (records.map Record.json) ↔
      ∀ record ∈ records, ¬ FanOut.Escapes py record.body) ∧
    (Isolated Expected (handle py config) (records.map Record.json) ↔
      ∀ record ∈ records, ¬ Escapes py record.body) := by
  constructor
  · exact FanOut.isolated_iff_escapes
  · apply isolated_iff handle_loops exists_expected
    · intro record hrecord hescapes
      obtain ⟨count, hcount⟩ := hcounts record hrecord
      exact handleRecord_escapes hcount hescapes
    · intro record hrecord hnone
      obtain ⟨count, hcount⟩ := hcounts record hrecord
      exact handleRecord_contained hcount hnone

/-! ## A body with too long a number -/

/-- `int` of more than 4300 digits. -/
def tooManyDigits : Exc :=
  .valueError "Exceeds the limit (4300 digits) for integer string conversion: value has 4301 digits"

/-- The sample interpreter, with the limit on the digits of a number. -/
def digitLimited : Python where
  parseInt text := if text = "1" then some 1 else none
  parseFloat := Python.sample.parseFloat
  toFloat := Python.sample.toFloat
  divide := Python.sample.divide
  divide_mono := Python.sample.divide_mono
  divide_ok := Python.sample.divide_ok
  divide_zero := Python.sample.divide_zero
  toDecimal := Python.sample.toDecimal
  str := Python.sample.str
  repr := Python.sample.repr
  lower := Python.sample.lower
  dumps := Python.sample.dumps
  loads text :=
    if 4300 < text.length ∧ text.toList.all Char.isDigit = true then .error tooManyDigits
    else Python.sample.loads text
  loads_error h := by
    split at h
    · injection h with h
      exact h ▸ rfl
    · exact Python.sample.loads_error h

def sampleBody (body : String) : Record where
  messageId := if body = "\x7b\x7d" then "evt-1" else "evt-2"
  receiptHandle := if body = "\x7b\x7d" then "handle-1" else "handle-2"
  body := body
  receiveCount := "1"
  attributes := []

/-- A number with this many digits. -/
def ones (digits : Nat) : String := String.ofList (List.replicate digits '1')

theorem digitLimited_ones {digits : Nat} (h : 4300 < digits) :
    digitLimited.loads (ones digits) = .error tooManyDigits := by
  have hlength : (ones digits).length = digits := by simp [ones]
  have hall : (ones digits).toList.all Char.isDigit = true := by
    simp [ones, List.all_replicate, Char.isDigit]
  have hlong : 4300 < (ones digits).length := by
    rw [hlength]
    exact h
  have hloads : digitLimited.loads (ones digits) =
      if 4300 < (ones digits).length ∧ (ones digits).toList.all Char.isDigit = true then
        .error tooManyDigits
      else Python.sample.loads (ones digits) := rfl
  rw [hloads, if_pos ⟨hlong, hall⟩]

theorem escapes_ones {digits : Nat} (h : 4300 < digits) :
    FanOut.Escapes digitLimited (ones digits) ∧ Escapes digitLimited (ones digits) := by
  have hnonempty : ones digits ≠ "" := by
    intro hempty
    have hlength : (ones digits).length = digits := by simp [ones]
    rw [hempty] at hlength
    simp at hlength
    omega
  exact ⟨⟨_, digitLimited_ones h, rfl⟩, hnonempty, _, digitLimited_ones h, rfl⟩

theorem sampleBody_counts {bodies : List String} : ∀ record ∈ bodies.map sampleBody,
    ∃ count, digitLimited.parseInt record.receiveCount = some count := by
  intro record hrecord
  obtain ⟨body, _, rfl⟩ := List.mem_map.mp hrecord
  exact ⟨1, rfl⟩

def sampleConfig : Config where
  queueUrl := "https://sqs.us-east-1.amazonaws.com/123456789012/work"
  backoffBaseSeconds := some "5"
  backoffMaxSeconds := some "900"

theorem digitLimited_empty : digitLimited.loads "\x7b\x7d" = .ok (.obj []) := by decide +kernel

theorem digitLimited_notJson : ∃ e, digitLimited.loads "not-json" = .error e ∧
    unparseable e = true := by
  have hshort : ¬ (4300 < "not-json".length ∧ "not-json".toList.all Char.isDigit = true) := by
    decide +kernel
  have hloads : digitLimited.loads "not-json" =
      if 4300 < "not-json".length ∧ "not-json".toList.all Char.isDigit = true then
        .error tooManyDigits
      else Python.sample.loads "not-json" := rfl
  rw [hloads, if_neg hshort]
  exact ⟨_, rfl, rfl⟩

theorem sampleBody_healthy :
    ∀ record ∈ ["\x7b\x7d", "not-json"].map sampleBody, ∀ e,
      digitLimited.loads record.body = .error e → unparseable e = true := by
  intro record hrecord e herror
  rcases List.mem_cons.mp hrecord with rfl | hrecord
  · cases digitLimited_empty.symm.trans herror
  · obtain rfl := List.mem_singleton.mp hrecord
    obtain ⟨e', hloads, hclass⟩ := digitLimited_notJson
    injection hloads.symm.trans herror with heq
    exact heq ▸ hclass

/-- A record that parses and one that does not are isolated from each other. -/
theorem batches_isolated_iff_healthy :
    Isolated FanOut.Expected (FanOut.handler digitLimited)
      (["\x7b\x7d", "not-json"].map sampleBody |>.map Record.json) ∧
    Isolated Expected (handle digitLimited sampleConfig)
      (["\x7b\x7d", "not-json"].map sampleBody |>.map Record.json) := by
  have hiff := @batches_isolated_iff digitLimited sampleConfig _
    (@sampleBody_counts ["\x7b\x7d", "not-json"])
  constructor
  · apply hiff.1.mpr
    rintro record hrecord ⟨e, herror, hclass⟩
    have hcaught : FanOut.unparseable e = true := sampleBody_healthy record hrecord e herror
    rw [hcaught] at hclass
    cases hclass
  · apply hiff.2.mpr
    rintro record hrecord ⟨_, e, herror, hclass⟩
    rw [sampleBody_healthy record hrecord e herror] at hclass
    cases hclass

/-- A number with more digits than `int` takes, next to a healthy record. -/
theorem batches_isolated_counterexample :
    ¬ Isolated FanOut.Expected (FanOut.handler digitLimited)
      ([sampleBody "\x7b\x7d", sampleBody (ones 4301)].map Record.json) ∧
    ¬ Isolated Expected (handle digitLimited sampleConfig)
      ([sampleBody "\x7b\x7d", sampleBody (ones 4301)].map Record.json) := by
  have hlong : (4300 : Nat) < 4301 := by omega
  have hbad : sampleBody (ones 4301) ∈ [sampleBody "\x7b\x7d", sampleBody (ones 4301)] :=
    List.mem_cons_of_mem _ List.mem_cons_self
  have hbadJson := List.mem_map_of_mem (f := Record.json) hbad
  constructor
  · obtain ⟨e, hraises⟩ := @FanOut.handleRecord_escapes digitLimited (sampleBody (ones 4301))
      (escapes_ones hlong).1
    exact not_isolated_of_raises FanOut.handler_loops FanOut.exists_expected hbadJson hraises
  · obtain ⟨e, hraises⟩ := @handleRecord_escapes digitLimited sampleConfig
      (sampleBody (ones 4301)) 1 rfl (escapes_ones hlong).2
    exact not_isolated_of_raises handle_loops exists_expected hbadJson hraises

end RetryBackoff
