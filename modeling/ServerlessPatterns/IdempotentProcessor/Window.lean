-- SUMMARY: For which windows the processor completes at most once under a key.
import ServerlessPatterns.IdempotentProcessor.Handler
import ServerlessPatterns.Library.Idempotency

/-!
# Idempotency window

The Terraform variable for the window reaches neither the configuration of the
idempotency layer nor the environment of the function. The layer keeps results for
its default of one hour.
-/

namespace IdempotentProcessor

open Program Python Idempotency

/-- The Terraform variables that have to do with time, within their validations. -/
structure Variables where
  idempotencyTtlSeconds : ℚ
  lambdaTimeoutS : ℚ
  ttlAdmitted : 60 ≤ idempotencyTtlSeconds ∧ idempotencyTtlSeconds ≤ 2592000
  timeoutAdmitted : 3 ≤ lambdaTimeoutS ∧ lambdaTimeoutS ≤ 900

/-- How the layer runs `process_payload`: with the expiry of the configuration, and
    within the timeout of the function. -/
def limits (vars : Variables) : Limits where
  expiresAfter := config.expiresAfterSeconds
  maxDuration := vars.lambdaTimeoutS

/-- A record with a body is handed to the layer under the key. -/
def Delivered (py : Python) (sha256 : Sha256) (key : String) : Prop :=
  ∃ recordBody payload k, recordBody ≠ "" ∧
    recordHandler py sha256 recordBody = .call (.processPayload payload) k ∧
    payload.field config.eventKeyJmespath = some (.str key)

/-- `process_payload` completes at most once under the key in a period of the
    configured length that starts at a completion. -/
def AtMostOncePerWindow (py : Python) (sha256 : Sha256) (vars : Variables) (key : String) : Prop :=
  AtMostOnce (limits vars) (Delivered py sha256) vars.idempotencyTtlSeconds key

variable {py : Python} {sha256 : Sha256} {vars : Variables} {key : String}

/-- A record handler that comes to its call puts the chosen key into the payload. -/
theorem delivered_of_key {recordBody : String} {fields : List (String × Json)}
    (hnonempty : recordBody ≠ "") (hbody : py.loads recordBody = .ok (.obj fields))
    (hkey : idempotencyKey py sha256 recordBody (.obj fields) = .ok key) :
    Delivered py sha256 key := by
  refine ⟨recordBody, .obj (Fields.put "idempotency_key" (.str key) fields), .ofExcept, hnonempty,
    ?_, ?_⟩
  · unfold recordHandler
    rw [if_pos hnonempty, hbody]
    simp only [ofExcept_ok, ret_bind, hkey, setItem]
  · exact Fields.lookup_put_self

/-- The window is kept if and only if it is no longer than the default expiry of the
    layer. -/
theorem atMostOncePerWindow_iff (hdelivered : Delivered py sha256 key) :
    AtMostOncePerWindow py sha256 vars key ↔ vars.idempotencyTtlSeconds ≤ 3600 := by
  have hduration : 0 ≤ (limits vars).maxDuration := by
    have htimeout := vars.timeoutAdmitted.1
    change 0 ≤ vars.lambdaTimeoutS
    linarith
  have hnonneg : (0 : ℚ) ≤ 3600 := by norm_num
  constructor
  · intro hwindow
    exact le_of_atMostOnce hdelivered hduration hnonneg hwindow
  · intro hle
    exact atMostOnce_of_le hle

/-- A window of two hours. -/
def twoHours : Variables where
  idempotencyTtlSeconds := 7200
  lambdaTimeoutS := 30
  ttlAdmitted := by norm_num
  timeoutAdmitted := by norm_num

/-- The SHA-256 of the body `{}`. -/
def sampleSha256 : Sha256 := fun _ =>
  "44136fa355b3678a1146ad16f7e8649e94fb4fc21fe77e8310c060f61caaff8a"

def sampleKey : String := sampleSha256 (encode "\x7b\x7d")

theorem sample_loads : Python.sample.loads "\x7b\x7d" = .ok (.obj []) := by decide +kernel

theorem delivered_sample : Delivered Python.sample sampleSha256 sampleKey :=
  delivered_of_key (by simp) sample_loads rfl

/-- An hour is kept. -/
def oneHour : Variables where
  idempotencyTtlSeconds := 3600
  lambdaTimeoutS := 30
  ttlAdmitted := by norm_num
  timeoutAdmitted := by norm_num

theorem atMostOncePerWindow_iff_oneHour :
    AtMostOncePerWindow Python.sample sampleSha256 oneHour sampleKey :=
  (atMostOncePerWindow_iff delivered_sample).mpr (le_refl _)

/-- A redelivery after an hour and a half runs the function again. -/
theorem atMostOncePerWindow_counterexample :
    ¬ AtMostOncePerWindow Python.sample sampleSha256 twoHours sampleKey := by
  intro hwindow
  have hduration : 0 ≤ (limits twoHours).maxDuration := by decide +kernel
  have hexpired : (limits twoHours).expiresAfter < 5400 := by decide +kernel
  obtain ⟨l, hreach, htimes⟩ :=
    completes_again delivered_sample hduration (by norm_num : (0 : ℚ) ≤ 5400) hexpired
  have hspaced := hwindow l hreach
  rw [htimes] at hspaced
  have hle : (0 : ℚ) + 7200 ≤ 5400 := (List.pairwise_cons.mp hspaced).1 _ List.mem_cons_self
  norm_num at hle

end IdempotentProcessor
