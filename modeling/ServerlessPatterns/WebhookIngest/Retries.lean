-- SUMMARY: Which business failures of a verified webhook are reported for retry, by the class of the exception.
import ServerlessPatterns.Library.MessageQueue
import ServerlessPatterns.WebhookIngest.Handler

/-!
# Retries

One `try` block covers the verification, the parsing and the business logic. An
exception class that means a bad signature or a bad body in the first two means
the same when the business logic raises it, and drops the record.
-/

namespace WebhookIngest

open Program Python MessageQueue

/-- What is known of a message: its body and its message attributes, each an
    object. -/
structure Messages where
  body : String → String
  attributes : String → List (String × List (String × Json))

def Messages.record (messages : Messages) (m : String) : Json :=
  .obj [("messageId", .str m), ("body", .str (messages.body m)),
    ("messageAttributes", .obj ((messages.attributes m).map fun entry => (entry.1, .obj entry.2)))]

/-- The event of a batch. -/
def batchEvent (messages : Messages) (batch : List String) : Json :=
  .obj [("Records", .arr (batch.map messages.record))]

/-- `process_event` raised the exception on the record. The handler only calls it
    with the payload of a record that was verified and parsed. -/
def Raised (calls : List (Event Op Ans)) (m : String) (e : Exc) : Prop :=
  ∃ source payload, ⟨.processEvent (.str m) source payload, .error e⟩ ∈ calls

/-- What `process_event` raises is an `Exception`. -/
def Expected : (op : Op) → Ans op → Prop
  | .getSecretValue, _ => True
  | .processEvent .., answer => Ordinary answer

/-- The invocation returned a response that lists the message as failed. -/
def Listed (outcome : Outcome Exc Json) (m : String) : Prop :=
  ∃ response, outcome = .returned response ∧ .str m ∈ failedIds response

/-- The entry of a message in `batchItemFailures`. -/
def listing (m : String) : Json := .obj [("itemIdentifier", .str m)]

theorem listing_inj {m m' : String} : listing m = listing m' ↔ m = m' := by
  simp [listing]

variable {py : Python} {hmac : Hmac} {config : Config} {cached : Option Bytes} {key : Bytes}
  {messages : Messages} {m : String}

/-! ## One record -/

/-- A message attribute is absent or an object. -/
theorem get_entry {entries : List (String × List (String × Json))} {name : String} :
    ∃ entry, get (.obj (entries.map fun entry => (entry.1, .obj entry.2))) name = .ok entry ∧
      (entry = .null ∨ ∃ fields, entry = .obj fields) := by
  induction entries with
  | nil => exact ⟨.null, rfl, .inl rfl⟩
  | cons entry rest ih =>
      by_cases hname : name = entry.1
      · exact ⟨.obj entry.2, by simp [hname], .inr ⟨_, rfl⟩⟩
      · have hne : (name == entry.1) = false := by simpa using hname
        simpa [List.lookup_cons, hne] using ih

theorem attr_record {name : String} : ∃ value, attr (messages.record m) name = .ok value := by
  obtain ⟨entry, hget, hshape⟩ := @get_entry (messages.attributes m) name
  have hattrs : getD (messages.record m) "messageAttributes" (.obj []) =
      .ok (.obj ((messages.attributes m).map fun entry => (entry.1, .obj entry.2))) := rfl
  unfold attr
  rw [hattrs]
  simp only [Bind.bind, Except.bind, hget]
  rcases hshape with rfl | ⟨fields, rfl⟩
  · exact ⟨.null, rfl⟩
  · cases (Json.obj fields).truthy with
    | false => exact ⟨.null, rfl⟩
    | true => exact ⟨(fields.lookup "stringValue").getD .null, rfl⟩

/-- The loop body on a record of the queue: after its attributes are read, the
    rest of it is one `try` block. -/
theorem handleRecord_record {source signature : Json}
    (hsource : attr (messages.record m) "source" = .ok source)
    (hsignature : attr (messages.record m) "signature" = .ok signature) :
    handleRecord py hmac config key (messages.record m) =
      Program.tryCatch (handleError (.str m))
        (ofExcept (verified py hmac config key (.str m) (signature.orElse (.str ""))
            (.str (messages.body m))) >>=
          fun payload => .call (.processEvent (.str m) (source.orElse (.str "unknown")) payload)
            fun answer => ofExcept answer >>= fun _ => ret none) := by
  unfold handleRecord
  rw [hsource, hsignature]
  rfl

/-- What the `try` block raises before the business logic is an `Exception`. -/
theorem ordinary_verified {messageId signature body : Json} :
    Ordinary (verified py hmac config key messageId signature body) := by
  have hencoded : Ordinary (encoded body) := by
    unfold encoded
    split
    · exact ordinary_ok
    · exact ordinary_error rfl
  unfold verified
  apply hencoded.bind
  intro bytes
  apply ordinary_verify.bind
  intro ok
  split
  · exact ordinary_error rfl
  · split
    · exact ordinary_jsonLoads
    · exact ordinary_ok

/-- An exception that the `except` clauses know makes the record dropped or
    reported. -/
theorem handleError_ordinary {e : Exc} (h : e.isInstance "Exception" = true) :
    handleError (.str m) e =
      some (ret (if drops e then none else some (listing m))) := by
  unfold handleError
  cases drops e with
  | true => rfl
  | false => rw [h]; rfl

theorem silent_handleError {e : Exc} : ((handleError (.str m) e).getD (.raise e)).Silent := by
  unfold handleError
  split
  · trivial
  · split <;> trivial

/-- The loop body asks for nothing on behalf of another message, reports no other
    message, and lets no `Exception` out. -/
theorem handleRecord_meets :
    (handleRecord py hmac config key (messages.record m)).Meets
      (fun op => ∃ source payload, op = .processEvent (.str m) source payload) Expected
      (fun _ => False) fun y => ∀ failure ∈ y, failure = listing m := by
  obtain ⟨source, hsource⟩ := @attr_record messages m "source"
  obtain ⟨signature, hsignature⟩ := @attr_record messages m "signature"
  have hcaught : ∀ e : Exc, e.isInstance "Exception" = true →
      ((handleError (.str m) e).getD (.raise e)).Meets
        (fun op => ∃ source payload, op = .processEvent (.str m) source payload) Expected
        (fun _ => False) fun y => ∀ failure ∈ y, failure = listing m := by
    intro e he
    rw [handleError_ordinary he]
    apply meets_ret
    cases drops e <;> simp
  rw [handleRecord_record hsource hsignature]
  cases hverified : verified py hmac config key (.str m) (signature.orElse (.str ""))
      (.str (messages.body m)) with
  | error e => exact hcaught e (ordinary_verified e hverified)
  | ok payload =>
      apply meets_call ⟨_, payload, rfl⟩
      intro answer hanswer
      cases answer with
      | ok done => exact meets_ret (by simp)
      | error e => exact hcaught e (hanswer e rfl)

/-- A record on which the business logic raised is reported, unless its exception
    is of a class on which records are dropped. -/
theorem handleRecord_raised {part : List (Event Op Ans)} {y : Option Json} {e : Exc}
    (h : Calls (handleRecord py hmac config key (messages.record m)) part (.returned y))
    (hraised : Raised part m e) (he : e.isInstance "Exception" = true) :
    y = if drops e then none else some (listing m) := by
  obtain ⟨source, hsource⟩ := @attr_record messages m "source"
  obtain ⟨signature, hsignature⟩ := @attr_record messages m "signature"
  obtain ⟨source', payload', hmem⟩ := hraised
  rw [handleRecord_record hsource hsignature] at h
  cases hverified : verified py hmac config key (.str m) (signature.orElse (.str ""))
      (.str (messages.body m)) with
  | error e' =>
      rw [hverified, ofExcept_error, raise_bind, tryCatch_raise,
        handleError_ordinary (ordinary_verified e' hverified)] at h
      rw [(calls_ret.mp h).1] at hmem
      cases hmem
  | ok payload =>
      rw [hverified] at h
      rcases calls_call.mp h with ⟨rfl, _⟩ | ⟨answer, rest, rfl, hrest⟩
      · cases hmem
      · cases answer with
        | ok done =>
            rw [(calls_ret.mp hrest).1] at hmem
            cases List.mem_singleton.mp hmem
        | error e' =>
            replace hrest : Calls ((handleError (.str m) e').getD (.raise e')) rest (.returned y) := hrest
            rw [silent_handleError.calls hrest] at hmem
            cases List.mem_singleton.mp hmem
            rw [handleError_ordinary he] at hrest
            exact (eq_of_calls_ret hrest).symm

/-! ## The batch -/

abbrev records (py : Python) (hmac : Hmac) (config : Config) (key : Bytes) (messages : Messages)
    (batch : List String) (acc : List Json) : Handler (List Json) :=
  collect (handleRecord py hmac config key) (batch.map messages.record) acc

/-- The loop asks for nothing on behalf of a message outside the batch, reports
    no such message, and lets no `Exception` out. -/
theorem records_meets {batch : List String} {acc : List Json} :
    (records py hmac config key messages batch acc).Meets
      (fun op => ∃ m ∈ batch, ∃ source payload, op = .processEvent (.str m) source payload) Expected
      (fun _ => False)
      fun ys => ∀ failure ∈ ys, failure ∈ acc ∨ ∃ m ∈ batch, failure = listing m := by
  apply meets_collect (fun failure hmem => .inl hmem)
  intro record hrecord
  obtain ⟨m, hm, rfl⟩ := List.mem_map.mp hrecord
  refine handleRecord_meets.mono ?_ ?_
  · rintro op ⟨source, payload, rfl⟩
    exact ⟨m, hm, source, payload, rfl⟩
  · intro y hy failure hmem
    exact .inr ⟨m, hm, hy failure hmem⟩

/-- A part of the batch without the message neither calls the business logic on
    it nor lists it. -/
theorem records_without {batch : List String} {acc ys : List Json} {part : List (Event Op Ans)}
    {e : Exc} (hm : m ∉ batch)
    (h : Calls (records py hmac config key messages batch acc) part (.returned ys))
    (hexpected : ∀ event ∈ part, Expected event.1 event.2) :
    ¬ Raised part m e ∧ (listing m ∈ ys → listing m ∈ acc) := by
  obtain ⟨hasks, hreturned, _⟩ := records_meets.calls h hexpected
  constructor
  · rintro ⟨source, payload, hmem⟩
    obtain ⟨m', hm', source', payload', heq⟩ := hasks _ hmem
    injection heq with hid
    injection hid with hid
    exact hm (hid ▸ hm')
  · intro hlisted
    rcases hreturned ys rfl _ hlisted with hacc | ⟨m', hm', heq⟩
    · exact hacc
    · exact absurd (listing_inj.mp heq ▸ hm') hm

theorem raised_expected {part : List (Event Op Ans)} {e : Exc} (hraised : Raised part m e)
    (hexpected : ∀ event ∈ part, Expected event.1 event.2) : e.isInstance "Exception" = true := by
  obtain ⟨source, payload, hmem⟩ := hraised
  exact hexpected _ hmem e rfl

/-- The loop over a batch that has the message once. -/
theorem records_listed {batch : List String} {ys : List Json} {part : List (Event Op Ans)}
    {e : Exc} (h : Calls (records py hmac config key messages batch []) part (.returned ys))
    (hexpected : ∀ event ∈ part, Expected event.1 event.2) (hnodup : batch.Nodup) (hm : m ∈ batch)
    (hraised : Raised part m e) : listing m ∈ ys ↔ drops e = false := by
  obtain ⟨front, back, rfl⟩ := List.append_of_mem hm
  obtain ⟨_, hcons, hdisjoint⟩ := List.nodup_append.mp hnodup
  have hfront : m ∉ front := fun hmem => hdisjoint m hmem m List.mem_cons_self rfl
  have hback : m ∉ back := (List.nodup_cons.mp hcons).1
  rw [records, List.map_append, List.map_cons, collect_append] at h
  obtain ⟨ys₁, before, rest, rfl, hbefore, hrest⟩ := calls_bind_returned h
  obtain ⟨y, mine, after, rfl, hmine, hafter⟩ := calls_bind_returned hrest
  have hexpected₁ : ∀ event ∈ before, Expected event.1 event.2 :=
    fun event hmem => hexpected event (List.mem_append_left _ hmem)
  have hexpected₂ : ∀ event ∈ mine, Expected event.1 event.2 :=
    fun event hmem => hexpected event (List.mem_append_right _ (List.mem_append_left _ hmem))
  have hexpected₃ : ∀ event ∈ after, Expected event.1 event.2 :=
    fun event hmem => hexpected event (List.mem_append_right _ (List.mem_append_right _ hmem))
  obtain ⟨hbefore₁, hbefore₂⟩ := records_without (e := e) hfront hbefore hexpected₁
  obtain ⟨hafter₁, hafter₂⟩ := records_without (e := e) hback hafter hexpected₃
  -- The call for the message is in its own run of the loop body.
  have hmineRaised : Raised mine m e := by
    obtain ⟨source, payload, hmem⟩ := hraised
    rcases List.mem_append.mp hmem with hmem | hmem
    · exact absurd ⟨source, payload, hmem⟩ hbefore₁
    · rcases List.mem_append.mp hmem with hmem | hmem
      · exact ⟨source, payload, hmem⟩
      · exact absurd ⟨source, payload, hmem⟩ hafter₁
  have hy : y = if drops e then none else some (listing m) :=
    handleRecord_raised hmine hmineRaised (raised_expected hmineRaised hexpected₂)
  have hkeep : listing m ∈ ys ↔ listing m ∈ ys₁ ++ y.toList := by
    constructor
    · exact hafter₂
    · exact (collect_returned hafter).1 _
  have hnew : listing m ∉ ys₁ := by
    intro hmem
    cases hbefore₂ hmem
  rw [hkeep, hy]
  cases drops e <;> simp [hnew]

/-! ## The invocation -/

theorem signingKey_meets : (signingKey cached).Meets (fun op => op = .getSecretValue) Expected
    (fun _ => True) fun _ => True := by
  cases cached with
  | some key => exact meets_ret trivial
  | none =>
      refine meets_call rfl fun answer _ => ?_
      apply meets_any.bind
      intro response _
      split
      · exact meets_ret trivial
      · split
        · exact meets_ret trivial
        · exact meets_raise trivial

/-- An invocation runs its loop with some key, unless it stops before it. -/
theorem handle_calls {batch : List String} {calls : List (Event Op Ans)}
    {outcome : Outcome Exc Json}
    (h : Calls (handle py hmac config cached (batchEvent messages batch)) calls outcome)
    (hended : outcome ≠ .lost) (hexpected : ∀ event ∈ calls, Expected event.1 event.2)
    (hraised : ∃ m e, Raised calls m e) :
    ∃ key front part ys, calls = front ++ part ∧ (∀ event ∈ front, event.1 = .getSecretValue) ∧
      Calls (records py hmac config key messages batch []) part (.returned ys) ∧
      outcome = .returned (.obj [("batchItemFailures", .arr ys)]) := by
  have hhandle : handle py hmac config cached (batchEvent messages batch) =
      (signingKey cached >>= fun key => records py hmac config key messages batch [] >>=
        fun failures => ret (.obj [("batchItemFailures", .arr failures)])) := rfl
  rw [hhandle] at h
  rcases calls_bind h with ⟨hlost, _⟩ | ⟨_, _, hkey⟩ | ⟨key, front, rest, rfl, hkey, hrest⟩
  · exact absurd hlost hended
  · -- Without a key nothing is processed.
    obtain ⟨m, e, source, payload, hmem⟩ := hraised
    have hop := (signingKey_meets.calls hkey hexpected).1 _ hmem
    cases hop
  have hfront : ∀ event ∈ front, event.1 = .getSecretValue :=
    (signingKey_meets.calls hkey fun event hmem => hexpected event (List.mem_append_left _ hmem)).1
  rcases calls_bind hrest with ⟨hlost, _⟩ | ⟨e, _, hloop⟩ | ⟨ys, part, back, rfl, hloop, hret⟩
  · exact absurd hlost hended
  · exact ((records_meets.calls hloop fun event hmem =>
      hexpected event (List.mem_append_right _ hmem)).2.2 e rfl).elim
  · obtain ⟨rfl, houtcome | hlost⟩ := calls_ret.mp hret
    · rw [List.append_nil]
      exact ⟨key, front, part, ys, rfl, hfront, hloop, houtcome⟩
    · exact absurd hlost hended

/-- Every business failure of a verified record is reported for retry. -/
def FailuresListed (py : Python) (hmac : Hmac) (config : Config) (cached : Option Bytes) : Prop :=
  ∀ messages batch calls outcome,
    Calls (handle py hmac config cached (batchEvent messages batch)) calls outcome →
    outcome ≠ .lost → batch.Nodup → (∀ event ∈ calls, Expected event.1 event.2) →
    ∀ m ∈ batch, ∀ e, Raised calls m e → Listed outcome m

/-- When an invocation comes to its end, a record on which the business logic
    raised is listed for retry if and only if its exception is of no class on
    which records are dropped. -/
theorem listed_iff_not_drops {py : Python} {hmac : Hmac} {config : Config}
    {cached : Option Bytes} {messages : Messages} {batch : List String}
    {calls : List (Event Op Ans)} {outcome : Outcome Exc Json} {m : String} {e : Exc}
    (h : Calls (handle py hmac config cached (batchEvent messages batch)) calls outcome)
    (hended : outcome ≠ .lost) (hnodup : batch.Nodup) (hm : m ∈ batch)
    (hexpected : ∀ event ∈ calls, Expected event.1 event.2) (hraised : Raised calls m e) :
    Listed outcome m ↔ drops e = false := by
  obtain ⟨key, front, part, ys, rfl, hfront, hloop, rfl⟩ :=
    handle_calls h hended hexpected ⟨m, e, hraised⟩
  have hraised' : Raised part m e := by
    obtain ⟨source, payload, hmem⟩ := hraised
    rcases List.mem_append.mp hmem with hmem | hmem
    · cases hfront _ hmem
    · exact ⟨source, payload, hmem⟩
  have hexpected' : ∀ event ∈ part, Expected event.1 event.2 :=
    fun event hmem => hexpected event (List.mem_append_right _ hmem)
  rw [← records_listed hloop hexpected' hnodup hm hraised']
  constructor
  · rintro ⟨response, heq, hlisted⟩
    injection heq with heq
    rw [← heq] at hlisted
    obtain ⟨failure, hmem, hid⟩ := List.mem_filterMap.mp hlisted
    rcases (records_meets.calls hloop hexpected').2.1 ys rfl failure hmem with hnil | ⟨m', _, rfl⟩
    · cases hnil
    · injection hid with hid
      injection hid with hid
      exact hid ▸ hmem
  · intro hmem
    exact ⟨_, rfl, List.mem_filterMap.mpr ⟨_, hmem, rfl⟩⟩

/-- A verified record that is delivered alone is processed, and what
    `process_event` raises decides whether it is listed. -/
theorem handle_alone {source signature payload : Json} {e : Exc}
    (hsource : attr (messages.record m) "source" = .ok source)
    (hsignature : attr (messages.record m) "signature" = .ok signature)
    (hverified : verified py hmac config key (.str m) (signature.orElse (.str ""))
      (.str (messages.body m)) = .ok payload) (he : e.isInstance "Exception" = true) :
    Calls (handle py hmac config (some key) (batchEvent messages [m]))
      [⟨.processEvent (.str m) (source.orElse (.str "unknown")) payload, .error e⟩]
      (.returned (.obj [("batchItemFailures", .arr (if drops e then [] else [listing m]))])) := by
  have hhandle : handle py hmac config (some key) (batchEvent messages [m]) =
      (handleRecord py hmac config key (messages.record m) >>= fun y =>
        ret (.obj [("batchItemFailures", .arr ([] ++ y.toList))])) := by
    change (collect _ [messages.record m] [] >>= _) = _
    unfold collect
    rw [bind_assoc]
    rfl
  rw [hhandle, handleRecord_record hsource hsignature, hverified]
  refine calls_call.mpr (.inr ⟨.error e, [], rfl, ?_⟩)
  change Calls ((handleError (.str m) e).getD (.raise e) >>= _) _ _
  rw [handleError_ordinary he]
  refine calls_ret.mpr ⟨rfl, .inl ?_⟩
  cases drops e <;> rfl

def sampleConfig : Config where
  signatureAlgorithm := "sha256"
  signaturePrefix := ""

def sampleKey : Bytes := encode "super-secret-key"

/-- HMAC-SHA256 of the body `{}` with the sample key. -/
def sampleSignature : String := "313720e5d03746ed8bdf138bd403471d6b611861442f2bbbd590f27f25e6cac5"

/-- The real digest of the sample body. -/
def sampleHmac : Hmac := fun algorithm secret body =>
  if algorithm = "sha256" ∧ secret = sampleKey ∧ body = encode "\x7b\x7d" then sampleSignature
  else ""

def sampleMessages : Messages where
  body _ := "\x7b\x7d"
  attributes _ := [("source", [("stringValue", .str "github")]),
    ("signature", [("stringValue", .str sampleSignature)])]

theorem sample_source : attr (sampleMessages.record "evt-1") "source" = .ok (.str "github") := by
  decide +kernel

theorem sample_signature :
    attr (sampleMessages.record "evt-1") "signature" = .ok (.str sampleSignature) := by
  decide +kernel

theorem sample_verified : verified Python.sample sampleHmac sampleConfig sampleKey (.str "evt-1")
    ((Json.str sampleSignature).orElse (.str "")) (.str "\x7b\x7d") = .ok (.obj []) := by
  decide +kernel

/-- A downstream reply that is no JSON. -/
def badReply : Exc :=
  ⟨"JSONDecodeError", ["json.JSONDecodeError", "ValueError", "Exception"], "Expecting value"⟩

def unavailable : Exc := .builtin "RuntimeError" "downstream unavailable"

/-- The sample record is verified; what `process_event` raises decides. -/
theorem sample_calls {e : Exc} (he : e.isInstance "Exception" = true) :
    Calls (handle Python.sample sampleHmac sampleConfig (some sampleKey)
      (batchEvent sampleMessages ["evt-1"]))
      [⟨.processEvent (.str "evt-1") ((Json.str "github").orElse (.str "unknown")) (.obj []),
        .error e⟩]
      (.returned (.obj [("batchItemFailures",
        .arr (if drops e then [] else [listing "evt-1"]))])) :=
  handle_alone sample_source sample_signature sample_verified he

theorem expected_error {m : String} {source payload : Json} {e : Exc}
    (he : e.isInstance "Exception" = true) :
    ∀ event ∈ [(⟨.processEvent (.str m) source payload, .error e⟩ : Event Op Ans)],
      Expected event.1 event.2 := by
  intro event hmem
  rw [List.mem_singleton.mp hmem]
  exact ordinary_error he

theorem listed_iff_not_drops_unavailable :
    Listed (.returned (.obj [("batchItemFailures", .arr [listing "evt-1"])])) "evt-1" := by
  have hcalls := sample_calls (show unavailable.isInstance "Exception" = true from rfl)
  exact (listed_iff_not_drops hcalls (by simp) (by simp) List.mem_cons_self (expected_error rfl)
    ⟨_, _, List.mem_cons_self⟩).mpr rfl

/-- The business logic parses a reply and does not catch what that raises. -/
theorem failuresListed_counterexample :
    ¬ FailuresListed Python.sample sampleHmac sampleConfig (some sampleKey) := by
  intro hall
  have hcalls := sample_calls (show badReply.isInstance "Exception" = true from rfl)
  obtain ⟨response, heq, hlisted⟩ := hall sampleMessages ["evt-1"] _ _ hcalls (by simp) (by simp)
    (expected_error rfl) "evt-1" List.mem_cons_self badReply ⟨_, _, List.mem_cons_self⟩
  injection heq with heq
  rw [← heq] at hlisted
  cases hlisted

end WebhookIngest
