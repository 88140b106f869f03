-- SUMMARY: Rotations of the signing key, and which genuine webhooks the consumers that cache it accept.
import ServerlessPatterns.Library.Transition
import ServerlessPatterns.WebhookIngest.Batches

/-!
# Key rotation

The secret has one current value, and every execution environment may hold a key
of its own that it fetched earlier. Rotations, cold starts and the records of the
batches interleave freely.
-/

namespace WebhookIngest

open Program Python Relation
open BatchFunction (response calls_loop)

/-- The signing key in a secret value. -/
def SecretValue.key (secret : SecretValue) : Option Bytes :=
  match secret.secretString with
  | some text => some (encode text)
  | none => secret.secretBinary

/-- What `_signing_key` has in its cache, with the number of rotations there had
    been when it was fetched. -/
structure Fetched where
  key : Bytes
  rotation : Nat

/-- An invocation on a batch: its calls, its failures, and the records handled and
    still to come. -/
structure Invocation where
  cachedAtStart : Option Bytes
  handled : List Record
  rest : List Record
  calls : List (Event Op Ans)
  failures : List Json

structure Environment where
  cached : Option Fetched
  invocation : Option Invocation

structure Deployment where
  secret : SecretValue
  rotations : Nat
  environments : String → Option Environment

namespace Deployment

def initial (secret : SecretValue) : Deployment := ⟨secret, 0, fun _ => none⟩

/-- Publish a new version of the secret. -/
def rotate (d : Deployment) (secret : SecretValue) : Deployment :=
  { d with secret := secret, rotations := d.rotations + 1 }

def set (d : Deployment) (name : String) (environment : Option Environment) : Deployment :=
  { d with environments := Function.update d.environments name environment }

@[simp] theorem set_self {d : Deployment} {name : String} {environment : Option Environment} :
    (d.set name environment).environments name = environment := Function.update_self ..

@[simp] theorem set_other {d : Deployment} {name other : String}
    {environment : Option Environment} (h : other ≠ name) :
    (d.set name environment).environments other = d.environments other := Function.update_of_ne h ..

end Deployment

namespace Invocation

def begin (cached : Option Fetched) (records : List Record) : Invocation :=
  ⟨cached.map Fetched.key, [], records, [], []⟩

def fetch (inv : Invocation) (secret : SecretValue) : Invocation :=
  { inv with calls := inv.calls ++ [⟨.getSecretValue, .ok secret⟩] }

def handle (inv : Invocation) (record : Record) (rest : List Record) (calls : List (Event Op Ans))
    (failure : Option Json) : Invocation :=
  { inv with
    handled := inv.handled ++ [record]
    rest := rest
    calls := inv.calls ++ calls
    failures := inv.failures ++ failure.toList }

end Invocation

/-- An invocation takes the key from the cache or fetches it first. Each record is
    verified at the moment it is handled. -/
inductive Step (py : Python) (hmac : Hmac) (config : Config) : Deployment → Deployment → Prop where
  | rotate {d secret} : Step py hmac config d (d.rotate secret)
  | start {d name} (hnone : d.environments name = none) :
      Step py hmac config d (d.set name (some ⟨none, none⟩))
  | receive {d name cached records} (hidle : d.environments name = some ⟨cached, none⟩) :
      Step py hmac config d (d.set name (some ⟨cached, some (.begin cached records)⟩))
  | fetch {d name inv key} (hcold : d.environments name = some ⟨none, some inv⟩)
      (hkey : Calls (signingKey none) [⟨.getSecretValue, .ok d.secret⟩] (.returned key)) :
      Step py hmac config d (d.set name (some ⟨some ⟨key, d.rotations⟩, some (inv.fetch d.secret)⟩))
  /-- An exception is not cached; the invocation ends with it. -/
  | fetchFailed {d name inv answer e} (hcold : d.environments name = some ⟨none, some inv⟩)
      (hkey : Calls (signingKey none) [⟨.getSecretValue, answer⟩] (.raised e)) :
      Step py hmac config d (d.set name (some ⟨none, none⟩))
  | handle {d name fetched inv record rest calls failure}
      (hwarm : d.environments name = some ⟨some fetched, some inv⟩)
      (hrest : inv.rest = record :: rest)
      (hcalls : Calls (handleRecord py hmac config fetched.key record.json) calls
        (.returned failure)) :
      Step py hmac config d
        (d.set name (some ⟨some fetched, some (inv.handle record rest calls failure)⟩))
  | finish {d name fetched inv} (hwarm : d.environments name = some ⟨some fetched, some inv⟩)
      (hrest : inv.rest = []) :
      Step py hmac config d (d.set name (some ⟨some fetched, none⟩))
  | stop {d name} : Step py hmac config d (d.set name none)

/-- What the interleaving of all parties can lead to, from a deployment without
    environments. -/
def Reachable (py : Python) (hmac : Hmac) (config : Config) (d : Deployment) : Prop :=
  ∃ secret, ReflTransGen (Step py hmac config) (.initial secret) d

/-- The signature is the expected prefix and the HMAC of the body under the key in
    the secret. -/
def Genuine (hmac : Hmac) (config : Config) (secret : SecretValue) (record : Record) : Prop :=
  ∃ key, secret.key = some key ∧ record.stringValue "signature" =
    .str (config.signaturePrefix ++ hmac config.signatureAlgorithm key (encode record.body))

/-- The verification fails the way that the `except` clause for bad signatures
    catches. -/
def rejects (py : Python) (hmac : Hmac) (config : Config) (key : Bytes) (record : Record) : Bool :=
  match verify py hmac key (encode record.body) record.signature config.signatureAlgorithm
      config.signaturePrefix with
  | .ok ok => !ok
  | .error e => e.isInstance "verify_signature.SignatureError"

/-- The record is the next one for the environment. -/
def Next (d : Deployment) (fetched : Fetched) (record : Record) : Prop :=
  ∃ name inv rest, d.environments name = some ⟨some fetched, some inv⟩ ∧ inv.rest = record :: rest

/-- A genuine record is never dropped for its signature. -/
def GenuineAccepted (py : Python) (hmac : Hmac) (config : Config) : Prop :=
  ∀ d, Reachable py hmac config d → ∀ fetched record, Next d fetched record →
    Genuine hmac config d.secret record → rejects py hmac config fetched.key record = false

/-- The configurations for which genuine signatures can be told at all. -/
structure Config.Sound (config : Config) : Prop where
  algorithm : config.signatureAlgorithm ∈ supportedAlgorithms
  signaturePrefix : ∀ c ∈ config.signaturePrefix.toList.head?, isSpace c = false

variable {py : Python} {hmac : Hmac} {config : Config} {key : Bytes} {record : Record}
  {d d' : Deployment}

/-! ## The loop body on rejected and genuine records -/

/-- A rejected record is dropped: nothing is called and nothing is reported. -/
theorem handleRecord_rejects (h : rejects py hmac config key record = true) :
    handleRecord py hmac config key record.json = ret none := by
  have hdrops : ∀ e : Exc, drops e = true →
      verified py hmac config key (.str record.messageId) record.signature (.str record.body) =
        .error e →
      handleRecord py hmac config key record.json = ret none := by
    intro e he hverified
    unfold Record.json
    rw [handleRecord_record attr_json attr_json]
    change Program.tryCatch _ (ofExcept (verified py hmac config key (.str record.messageId)
      record.signature (.str record.body)) >>= _) = _
    rw [hverified, ofExcept_error, raise_bind, tryCatch_raise]
    simp [handleError, he]
  have hencoded : encoded (.str record.body) = .ok (encode record.body) := rfl
  unfold rejects at h
  cases hverify : verify py hmac key (encode record.body) record.signature
      config.signatureAlgorithm config.signaturePrefix with
  | ok ok =>
      rw [hverify] at h
      apply hdrops (unverified (py.str (.str record.messageId))) rfl
      unfold verified
      simp only [Bind.bind, Except.bind, hencoded, hverify]
      rw [if_pos h]
  | error e =>
      rw [hverify] at h
      apply hdrops e
      · have hclass : e.isInstance "verify_signature.SignatureError" = true := h
        simp [drops, hclass]
      · unfold verified
        simp only [Bind.bind, Except.bind, hencoded, hverify]

theorem rejects_genuine (hconfig : config.Sound)
    (hhex : ∀ algorithm ∈ supportedAlgorithms, ∀ secret body,
      IsHexDigest (hmac algorithm secret body))
    (hlower : ∀ digest, IsHexDigest digest → py.lower digest = digest)
    (hsignature : record.stringValue "signature" =
      .str (config.signaturePrefix ++ hmac config.signatureAlgorithm key (encode record.body))) :
    rejects py hmac config key record = false := by
  have hdigest := hhex _ hconfig.algorithm key (encode record.body)
  have hverify : verify py hmac key (encode record.body) (.str (config.signaturePrefix ++
      hmac config.signatureAlgorithm key (encode record.body))) config.signatureAlgorithm
      config.signaturePrefix = .ok true :=
    verify_genuine hconfig.algorithm hconfig.signaturePrefix rfl hdigest (hlower _ hdigest)
  have htruthy : (Json.str (config.signaturePrefix ++
      hmac config.signatureAlgorithm key (encode record.body))).truthy = true := by
    simp [hdigest.1]
  unfold rejects Record.signature
  rw [hsignature, Json.orElse_of_truthy htruthy, hverify]
  rfl

/-- Behind a prefix that begins with whitespace no header is accepted: `strip` takes
    that whitespace off before the prefix is looked for. -/
theorem rejects_spaced {c : Char} (hfirst : config.signaturePrefix.toList.head? = some c)
    (hspace : isSpace c = true) {header : String} (hsignature : record.signature = .str header) :
    rejects py hmac config key record = true := by
  have hmissing : startsWith (strip header) config.signaturePrefix = false := by
    rw [Bool.eq_false_iff]
    intro hstarts
    obtain ⟨rest, hrest⟩ := startsWith_iff.mp hstarts
    have hhead : (strip header).toList.head? = some c := by
      rw [hrest, String.toList_append, List.head?_append, hfirst]
      rfl
    rw [head?_strip c hhead] at hspace
    cases hspace
  have hnonempty : config.signaturePrefix ≠ "" := by
    intro hempty
    rw [hempty] at hfirst
    cases hfirst
  unfold rejects
  rw [hsignature]
  by_cases hempty : header = ""
  · subst hempty
    rfl
  · have htruthy : (Json.str header).truthy = true := Json.truthy_str.mpr hempty
    unfold verify
    simp [htruthy, stripped, Bind.bind, Except.bind, Pure.pure, Except.pure, hnonempty, hmissing]

/-! ## What the environments hold -/

theorem signingKey_calls {secret : SecretValue} :
    Calls (signingKey none) [⟨.getSecretValue, .ok secret⟩] (.returned key) ↔
      secret.key = some key := by
  have hret : ∀ bytes : Bytes, Calls (ret bytes : Handler Bytes) [] (.returned key) ↔
      some bytes = some key := by
    intro bytes
    rw [calls_ret]
    simp [eq_comm]
  unfold signingKey SecretValue.key
  simp only [call_bind, calls_call_cons, ofExcept_ok, ret_bind]
  cases secret.secretString with
  | some text => exact hret (encode text)
  | none =>
      cases secret.secretBinary with
      | some bytes => exact hret bytes
      | none =>
          constructor
          · intro h
            exact absurd h not_calls_raise
          · intro h
            cases h

/-- Every environment there is has the property. -/
def All (P : Environment → Prop) (d : Deployment) : Prop :=
  ∀ name environment, d.environments name = some environment → P environment

theorem All.set {P : Environment → Prop} (hall : All P d) {name : String}
    {environment : Option Environment} (h : ∀ e ∈ environment, P e) :
    All P (d.set name environment) := by
  intro other e he
  by_cases hname : other = name
  · subst hname
    rw [Deployment.set_self] at he
    exact h e he
  · rw [Deployment.set_other hname] at he
    exact hall other e he

/-- A key that was fetched after the last rotation is the one in the secret. -/
def Fresh (d : Deployment) (cached : Option Fetched) : Prop :=
  ∀ fetched ∈ cached, fetched.rotation ≤ d.rotations ∧
    (fetched.rotation = d.rotations → d.secret.key = some fetched.key)

theorem fresh_step (hall : All (fun environment => Fresh d environment.cached) d)
    (h : Step py hmac config d d') : All (fun environment => Fresh d' environment.cached) d' := by
  have hcold : Fresh d none := by
    intro fetched hfetched
    cases hfetched
  cases h with
  | rotate =>
      intro name environment he fetched hfetched
      have hle := (hall name environment he fetched hfetched).1
      refine ⟨Nat.le_succ_of_le hle, fun heq => ?_⟩
      exact absurd heq (Nat.ne_of_lt (Nat.lt_succ_of_le hle))
  | start hnone =>
      apply hall.set
      rintro _ ⟨⟩
      exact hcold
  | receive hidle =>
      apply hall.set
      rintro _ ⟨⟩
      have hfresh := hall _ _ hidle
      exact hfresh
  | fetch _ hkey =>
      apply hall.set
      rintro _ ⟨⟩ fetched ⟨⟩
      exact ⟨Nat.le_refl _, fun _ => signingKey_calls.mp hkey⟩
  | fetchFailed =>
      apply hall.set
      rintro _ ⟨⟩
      exact hcold
  | handle hwarm =>
      apply hall.set
      rintro _ ⟨⟩
      have hfresh := hall _ _ hwarm
      exact hfresh
  | finish hwarm =>
      apply hall.set
      rintro _ ⟨⟩
      have hfresh := hall _ _ hwarm
      exact hfresh
  | stop =>
      apply hall.set
      rintro _ ⟨⟩

theorem fresh_reachable (h : Reachable py hmac config d) :
    All (fun environment => Fresh d environment.cached) d := by
  obtain ⟨secret, hreach⟩ := h
  apply Transition.invariant (P := fun d => All (fun environment => Fresh d environment.cached) d)
    hreach
  · rintro name environment ⟨⟩
  · intro a b ha hab
    exact fresh_step ha hab

/-! ## Interleaved invocations are invocations of the handler -/

/-- The invocation has done what the handler does on the records handled so far. -/
def Ran (py : Python) (hmac : Hmac) (config : Config) (environment : Environment) : Prop :=
  ∀ inv ∈ environment.invocation,
    match environment.cached with
    | none => inv.cachedAtStart = none ∧ inv.handled = [] ∧ inv.calls = [] ∧ inv.failures = []
    | some fetched =>
      ∃ front part, inv.calls = front ++ part ∧
        Calls (signingKey inv.cachedAtStart) front (.returned fetched.key) ∧
        Calls (collect (handleRecord py hmac config fetched.key) (inv.handled.map Record.json) [])
          part (.returned inv.failures)

theorem ran_begin {cached : Option Fetched} {records : List Record} :
    Ran py hmac config ⟨cached, some (.begin cached records)⟩ := by
  rintro _ ⟨⟩
  cases cached with
  | none => exact ⟨rfl, rfl, rfl, rfl⟩
  | some fetched =>
      have hkey : Calls (signingKey (some fetched.key)) [] (.returned fetched.key) :=
        calls_ret.mpr ⟨rfl, .inl rfl⟩
      have hloop : Calls (collect (handleRecord py hmac config fetched.key) [] []) []
          (.returned []) := calls_ret.mpr ⟨rfl, .inl rfl⟩
      exact ⟨[], [], rfl, hkey, hloop⟩

theorem ran_step (hall : All (Ran py hmac config) d) (h : Step py hmac config d d') :
    All (Ran py hmac config) d' := by
  have hidle : ∀ cached, Ran py hmac config ⟨cached, none⟩ := by
    intro cached inv hinv
    cases hinv
  cases h with
  | rotate => exact hall
  | start =>
      apply hall.set
      rintro _ ⟨⟩
      exact hidle none
  | receive =>
      apply hall.set
      rintro _ ⟨⟩
      exact ran_begin
  | fetch hcold hkey =>
      obtain ⟨hstart, hhandled, hcalls, hfailures⟩ := hall _ _ hcold _ rfl
      apply hall.set
      rintro _ ⟨⟩ _ ⟨⟩
      have hloop : ∀ key, Calls (collect (handleRecord py hmac config key) [] []) []
          (.returned []) := fun key => calls_ret.mpr ⟨rfl, .inl rfl⟩
      refine ⟨_, [], (List.append_nil _).symm, ?_, ?_⟩
      · simpa [Invocation.fetch, hstart, hcalls] using hkey
      · simpa [Invocation.fetch, hhandled, hfailures] using hloop _
  | fetchFailed =>
      apply hall.set
      rintro _ ⟨⟩
      exact hidle none
  | @handle name fetched inv record rest calls failure hwarm hrest hcalls =>
      obtain ⟨front, part, heq, hkey, hloop⟩ := hall _ _ hwarm _ rfl
      apply hall.set
      rintro _ ⟨⟩ _ ⟨⟩
      refine ⟨front, part ++ calls, ?_, hkey, ?_⟩
      · simp only [Invocation.handle, heq, List.append_assoc]
      · have hbody : Calls (collect (handleRecord py hmac config fetched.key) [record.json] []) calls
            (.returned ([] ++ failure.toList)) := calls_bind_ret.mpr ⟨failure, rfl, hcalls⟩
        simp only [Invocation.handle, List.map_append, List.map_cons, List.map_nil]
        apply calls_collect_append.mpr
        exact ⟨part, _, calls, _, rfl, rfl, hloop, hbody⟩
  | finish =>
      apply hall.set
      rintro _ ⟨⟩
      exact hidle _
  | stop =>
      apply hall.set
      rintro _ ⟨⟩

theorem ran_reachable (h : Reachable py hmac config d) : All (Ran py hmac config) d := by
  obtain ⟨secret, hreach⟩ := h
  apply Transition.invariant hreach
  · rintro name environment ⟨⟩
  · intro a b ha hab
    exact ran_step ha hab

/-- An invocation that comes to its end is one of the handler on its batch, with
    the key that was in the cache when it began. -/
theorem handle_of_finished {name : String} {fetched : Fetched} {inv : Invocation}
    (h : Reachable py hmac config d) (hwarm : d.environments name = some ⟨some fetched, some inv⟩) :
    Calls (handle py hmac config inv.cachedAtStart (recordsEvent inv.handled)) inv.calls
      (.returned (response inv.failures)) := by
  have hhandle : handle py hmac config inv.cachedAtStart (recordsEvent inv.handled) =
      (signingKey inv.cachedAtStart >>= fun key =>
        handle py hmac config (some key) (recordsEvent inv.handled)) := rfl
  obtain ⟨front, part, heq, hkey, hloop⟩ := ran_reachable h _ _ hwarm _ rfl
  rw [hhandle, heq]
  exact hkey.bind ((calls_loop handle_loops).mpr hloop)

/-! ## Genuine records -/

/-- An environment that fetched its key after the last rotation drops no genuine
    record for its signature. -/
theorem genuine_accepted (hconfig : config.Sound)
    (hhex : ∀ algorithm ∈ supportedAlgorithms, ∀ secret body,
      IsHexDigest (hmac algorithm secret body))
    (hlower : ∀ digest, IsHexDigest digest → py.lower digest = digest)
    (h : Reachable py hmac config d) {fetched : Fetched} (hnext : Next d fetched record)
    (hrotation : fetched.rotation = d.rotations) (hgenuine : Genuine hmac config d.secret record) :
    rejects py hmac config fetched.key record = false := by
  obtain ⟨name, inv, rest, hwarm, _⟩ := hnext
  obtain ⟨key, hkey, hsignature⟩ := hgenuine
  have hcurrent : d.secret.key = some fetched.key :=
    (fresh_reachable h _ _ hwarm fetched rfl).2 hrotation
  have heq : key = fetched.key := by
    rw [hcurrent] at hkey
    injection hkey with hkey
    exact hkey.symm
  subst heq
  exact rejects_genuine hconfig hhex hlower hsignature

/-- `Config.Sound` cannot do without its second part: behind a prefix that begins with
    whitespace a genuine record is dropped, whatever the key. -/
theorem genuine_rejected_of_spaced {secret : SecretValue} {c : Char}
    (hfirst : config.signaturePrefix.toList.head? = some c) (hspace : isSpace c = true)
    (hgenuine : Genuine hmac config secret record) :
    rejects py hmac config key record = true ∧
      handleRecord py hmac config key record.json = ret none := by
  obtain ⟨current, _, hsignature⟩ := hgenuine
  have hnonempty : config.signaturePrefix ≠ "" := by
    intro hempty
    rw [hempty] at hfirst
    cases hfirst
  have htruthy : (Json.str (config.signaturePrefix ++
      hmac config.signatureAlgorithm current (encode record.body))).truthy = true := by
    simp [hnonempty]
  have hheader : record.signature = .str (config.signaturePrefix ++
      hmac config.signatureAlgorithm current (encode record.body)) := by
    unfold Record.signature
    rw [hsignature, Json.orElse_of_truthy htruthy]
  have hrejects : rejects py hmac config key record = true := rejects_spaced hfirst hspace hheader
  exact ⟨hrejects, handleRecord_rejects hrejects⟩

/-! ## A sample rotation -/

def rotatedKey : Bytes := encode "rotated-key"

/-- HMAC-SHA256 of the body `{}` with the rotated key. -/
def rotatedSignature : String := "a3000262268b7c4ef1494d105d625c0c965cf9bcc070fc6548d3e92b8a40e525"

/-- The real digests of the sample body under both keys. -/
def rotationHmac : Hmac := fun algorithm secret body =>
  if algorithm = "sha256" ∧ secret = rotatedKey ∧ body = encode "\x7b\x7d" then rotatedSignature
  else sampleSignature

def rotatedRecord : Record where
  messageId := "evt-2"
  body := "\x7b\x7d"
  attributes := [("source", [("stringValue", .str "github")]),
    ("signature", [("stringValue", .str rotatedSignature)])]

def sampleSecret : SecretValue := ⟨some "super-secret-key", none⟩

def rotatedSecret : SecretValue := ⟨some "rotated-key", none⟩

theorem sampleConfig_sound : sampleConfig.Sound where
  algorithm := by decide
  signaturePrefix c hc := by simp [sampleConfig] at hc

theorem sampleSignature_hex : IsHexDigest sampleSignature :=
  isHexDigest_of_all (by decide +kernel) (by decide +kernel)

theorem rotatedSignature_hex : IsHexDigest rotatedSignature :=
  isHexDigest_of_all (by decide +kernel) (by decide +kernel)

theorem rotationHmac_hex : ∀ algorithm ∈ supportedAlgorithms, ∀ secret body,
    IsHexDigest (rotationHmac algorithm secret body) := by
  intro algorithm _ secret body
  unfold rotationHmac
  split
  · exact rotatedSignature_hex
  · exact sampleSignature_hex

theorem sample_lower : ∀ digest, IsHexDigest digest → Python.sample.lower digest = digest := by
  intro digest hdigest
  have hmap : digest.toList.map Char.toLower = digest.toList.map id :=
    List.map_congr_left fun c hc => hexDigit_toLower c (hdigest.2 c hc)
  rw [List.map_id] at hmap
  change String.ofList (digest.toList.map Char.toLower) = digest
  rw [hmap, String.ofList_toList]

/-- An environment that has fetched its key and has this invocation to go on with. -/
def warmed (d : Deployment) (invocation : Option Invocation) : Deployment :=
  d.set "env-1" (some ⟨some ⟨sampleKey, 0⟩, invocation⟩)

/-- An environment that is about to handle the sample record. -/
def coldStarted : Deployment :=
  warmed (((Deployment.initial sampleSecret).set "env-1" (some ⟨none, none⟩)).set "env-1"
    (some ⟨none, some (.begin none [sampleRecord])⟩))
    (some ((Invocation.begin none [sampleRecord]).fetch sampleSecret))

theorem coldStarted_reachable : Reachable Python.sample rotationHmac sampleConfig coldStarted := by
  refine ⟨sampleSecret, .tail (.tail (.single (.start rfl)) (.receive ?_)) (.fetch ?_ ?_)⟩
  · exact Deployment.set_self
  · exact Deployment.set_self
  · exact signingKey_calls.mpr rfl

theorem sampleRecord_genuine : Genuine rotationHmac sampleConfig sampleSecret sampleRecord := by
  refine ⟨sampleKey, rfl, ?_⟩
  decide +kernel

theorem genuine_accepted_coldStarted :
    rejects Python.sample rotationHmac sampleConfig sampleKey sampleRecord = false := by
  have hnext : Next coldStarted ⟨sampleKey, 0⟩ sampleRecord :=
    ⟨"env-1", _, [], Deployment.set_self, rfl⟩
  have haccepted := genuine_accepted sampleConfig_sound rotationHmac_hex sample_lower
    coldStarted_reachable hnext rfl sampleRecord_genuine
  exact haccepted

theorem sampleRecord_processed : Calls
    (handleRecord Python.sample rotationHmac sampleConfig sampleKey sampleRecord.json)
    [⟨.processEvent (.str "evt-1") (.str "github") (.obj []), .ok ()⟩] (.returned none) := by
  have hverified : verified Python.sample rotationHmac sampleConfig sampleKey (.str "evt-1")
      sampleRecord.signature (.str "\x7b\x7d") = .ok (.obj []) := by
    decide +kernel
  unfold Record.json
  rw [handleRecord_record attr_json attr_json]
  change Calls (Program.tryCatch _ (ofExcept (verified Python.sample rotationHmac sampleConfig
    sampleKey (.str "evt-1") sampleRecord.signature (.str "\x7b\x7d")) >>= _)) _ _
  rw [hverified]
  exact calls_call_cons.mpr (calls_ret.mpr ⟨rfl, .inl rfl⟩)

def sampleHandled : Invocation :=
  ((Invocation.begin none [sampleRecord]).fetch sampleSecret).handle sampleRecord []
    [⟨.processEvent (.str "evt-1") (.str "github") (.obj []), .ok ()⟩] none

/-- The environment has handled its batch, the key was rotated, and the next batch
    has arrived. -/
def rotated : Deployment :=
  warmed ((warmed (warmed coldStarted (some sampleHandled)) none).rotate rotatedSecret)
    (some (.begin (some ⟨sampleKey, 0⟩) [rotatedRecord]))

theorem rotated_reachable : Reachable Python.sample rotationHmac sampleConfig rotated := by
  obtain ⟨secret, hreach⟩ := coldStarted_reachable
  have hhandle : Step Python.sample rotationHmac sampleConfig coldStarted
      (warmed coldStarted (some sampleHandled)) :=
    .handle Deployment.set_self rfl sampleRecord_processed
  have hfinish : Step Python.sample rotationHmac sampleConfig
      (warmed coldStarted (some sampleHandled))
      (warmed (warmed coldStarted (some sampleHandled)) none) :=
    .finish Deployment.set_self rfl
  have hreceive : Step Python.sample rotationHmac sampleConfig
      ((warmed (warmed coldStarted (some sampleHandled)) none).rotate rotatedSecret) rotated :=
    .receive (@Deployment.set_self (warmed coldStarted (some sampleHandled)) "env-1" _)
  exact ⟨secret, (((hreach.tail hhandle).tail hfinish).tail .rotate).tail hreceive⟩

theorem rotatedRecord_genuine : Genuine rotationHmac sampleConfig rotatedSecret rotatedRecord := by
  refine ⟨rotatedKey, rfl, ?_⟩
  decide +kernel

theorem rotatedRecord_rejected :
    rejects Python.sample rotationHmac sampleConfig sampleKey rotatedRecord = true := by
  decide +kernel

/-- The cached key outlives the rotation. -/
theorem genuineAccepted_counterexample :
    ¬ GenuineAccepted Python.sample rotationHmac sampleConfig := by
  intro hall
  have hnext : Next rotated ⟨sampleKey, 0⟩ rotatedRecord :=
    ⟨"env-1", _, [], Deployment.set_self, rfl⟩
  have haccepted := hall rotated rotated_reachable _ _ hnext rotatedRecord_genuine
  rw [rotatedRecord_rejected] at haccepted
  cases haccepted

end WebhookIngest
