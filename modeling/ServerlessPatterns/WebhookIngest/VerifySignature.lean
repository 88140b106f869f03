-- SUMMARY: HMAC signature verification for inbound webhooks.
import Mathlib.Data.Bool.AllAny
import ServerlessPatterns.Library.Python

/-!
# Signature verification

Providers sign the raw request body and send the hex digest in a header. The
digest itself is left open.
-/

namespace WebhookIngest

open Python

/-- `hmac.new(secret, body, getattr(hashlib, algorithm)).hexdigest()`. -/
abbrev Hmac := (algorithm : String) → (secret body : Bytes) → String

def signatureError (message : String) : Exc :=
  ⟨"SignatureError", ["verify_signature.SignatureError", "ValueError", "Exception"], message⟩

def supportedAlgorithms : List String := ["sha1", "sha256", "sha512"]

def computeSignature (py : Python) (hmac : Hmac) (secret body : Bytes) (algorithm : String) :
    Except Exc String :=
  if algorithm ∈ supportedAlgorithms then .ok (hmac algorithm secret body)
  else .error (signatureError s!"unsupported algorithm: {py.repr (.str algorithm)}")

/-- `hmac.compare_digest(a, b)` on two strings. -/
def compareDigest (a b : String) : Except Exc Bool :=
  if (a ++ b).toList.all (·.toNat < 128) then .ok (a == b)
  else .error (.typeError "comparing strings with non-ASCII characters is not supported")

/-- The header value may be anything; only a string can be stripped. -/
def stripped : Json → Except Exc String
  | .str s => .ok (strip s)
  | _ => .error (.attributeError "object has no attribute 'strip'")

def verify (py : Python) (hmac : Hmac) (secret body : Bytes) (providedSignature : Json)
    (algorithm signaturePrefix : String) : Except Exc Bool := do
  if !providedSignature.truthy then
    .error (signatureError "empty signature header")
  else do
    let candidate ← stripped providedSignature
    if signaturePrefix ≠ "" ∧ !startsWith candidate signaturePrefix then return false
    else do
      let candidate := if signaturePrefix ≠ "" then dropFront signaturePrefix.length candidate
        else candidate
      let expected ← computeSignature py hmac secret body algorithm
      compareDigest (py.lower candidate) (py.lower expected)

/-- What `hexdigest` returns: some lowercase hexadecimal digits. -/
def IsHexDigest (digest : String) : Prop :=
  digest ≠ "" ∧ ∀ c ∈ digest.toList, c ∈ "0123456789abcdef".toList

theorem hexDigit_isSpace : ∀ c ∈ "0123456789abcdef".toList, isSpace c = false :=
  List.all_iff_forall_prop.mp (by decide)

theorem hexDigit_ascii : ∀ c ∈ "0123456789abcdef".toList, c.toNat < 128 :=
  List.all_iff_forall_prop.mp (by decide)

theorem hexDigit_toLower : ∀ c ∈ "0123456789abcdef".toList, c.toLower = c :=
  List.all_iff_forall_prop.mp (by decide)

/-- A digest is checked character by character. -/
theorem isHexDigest_of_all {digest : String} (hne : digest ≠ "")
    (h : (digest.toList.all fun c => c ∈ "0123456789abcdef".toList) = true) : IsHexDigest digest :=
  ⟨hne, List.all_iff_forall_prop.mp h⟩

/-- The digest under the right secret, behind the expected prefix, is accepted. -/
theorem verify_genuine {py : Python} {hmac : Hmac} {secret body : Bytes}
    {algorithm signaturePrefix digest : String} (halgorithm : algorithm ∈ supportedAlgorithms)
    (hfirst : ∀ c ∈ signaturePrefix.toList.head?, isSpace c = false)
    (hdigest : hmac algorithm secret body = digest) (hhex : IsHexDigest digest)
    (hlower : py.lower digest = digest) :
    verify py hmac secret body (.str (signaturePrefix ++ digest)) algorithm signaturePrefix =
      .ok true := by
  obtain ⟨hnonempty, hdigits⟩ := hhex
  have hchars : digest.toList ≠ [] := by simpa using hnonempty
  have htruthy : (Json.str (signaturePrefix ++ digest)).truthy = true := by
    simp [hnonempty]
  have hstrip : strip (signaturePrefix ++ digest) = signaturePrefix ++ digest := by
    apply strip_eq_self
    · intro c hc
      rw [String.toList_append, List.head?_append] at hc
      cases hhead : signaturePrefix.toList.head? with
      | none =>
          rw [hhead] at hc
          exact hexDigit_isSpace c (hdigits c (List.mem_of_mem_head? hc))
      | some first =>
          rw [hhead] at hc
          exact hfirst c (hhead ▸ hc)
    · intro c hc
      rw [String.toList_append, List.getLast?_append_of_ne_nil _ hchars] at hc
      exact hexDigit_isSpace c (hdigits c (List.mem_of_getLast? hc))
  have hcompute : computeSignature py hmac secret body algorithm = .ok digest := by
    unfold computeSignature
    rw [if_pos halgorithm, hdigest]
  have hcompare : compareDigest digest digest = .ok true := by
    have hascii : (digest ++ digest).toList.all (·.toNat < 128) = true := by
      rw [List.all_eq_true]
      intro c hc
      rw [String.toList_append] at hc
      have hmem : c ∈ digest.toList := (List.mem_append.mp hc).elim id id
      simpa using hexDigit_ascii c (hdigits c hmem)
    unfold compareDigest
    rw [if_pos hascii, beq_self_eq_true]
  have hstripped : stripped (.str (signaturePrefix ++ digest)) = .ok (signaturePrefix ++ digest) :=
    congrArg Except.ok hstrip
  unfold verify
  rw [htruthy, hstripped]
  simp only [Bind.bind, Except.bind, hcompute]
  by_cases hempty : signaturePrefix = ""
  · subst hempty
    simp [hlower, hcompare]
  · simp [hempty, hlower, hcompare]

theorem ordinary_verify {py : Python} {hmac : Hmac} {secret body : Bytes} {providedSignature : Json}
    {algorithm signaturePrefix : String} :
    Ordinary (verify py hmac secret body providedSignature algorithm signaturePrefix) := by
  have hstripped : Ordinary (stripped providedSignature) := by
    unfold stripped
    split
    · exact ordinary_ok
    · exact ordinary_error rfl
  have hcompute : Ordinary (computeSignature py hmac secret body algorithm) := by
    unfold computeSignature
    split
    · exact ordinary_ok
    · exact ordinary_error rfl
  have hcompare : ∀ a b, Ordinary (compareDigest a b) := by
    intro a b
    unfold compareDigest
    split
    · exact ordinary_ok
    · exact ordinary_error rfl
  unfold verify
  split
  · exact ordinary_error rfl
  · apply hstripped.bind
    intro candidate
    split
    · exact ordinary_ok
    · exact hcompute.bind fun expected => hcompare _ _

end WebhookIngest
