-- SUMMARY: Which signature headers are verified without an exception, over all texts a sender can put there.
import ServerlessPatterns.WebhookIngest.VerifySignature

/-!
# Signature headers

The header is text that the sender chooses. `hmac.compare_digest` compares strings of
ASCII characters only, and raises on any other.
-/

namespace WebhookIngest

open Python

variable {py : Python} {hmac : Hmac} {secret body : Bytes}
  {algorithm signaturePrefix providedSignature rest : String}

/-! ## Letter case -/

def IsAscii (s : String) : Prop := ∀ c ∈ s.toList, c.toNat < 128

instance {s : String} : Decidable (IsAscii s) :=
  decidable_of_iff ((s.toList.all fun c => decide (c.toNat < 128)) = true)
    (by simp only [List.all_eq_true, decide_eq_true_eq, IsAscii])

/-- The lower case of the ASCII letters. -/
def asciiLower (s : String) : String := String.ofList (s.toList.map Char.toLower)

/-- Two texts are one up to the case of ASCII letters. -/
def EqualFold (a b : String) : Prop := asciiLower a = asciiLower b

/-- `str.lower` on ASCII text, and the characters that it turns into hexadecimal
    digits. -/
structure LowersAscii (py : Python) : Prop where
  ascii : ∀ s, IsAscii s → py.lower s = asciiLower s
  hex : ∀ s, IsHexDigest (py.lower s) → IsAscii s

theorem toNat_lt_of_toLower {c : Char} (h : c.toLower.toNat < 128) : c.toNat < 128 := by
  by_cases hupper : 65 ≤ c.toNat ∧ c.toNat ≤ 90
  · omega
  · have hsame : c.toLower = c := by
      apply dif_neg
      rintro ⟨hlow, hhigh⟩
      have hlow' : ('A').val.toNat ≤ c.val.toNat := UInt32.le_iff_toNat_le.mp hlow
      have hhigh' : c.val.toNat ≤ ('Z').val.toNat := UInt32.le_iff_toNat_le.mp hhigh
      exact hupper ⟨hlow', hhigh'⟩
    rwa [hsame] at h

theorem isAscii_of_asciiLower {s : String} (h : IsAscii (asciiLower s)) : IsAscii s := by
  intro c hc
  apply toNat_lt_of_toLower
  apply h
  rw [asciiLower, String.toList_ofList]
  exact List.mem_map_of_mem hc

theorem IsHexDigest.ascii {digest : String} (h : IsHexDigest digest) : IsAscii digest :=
  fun c hc => hexDigit_ascii c (h.2 c hc)

theorem IsHexDigest.asciiLower {digest : String} (h : IsHexDigest digest) :
    asciiLower digest = digest := by
  have hmap : digest.toList.map Char.toLower = digest.toList.map id :=
    List.map_congr_left fun c hc => hexDigit_toLower c (h.2 c hc)
  rw [WebhookIngest.asciiLower, hmap, List.map_id, String.ofList_toList]

/-! ## What is compared -/

theorem append_cancel {head s t : String} (h : head ++ s = head ++ t) : s = t := by
  have hdrop := congrArg (dropFront head.length) h
  rwa [dropFront_append, dropFront_append] at hdrop

theorem compareDigest_eq {a b : String} :
    compareDigest a b = if IsAscii a ∧ IsAscii b then .ok (a == b)
      else .error (.typeError "comparing strings with non-ASCII characters is not supported") := by
  have hall : (a ++ b).toList.all (·.toNat < 128) = true ↔ IsAscii a ∧ IsAscii b := by
    simp only [String.toList_append, List.all_append, Bool.and_eq_true, List.all_eq_true,
      decide_eq_true_eq, IsAscii]
  unfold compareDigest
  simp only [hall]

/-- A header with the prefix is compared, one without it is turned down. -/
theorem verify_eq (hne : providedSignature ≠ "") (halgorithm : algorithm ∈ supportedAlgorithms) :
    verify py hmac secret body (.str providedSignature) algorithm signaturePrefix =
      if startsWith (strip providedSignature) signaturePrefix then
        compareDigest (py.lower (dropFront signaturePrefix.length (strip providedSignature)))
          (py.lower (hmac algorithm secret body))
      else .ok false := by
  have htruthy : (Json.str providedSignature).truthy = true := Json.truthy_str.mpr hne
  have hcompute : computeSignature py hmac secret body algorithm = .ok (hmac algorithm secret body) :=
    if_pos halgorithm
  unfold verify
  rw [htruthy]
  simp only [stripped, Bind.bind, Except.bind, hcompute]
  by_cases hempty : signaturePrefix = ""
  · subst hempty
    have hstarts : startsWith (strip providedSignature) "" = true := rfl
    have hdrop : dropFront 0 (strip providedSignature) = strip providedSignature := by
      simp [dropFront]
    simp [hstarts, hdrop]
  · cases hstarts : startsWith (strip providedSignature) signaturePrefix with
    | false => simp [hempty, Pure.pure, Except.pure]
    | true => simp [hempty]

/-! ## Valid signatures -/

/-- The header, without the whitespace around it, is the prefix and the digest, in
    letters of any case. -/
def ValidSignature (hmac : Hmac) (secret body : Bytes)
    (algorithm signaturePrefix providedSignature : String) : Prop :=
  ∃ rest, strip providedSignature = signaturePrefix ++ rest ∧
    EqualFold rest (hmac algorithm secret body)

/-- Exactly the valid signatures are accepted, only the empty one raises, and all
    others are turned down. -/
structure VerifiesExactly (py : Python) (hmac : Hmac) (secret body : Bytes)
    (algorithm signaturePrefix providedSignature : String) : Prop where
  raised : (∃ e, verify py hmac secret body (.str providedSignature) algorithm signaturePrefix =
    .error e ∧ e.isInstance "verify_signature.SignatureError" = true) ↔ providedSignature = ""
  accepted : providedSignature ≠ "" →
    (verify py hmac secret body (.str providedSignature) algorithm signaturePrefix = .ok true ↔
      ValidSignature hmac secret body algorithm signaturePrefix providedSignature)
  rejected : providedSignature ≠ "" →
    ¬ ValidSignature hmac secret body algorithm signaturePrefix providedSignature →
    verify py hmac secret body (.str providedSignature) algorithm signaturePrefix = .ok false

/-- What follows the prefix, if the prefix is there, has an ASCII lower case. -/
def Comparable (py : Python) (signaturePrefix providedSignature : String) : Prop :=
  ∀ rest, strip providedSignature = signaturePrefix ++ rest → IsAscii (py.lower rest)

theorem verify_empty :
    verify py hmac secret body (.str "") algorithm signaturePrefix =
      .error (signatureError "empty signature header") := rfl

theorem verify_missing (hne : providedSignature ≠ "") (halgorithm : algorithm ∈ supportedAlgorithms)
    (hmissing : ¬ ∃ rest, strip providedSignature = signaturePrefix ++ rest) :
    verify py hmac secret body (.str providedSignature) algorithm signaturePrefix = .ok false := by
  rw [verify_eq hne halgorithm, if_neg (fun h => hmissing (startsWith_iff.mp h))]

theorem verify_compared (hne : providedSignature ≠ "") (halgorithm : algorithm ∈ supportedAlgorithms)
    (hrest : strip providedSignature = signaturePrefix ++ rest) :
    verify py hmac secret body (.str providedSignature) algorithm signaturePrefix =
      compareDigest (py.lower rest) (py.lower (hmac algorithm secret body)) := by
  rw [verify_eq hne halgorithm, hrest, if_pos startsWith_append, dropFront_append]

/-- A header that cannot be compared raises what is no `SignatureError`. -/
theorem verify_incomparable (hne : providedSignature ≠ "")
    (halgorithm : algorithm ∈ supportedAlgorithms)
    (hrest : strip providedSignature = signaturePrefix ++ rest) (hascii : ¬ IsAscii (py.lower rest)) :
    ∃ e, verify py hmac secret body (.str providedSignature) algorithm signaturePrefix = .error e := by
  rw [verify_compared hne halgorithm hrest, compareDigest_eq, if_neg (fun h => hascii h.1)]
  exact ⟨_, rfl⟩

theorem not_verifiesExactly {e : Exc} (hne : providedSignature ≠ "")
    (hraised : verify py hmac secret body (.str providedSignature) algorithm signaturePrefix = .error e) :
    ¬ VerifiesExactly py hmac secret body algorithm signaturePrefix providedSignature := by
  intro h
  by_cases hvalid : ValidSignature hmac secret body algorithm signaturePrefix providedSignature
  · cases hraised.symm.trans ((h.accepted hne).mpr hvalid)
  · cases hraised.symm.trans (h.rejected hne hvalid)

theorem validSignature_iff (hrest : strip providedSignature = signaturePrefix ++ rest) :
    ValidSignature hmac secret body algorithm signaturePrefix providedSignature ↔
      EqualFold rest (hmac algorithm secret body) := by
  constructor
  · rintro ⟨rest', hrest', hfold⟩
    rwa [append_cancel (hrest.symm.trans hrest')]
  · exact fun hfold => ⟨rest, hrest, hfold⟩

section

variable (hlower : LowersAscii py)
include hlower

/-- An empty header has nothing behind the prefix. -/
theorem comparable_empty : Comparable py signaturePrefix "" := by
  intro rest hrest
  have hlength : signaturePrefix.length + rest.length = 0 := by
    rw [← String.length_append, ← hrest]
    rfl
  obtain rfl : rest = "" := String.length_eq_zero_iff.mp (by omega)
  rw [hlower.ascii "" (by decide)]
  decide

variable (hhex : IsHexDigest (hmac algorithm secret body))
include hhex

/-- Only ASCII text has the lower case of a digest. -/
theorem lower_eq_digest_iff :
    py.lower rest = hmac algorithm secret body ↔ EqualFold rest (hmac algorithm secret body) := by
  unfold EqualFold
  rw [hhex.asciiLower]
  constructor
  · intro h
    have hascii : IsAscii rest := hlower.hex rest (h ▸ hhex)
    rw [← hlower.ascii rest hascii, h]
  · intro h
    have hascii : IsAscii rest := isAscii_of_asciiLower (h ▸ hhex.ascii)
    rw [hlower.ascii rest hascii, h]

theorem verify_comparable (hne : providedSignature ≠ "")
    (halgorithm : algorithm ∈ supportedAlgorithms)
    (hrest : strip providedSignature = signaturePrefix ++ rest) (hascii : IsAscii (py.lower rest)) :
    verify py hmac secret body (.str providedSignature) algorithm signaturePrefix =
      .ok (py.lower rest == hmac algorithm secret body) := by
  have hdigest : py.lower (hmac algorithm secret body) = hmac algorithm secret body := by
    rw [hlower.ascii _ hhex.ascii, hhex.asciiLower]
  rw [verify_compared hne halgorithm hrest, hdigest, compareDigest_eq, if_pos ⟨hascii, hhex.ascii⟩]

theorem verifiesExactly_iff (halgorithm : algorithm ∈ supportedAlgorithms) :
    VerifiesExactly py hmac secret body algorithm signaturePrefix providedSignature ↔
      Comparable py signaturePrefix providedSignature := by
  by_cases hne : providedSignature = ""
  · subst hne
    exact iff_of_true
      ⟨iff_of_true ⟨_, verify_empty, rfl⟩ rfl, fun h => absurd rfl h, fun h => absurd rfl h⟩
      (comparable_empty hlower)
  constructor
  · intro h rest hrest
    by_contra hascii
    obtain ⟨e, hraised⟩ := verify_incomparable hne halgorithm hrest hascii
    exact not_verifiesExactly hne hraised h
  · intro h
    by_cases hfound : ∃ rest, strip providedSignature = signaturePrefix ++ rest
    · obtain ⟨rest, hrest⟩ := hfound
      have hverify := verify_comparable hlower hhex hne halgorithm hrest (h rest hrest)
      refine ⟨iff_of_false ?_ hne, fun _ => ?_, fun _ hinvalid => ?_⟩
      · rintro ⟨e, hraised, _⟩
        cases hverify.symm.trans hraised
      · rw [hverify, Except.ok.injEq, beq_iff_eq, lower_eq_digest_iff hlower hhex,
          validSignature_iff hrest]
      · rw [hverify, Except.ok.injEq, beq_eq_false_iff_ne]
        intro heq
        exact hinvalid ((validSignature_iff hrest).mpr ((lower_eq_digest_iff hlower hhex).mp heq))
    · have hverify : verify py hmac secret body (.str providedSignature) algorithm signaturePrefix =
          .ok false := verify_missing hne halgorithm hfound
      refine ⟨iff_of_false ?_ hne, fun _ => iff_of_false ?_ ?_, fun _ _ => hverify⟩
      · rintro ⟨e, hraised, _⟩
        cases hverify.symm.trans hraised
      · intro haccepted
        cases hverify.symm.trans haccepted
      · exact fun ⟨rest, hrest, _⟩ => hfound ⟨rest, hrest⟩

end

/-! ## A forged header -/

/-- The digest of the body `{}` under the key `k`. -/
def emptyObjectHmac : Hmac := fun _ _ _ =>
  "add853b103fbcc936a194f9eb15e29c4ff08af6e47d5d1bca4f20218e31e4fff"

theorem emptyObjectHmac_hex : IsHexDigest (emptyObjectHmac "sha256" [107] [123, 125]) :=
  isHexDigest_of_all (by decide +kernel) (by decide +kernel)

theorem lowersAscii_sample : LowersAscii .sample where
  ascii _ _ := rfl
  hex _ h := isAscii_of_asciiLower h.ascii

/-- The provider's header, in capital letters and with whitespace around it. -/
theorem verifiesExactly_capitals :
    VerifiesExactly .sample emptyObjectHmac [107] [123, 125] "sha256" "sha256="
      " sha256=ADD853B103FBCC936A194F9EB15E29C4FF08AF6E47D5D1BCA4F20218E31E4FFF\n" :=
  (verifiesExactly_iff lowersAscii_sample emptyObjectHmac_hex (by decide +kernel)).mpr (by
    intro rest hrest
    have hstrip : strip " sha256=ADD853B103FBCC936A194F9EB15E29C4FF08AF6E47D5D1BCA4F20218E31E4FFF\n" =
        "sha256=" ++ "ADD853B103FBCC936A194F9EB15E29C4FF08AF6E47D5D1BCA4F20218E31E4FFF" := by
      decide +kernel
    rw [← append_cancel (hstrip.symm.trans hrest)]
    decide +kernel)

theorem verifiesExactly_counterexample :
    ¬ VerifiesExactly .sample emptyObjectHmac [107] [123, 125] "sha256" "sha256=" "sha256=é" := by
  have hrest : strip "sha256=é" = "sha256=" ++ "é" := by decide +kernel
  have hascii : ¬ IsAscii (Python.sample.lower "é") := by decide +kernel
  obtain ⟨e, hraised⟩ : ∃ e, verify .sample emptyObjectHmac [107] [123, 125] (.str "sha256=é")
      "sha256" "sha256=" = .error e :=
    verify_incomparable (by decide +kernel) (by decide +kernel) hrest hascii
  exact not_verifiesExactly (by decide +kernel) hraised

end WebhookIngest
