-- SUMMARY: Which records share an idempotency key, and which ought to.
import ServerlessPatterns.IdempotentProcessor.Handler
import ServerlessPatterns.Library.JsonOrder

/-!
# Idempotency keys

The key of a record is taken from the first of three sources that has a value that
counts as true, and no trace of the source is left in it. A business key that counts
as false is passed over, and the printed value of one field may be the value of the
other.
-/

namespace IdempotentProcessor

open Program Python

/-- The body that the record handler goes on with. -/
def bodyOf (py : Python) (recordBody : String) : Except Exc Json :=
  if recordBody ≠ "" then py.loads recordBody else .ok (.obj [])

/-- The record handler calls `process_payload` with the key. -/
def PassesKey (py : Python) (sha256 : Sha256) (recordBody key : String) : Prop :=
  ∃ payload k, recordHandler py sha256 recordBody = .call (.processPayload payload) k ∧
    payload.field config.eventKeyJmespath = some (.str key)

/-! ## Where a key comes from -/

inductive KeyField where
  | idempotencyKey
  | id
  deriving DecidableEq

def KeyField.name : KeyField → String
  | .idempotencyKey => "idempotency_key"
  | .id => "id"

/-- The source chosen for the key of a record. -/
inductive Source where
  | field (field : KeyField) (value : Json)
  | rawBody

def chosenOf (fields : List (String × Json)) : List KeyField → Source
  | [] => .rawBody
  | field :: rest =>
    let value := (fields.lookup field.name).getD .null
    if value.truthy then .field field value else chosenOf fields rest

/-- The source that is chosen for a body with these fields. -/
def chosen (fields : List (String × Json)) : Source := chosenOf fields [.idempotencyKey, .id]

namespace Source

def key (py : Python) (sha256 : Sha256) (recordBody : String) : Source → String
  | .field _ value => py.str value
  | .rawBody => sha256 (encode recordBody)

def value : Source → Option Json
  | .field _ value => some value
  | .rawBody => none

end Source

variable {py : Python} {sha256 : Sha256} {recordBody recordBody' : String}
  {fields fields' : List (String × Json)}

theorem firstKey_eq (names : List KeyField) :
    firstKey py (.obj fields) (names.map KeyField.name) =
      .ok ((chosenOf fields names).value.map py.str) := by
  induction names with
  | nil => rfl
  | cons field rest ih =>
      rw [List.map_cons, firstKey, get_obj, chosenOf]
      simp only [Bind.bind, Except.bind]
      split
      · rfl
      · exact ih

theorem idempotencyKey_eq :
    idempotencyKey py sha256 recordBody (.obj fields) =
      .ok ((chosen fields).key py sha256 recordBody) := by
  have hfirst : firstKey py (.obj fields) ["idempotency_key", "id"] =
      .ok ((chosen fields).value.map py.str) :=
    firstKey_eq [.idempotencyKey, .id]
  rw [idempotencyKey, hfirst]
  cases chosen fields <;> rfl

/-- A record with an object for its body is passed on under one key. -/
theorem passesKey_iff (hbody : bodyOf py recordBody = .ok (.obj fields)) {key : String} :
    PassesKey py sha256 recordBody key ↔ key = (chosen fields).key py sha256 recordBody := by
  have hhandler : recordHandler py sha256 recordBody =
      .call (.processPayload (.obj (Fields.put "idempotency_key"
        (.str ((chosen fields).key py sha256 recordBody)) fields))) .ofExcept := by
    unfold recordHandler
    rw [bodyOf] at hbody
    rw [hbody]
    simp only [ofExcept_ok, ret_bind, idempotencyKey_eq, setItem]
  constructor
  · rintro ⟨payload, k, hcall, hkey⟩
    rw [hhandler] at hcall
    injection hcall with hop
    injection hop with hpayload
    rw [← hpayload] at hkey
    have hfield := Fields.lookup_put_self.symm.trans hkey
    injection hfield with hfield
    injection hfield with hfield
    exact hfield.symm
  · rintro rfl
    exact ⟨_, _, hhandler, Fields.lookup_put_self⟩

theorem passes_bodyKey (hbody : bodyOf py recordBody = .ok (.obj fields)) :
    PassesKey py sha256 recordBody ((chosen fields).key py sha256 recordBody) :=
  (passesKey_iff hbody).mpr rfl

/-! ## Redeliveries of one business key -/

/-- The body is an object that has the value, in some order of its fields, in the
    given field and no field that comes before this one. -/
def Carries (py : Python) (field : KeyField) (value : Json) (recordBody : String) : Prop :=
  ∃ fields own, bodyOf py recordBody = .ok (.obj fields) ∧
    fields.lookup field.name = some own ∧ value.Reordered own ∧
    (field = .id → fields.lookup KeyField.idempotencyKey.name = none)

/-- Every two records that carry the value are passed on under one key. -/
def SharesKey (py : Python) (sha256 : Sha256) (field : KeyField) (value : Json) : Prop :=
  ∀ recordBody recordBody', Carries py field value recordBody → Carries py field value recordBody' →
    ∃ key, PassesKey py sha256 recordBody key ∧ PassesKey py sha256 recordBody' key

/-- The module `json` writes a text for the document that it reads back. -/
def RoundTrips (py : Python) (doc : Json) : Prop :=
  py.dumps doc ≠ "" ∧ py.loads (py.dumps doc) = .ok doc

variable {field : KeyField} {value own : Json}

theorem chosen_of_truthy (hlookup : fields.lookup field.name = some own)
    (hbefore : field = .id → fields.lookup KeyField.idempotencyKey.name = none)
    (htruthy : own.truthy = true) : chosen fields = .field field own := by
  cases field with
  | idempotencyKey =>
      simp only [chosen, chosenOf, hlookup, Option.getD_some, htruthy, if_true]
  | id =>
      simp only [chosen, chosenOf, hbefore rfl, hlookup, Option.getD_none, Option.getD_some,
        Json.truthy_null, htruthy, if_true, Bool.false_eq_true, if_false]

theorem sharesKey_of_rigid (htruthy : value.truthy = true) (hrigid : value.rigid = true) :
    SharesKey py sha256 field value := by
  have hpasses {recordBody : String} (h : Carries py field value recordBody) :
      PassesKey py sha256 recordBody (py.str value) := by
    obtain ⟨fields, own, hbody, hlookup, hsame, hbefore⟩ := h
    rw [hsame.eq_of_rigid hrigid] at hlookup
    have hkey : PassesKey py sha256 recordBody _ := passes_bodyKey hbody
    rw [chosen_of_truthy hlookup hbefore htruthy] at hkey
    exact hkey
  intro recordBody recordBody' h h'
  exact ⟨py.str value, hpasses h, hpasses h'⟩

/-- A body that has the business key alone. -/
def bare (field : KeyField) (value : Json) : Json := .obj [(field.name, value)]

/-- A body that has data besides the business key. -/
def withData (field : KeyField) (value : Json) : Json :=
  .obj [(field.name, value), ("data", .null)]

theorem bodyOf_dumps {doc : Json} (h : RoundTrips py doc) : bodyOf py (py.dumps doc) = .ok doc := by
  rw [bodyOf, if_pos h.1, h.2]

theorem carries_dumps {rest : List (String × Json)} (hsame : value.Reordered own)
    (hrest : rest.lookup KeyField.idempotencyKey.name = none)
    (h : RoundTrips py (.obj ((field.name, own) :: rest))) :
    Carries py field value (py.dumps (.obj ((field.name, own) :: rest))) := by
  refine ⟨_, own, bodyOf_dumps h, List.lookup_cons_self, hsame, ?_⟩
  rintro rfl
  exact hrest

theorem chosen_of_falsy {rest : List (String × Json)} (hfalsy : value.truthy = false)
    (hrest : ∀ other : KeyField, rest.lookup other.name = none) :
    chosen ((field.name, value) :: rest) = .rawBody := by
  have hlookup : ∀ other : KeyField,
      ((((field.name, value) :: rest).lookup other.name).getD .null).truthy = false := by
    intro other
    rw [List.lookup_cons]
    split
    · exact hfalsy
    · rw [hrest]
      rfl
  simp only [chosen, chosenOf, hlookup, Bool.false_eq_true, if_false]

/-- A business key that counts as false gives way to the digest of the whole body. -/
theorem not_sharesKey_of_falsy (hfalsy : value.truthy = false)
    (hbare : RoundTrips py (bare field value)) (hdata : RoundTrips py (withData field value))
    (hsha : sha256 (encode (py.dumps (bare field value))) =
        sha256 (encode (py.dumps (withData field value))) →
      py.dumps (bare field value) = py.dumps (withData field value)) :
    ¬ SharesKey py sha256 field value := by
  intro hshares
  have hnone : ∀ other : KeyField, [("data", Json.null)].lookup other.name = none := by
    intro other
    cases other <;> rfl
  obtain ⟨key, hkey, hkey'⟩ :=
    hshares _ _ (carries_dumps .refl rfl hbare) (carries_dumps .refl rfl hdata)
  have hdigest := (passesKey_iff (bodyOf_dumps hbare)).mp hkey
  have hdigest' := (passesKey_iff (bodyOf_dumps hdata)).mp hkey'
  rw [chosen_of_falsy hfalsy fun _ => rfl] at hdigest
  rw [chosen_of_falsy hfalsy hnone] at hdigest'
  have htexts := hsha (hdigest.symm.trans hdigest')
  have hdocs : bare field value = withData field value := by
    have hread := hbare.2
    rw [htexts, hdata.2] at hread
    injection hread with hread
    exact hread.symm
  simp [bare, withData] at hdocs

/-- Written in another order, the business key is printed in another order too. -/
theorem not_sharesKey_of_reordered (htruthy : value.truthy = true) (hsame : value.Reordered own)
    (hstr : py.str value ≠ py.str own) (hbare : RoundTrips py (bare field value))
    (hother : RoundTrips py (bare field own)) : ¬ SharesKey py sha256 field value := by
  intro hshares
  obtain ⟨key, hkey, hkey'⟩ := hshares _ _ (carries_dumps .refl rfl hbare) (carries_dumps hsame rfl hother)
  have hprinted := (passesKey_iff (bodyOf_dumps hbare)).mp hkey
  have hprinted' := (passesKey_iff (bodyOf_dumps hother)).mp hkey'
  have hbefore (v : Json) : field = .id →
      [(field.name, v)].lookup KeyField.idempotencyKey.name = none := by
    rintro rfl
    rfl
  rw [chosen_of_truthy List.lookup_cons_self (hbefore value) htruthy] at hprinted
  rw [chosen_of_truthy List.lookup_cons_self (hbefore own) (hsame.truthy_eq ▸ htruthy)] at hprinted'
  exact hstr (hprinted.symm.trans hprinted')

/-- The records that carry a business key are passed on under one key if and only if
    it counts as true and leaves no choice in the order of its fields. -/
theorem sharesKey_iff (hnames : value.NamesApart)
    (hstr : ∀ own, value.Reordered own → py.str value = py.str own → own = value)
    (hjson : ∀ own, value.Reordered own →
      RoundTrips py (bare field own) ∧ RoundTrips py (withData field own))
    (hsha : sha256 (encode (py.dumps (bare field value))) =
        sha256 (encode (py.dumps (withData field value))) →
      py.dumps (bare field value) = py.dumps (withData field value)) :
    SharesKey py sha256 field value ↔ value.truthy = true ∧ value.rigid = true := by
  constructor
  · intro hshares
    have hvalue := hjson value .refl
    have htruthy : value.truthy = true := by
      by_contra hfalsy
      rw [Bool.not_eq_true] at hfalsy
      exact not_sharesKey_of_falsy hfalsy hvalue.1 hvalue.2 hsha hshares
    refine ⟨htruthy, ?_⟩
    by_contra hrigid
    rw [Bool.not_eq_true] at hrigid
    obtain ⟨own, hsame, hne⟩ := Json.exists_reordered value hnames hrigid
    have hprints : py.str value ≠ py.str own := fun heq => hne (hstr own hsame heq)
    exact not_sharesKey_of_reordered htruthy hsame hprints hvalue.1 (hjson own hsame).1 hshares
  · rintro ⟨htruthy, hrigid⟩
    exact sharesKey_of_rigid htruthy hrigid

def zero : Json := .num (.int 0)

/-- Some documents, and the SHA-256 of their texts. -/
def samples : List (Json × String) := [
  (bare .idempotencyKey (.str "a"),
    "417263e1343c8926d892952fe7c781c84ebbd185da6a16fe12d64fd8be1c3c90"),
  (withData .idempotencyKey (.str "a"),
    "0b61b12532d7e5d2ff2c7e430f83eeab67d17b332557929a31a96fd0dac61167"),
  (bare .idempotencyKey zero,
    "314855e7a3834482aba193f2356038347e86d2129af6adcaf867d0b0a5ca59cb"),
  (withData .idempotencyKey zero,
    "34380a4e21960370c21f8780de6228bd61e877a0873b7534cc776e68e4fb46e6"),
  (bare .id (.str "a"),
    "6f580d13632c968264547f9795770f8a9fd34f50448d2699bf273f29780f35a4")]

/-- A `json.loads` that reads the texts of the sample documents. -/
def sampleReader : Python :=
  { Python.sample with
    loads := fun body =>
      match samples.find? fun known => text known.1 == body with
      | some known => .ok known.1
      | none => .error ⟨"JSONDecodeError", ["json.JSONDecodeError", "ValueError", "Exception"], ""⟩
    loads_error := by
      intro body e h
      split at h
      · cases h
      · injection h with h
        exact h ▸ rfl }

/-- Data that are not in the table are taken to be empty. -/
def sampleDigest : Sha256 := fun data =>
  match samples.find? fun known => encode (text known.1) == data with
  | some known => known.2
  | none => "e3b0c44298fc1c149afbf4c8996fb92427ae41e4649b934ca495991b7852b855"

theorem roundTrips_sample : ∀ value ∈ [Json.str "a", zero],
    RoundTrips sampleReader (bare .idempotencyKey value) ∧
      RoundTrips sampleReader (withData .idempotencyKey value) := by
  unfold RoundTrips
  decide

/-- A text for a business key. -/
theorem sharesKey_iff_text : SharesKey sampleReader sampleDigest .idempotencyKey (.str "a") := by
  have hnames : (Json.str "a").NamesApart := by simp only [Json.NamesApart]
  refine (sharesKey_iff hnames ?_ ?_ ?_).mpr ⟨by decide, rfl⟩
  · exact fun own hsame _ => hsame.eq_of_rigid rfl
  · intro own hsame
    rw [hsame.eq_of_rigid rfl]
    exact roundTrips_sample (.str "a") (by simp)
  · decide

/-- Under the business key 0, other data make another key. -/
theorem sharesKey_counterexample : ¬ SharesKey sampleReader sampleDigest .idempotencyKey zero := by
  have htrips := roundTrips_sample zero (by simp)
  exact not_sharesKey_of_falsy rfl htrips.1 htrips.2 (by decide)

/-! ## Distinct messages -/

namespace Source

/-- The sources are different ones, or one field with different values. -/
def Apart : Source → Source → Prop
  | .field field value, .field field' value' => field ≠ field' ∨ ¬ value.Reordered value'
  | .rawBody, .rawBody => False
  | .field _ _, .rawBody | .rawBody, .field _ _ => True

/-- The digests are not among the business keys. -/
def NoDigest (py : Python) (sha256 : Sha256) (source : Source) : Prop :=
  ∀ value ∈ source.value, ∀ text, sha256 (encode text) ≠ py.str value

end Source

def IsText (value : Json) : Prop := ∃ s, value = .str s

/-- The one value is the text that `str` makes of the other. -/
def PrintedAs (py : Python) (value text : Json) : Prop :=
  ¬ IsText value ∧ text = .str (py.str value)

/-- Both keys are business keys, and these are one value in two fields, or a value and
    the text it is printed as. -/
def Source.Clash (py : Python) : Source → Source → Prop
  | .field field value, .field field' value' =>
    (field ≠ field' ∧ value = value') ∨ PrintedAs py value value' ∨ PrintedAs py value' value
  | _, _ => False

/-- Two records whose keys come from sources apart are passed on under two keys. -/
def DistinctKeys (py : Python) (sha256 : Sha256) (recordBody recordBody' : String) : Prop :=
  ∀ fields fields', bodyOf py recordBody = .ok (.obj fields) →
    bodyOf py recordBody' = .ok (.obj fields') → (chosen fields).Apart (chosen fields') →
    ∃ key key', PassesKey py sha256 recordBody key ∧ PassesKey py sha256 recordBody' key' ∧
      key ≠ key'

theorem distinctKeys_iff_key (hbody : bodyOf py recordBody = .ok (.obj fields))
    (hbody' : bodyOf py recordBody' = .ok (.obj fields')) :
    DistinctKeys py sha256 recordBody recordBody' ↔
      ((chosen fields).Apart (chosen fields') →
        (chosen fields).key py sha256 recordBody ≠ (chosen fields').key py sha256 recordBody') := by
  constructor
  · intro hdistinct hapart
    obtain ⟨key, key', hkey, hkey', hne⟩ := hdistinct fields fields' hbody hbody' hapart
    rw [(passesKey_iff hbody).mp hkey, (passesKey_iff hbody').mp hkey'] at hne
    exact hne
  · intro hkeys own own' hown hown' hapart
    rw [hbody] at hown
    rw [hbody'] at hown'
    injection hown with hown
    injection hown with hown
    injection hown' with hown'
    injection hown' with hown'
    subst hown hown'
    exact ⟨_, _, passes_bodyKey hbody, passes_bodyKey hbody', hkeys hapart⟩

variable {source source' : Source}

theorem PrintedAs.not_reordered {value text : Json} (h : PrintedAs py value text) :
    ¬ value.Reordered text := by
  obtain ⟨hvalue, rfl⟩ := h
  intro hsame
  exact hvalue ⟨_, hsame.symm.eq_of_rigid rfl⟩

theorem Source.Clash.apart (h : source.Clash py source') : source.Apart source' := by
  cases source with
  | rawBody => exact h.elim
  | field field value =>
      cases source' with
      | rawBody => exact h.elim
      | field field' value' =>
          rcases h with ⟨hfields, _⟩ | hprinted | hprinted
          · exact .inl hfields
          · exact .inr hprinted.not_reordered
          · exact .inr fun hsame => hprinted.not_reordered hsame.symm

theorem Source.Clash.key_eq (hstring : ∀ s, py.str (.str s) = s) (h : source.Clash py source') :
    source.key py sha256 recordBody = source'.key py sha256 recordBody' := by
  cases source with
  | rawBody => exact h.elim
  | field field value =>
      cases source' with
      | rawBody => exact h.elim
      | field field' value' =>
          rcases h with ⟨_, rfl⟩ | ⟨_, rfl⟩ | ⟨_, rfl⟩
          · rfl
          · exact (hstring _).symm
          · exact hstring _

/-- Two values print alike only if they are one, or one of them is the text. -/
theorem printed_cases {value value' : Json} (hstring : ∀ s, py.str (.str s) = s)
    (hprints : ¬ IsText value → ¬ IsText value' → py.str value = py.str value' → value = value')
    (heq : py.str value = py.str value') :
    value = value' ∨ PrintedAs py value value' ∨ PrintedAs py value' value := by
  by_cases htext : IsText value
  · obtain ⟨s, rfl⟩ := htext
    rw [hstring] at heq
    by_cases htext' : IsText value'
    · obtain ⟨s', rfl⟩ := htext'
      rw [hstring] at heq
      exact .inl (by rw [heq])
    · exact .inr (.inr ⟨htext', by rw [heq]⟩)
  · by_cases htext' : IsText value'
    · obtain ⟨s', rfl⟩ := htext'
      rw [hstring] at heq
      exact .inr (.inl ⟨htext, by rw [heq]⟩)
    · exact .inl (hprints htext htext' heq)

theorem Source.key_ne (hstring : ∀ s, py.str (.str s) = s)
    (hprints : ∀ value ∈ source.value, ∀ value' ∈ source'.value,
      ¬ IsText value → ¬ IsText value' → py.str value = py.str value' → value = value')
    (hdigest : source.NoDigest py sha256) (hdigest' : source'.NoDigest py sha256)
    (hapart : source.Apart source') (hclash : ¬ source.Clash py source') :
    source.key py sha256 recordBody ≠ source'.key py sha256 recordBody' := by
  intro heq
  cases source with
  | rawBody =>
      cases source' with
      | rawBody => exact hapart
      | field field' value' => exact hdigest' value' rfl recordBody heq
  | field field value =>
      cases source' with
      | rawBody => exact hdigest value rfl recordBody' heq.symm
      | field field' value' =>
          rcases printed_cases hstring (hprints value rfl value' rfl) heq with rfl | hprinted
          · rcases hapart with hfields | hne
            · exact hclash (.inl ⟨hfields, rfl⟩)
            · exact hne .refl
          · exact hclash (.inr hprinted)

/-- Records with sources apart are passed on under two keys if and only if their
    business keys do not clash. -/
theorem distinctKeys_iff (hbody : bodyOf py recordBody = .ok (.obj fields))
    (hbody' : bodyOf py recordBody' = .ok (.obj fields'))
    (hstring : ∀ s, py.str (.str s) = s)
    (hprints : ∀ value ∈ (chosen fields).value, ∀ value' ∈ (chosen fields').value,
      ¬ IsText value → ¬ IsText value' → py.str value = py.str value' → value = value')
    (hdigest : (chosen fields).NoDigest py sha256)
    (hdigest' : (chosen fields').NoDigest py sha256) :
    DistinctKeys py sha256 recordBody recordBody' ↔ ¬ (chosen fields).Clash py (chosen fields') := by
  rw [distinctKeys_iff_key hbody hbody']
  constructor
  · intro hkeys hclash
    exact hkeys hclash.apart (hclash.key_eq hstring)
  · intro hclash hapart
    exact Source.key_ne hstring hprints hdigest hdigest' hapart hclash

theorem sampleDigest_length (data : Bytes) : (sampleDigest data).length = 64 := by
  have hsamples : ∀ known ∈ samples, known.2.length = 64 := by decide
  unfold sampleDigest
  split
  · next known hknown => exact hsamples known (List.mem_of_find?_eq_some hknown)
  · decide

theorem noDigest_text : (Source.field .idempotencyKey (.str "a")).NoDigest sampleReader sampleDigest := by
  intro value hvalue data heq
  injection hvalue with hvalue
  have hlength := sampleDigest_length (encode data)
  rw [heq, ← hvalue] at hlength
  revert hlength
  decide

theorem bodyOf_text : bodyOf sampleReader (text (bare .idempotencyKey (.str "a"))) =
    .ok (.obj [("idempotency_key", .str "a")]) := by
  decide

/-- A business key and a body whose key counts as false. -/
theorem distinctKeys_iff_text : DistinctKeys sampleReader sampleDigest
    (text (bare .idempotencyKey (.str "a"))) (text (bare .idempotencyKey zero)) := by
  have hbody : bodyOf sampleReader (text (bare .idempotencyKey zero)) =
      .ok (.obj [("idempotency_key", zero)]) := by decide
  exact (distinctKeys_iff bodyOf_text hbody (fun _ => rfl) (fun _ _ _ h => nomatch h)
    noDigest_text nofun).mpr id

/-- One text in the two fields. -/
theorem distinctKeys_counterexample : ¬ DistinctKeys sampleReader sampleDigest
    (text (bare .idempotencyKey (.str "a"))) (text (bare .id (.str "a"))) := by
  have hbody : bodyOf sampleReader (text (bare .id (.str "a"))) = .ok (.obj [("id", .str "a")]) := by
    decide
  rw [distinctKeys_iff_key bodyOf_text hbody]
  intro hkeys
  exact hkeys (.inl nofun) rfl

end IdempotentProcessor
