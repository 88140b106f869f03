-- SUMMARY: The `application/x-www-form-urlencoded` format: what is written into a field is read back from it.
import ServerlessPatterns.Library.Hyperlinks

/-!
# Forms

A form is a query in which a space is written as a `+`. A text that is encoded before it
is written into a field cannot end the field or begin another one.
-/

namespace Forms

open Python Hyperlinks

/-! ## Encoded text -/

/-- The bytes that stand for themselves in a form. -/
def isPlain (b : UInt8) : Bool :=
  let n := b.toNat
  (48 ≤ n && n ≤ 57) || (65 ≤ n && n ≤ 90) || (97 ≤ n && n ≤ 122) ||
    n == 42 || n == 45 || n == 46 || n == 95

def formByte (b : UInt8) : List Char :=
  if b = 32 then ['+']
  else if isPlain b then [Char.ofNat b.toNat]
  else ['%', hexDigit (b.toNat / 16), hexDigit (b.toNat % 16)]

/-- Encode a text for a field of a form. -/
def urlEncode (s : String) : String := String.ofList ((encode s).flatMap formByte)

theorem toList_urlEncode {s : String} : (urlEncode s).toList = (encode s).flatMap formByte := by
  rw [urlEncode, String.toList_ofList]

theorem isPlain_lt {b : UInt8} (h : isPlain b = true) : b.toNat < 128 := by
  simp only [isPlain, Bool.or_eq_true, Bool.and_eq_true, decide_eq_true_eq, beq_iff_eq] at h
  omega

/-- A plain byte is no `%` and no `+`, and separates nothing. -/
theorem isPlain_apart {b : UInt8} (h : isPlain b = true) :
    Char.ofNat b.toNat ∉ ['%', '+', '&', '='] := by
  have hlt := isPlain_lt h
  simp only [isPlain, Bool.or_eq_true, Bool.and_eq_true, decide_eq_true_eq, beq_iff_eq] at h
  have hne : ∀ c : Char, c.toNat ∉ [37, 43, 38, 61] ∨ Char.ofNat b.toNat ≠ c := by
    intro c
    by_cases heq : Char.ofNat b.toNat = c
    · left
      rw [← heq, toNat_ofNat hlt]
      simp only [List.mem_cons, List.not_mem_nil, or_false]
      omega
    · exact .inr heq
  intro hmem
  simp only [List.mem_cons, List.not_mem_nil, or_false] at hmem
  rcases hmem with heq | heq | heq | heq <;> exact (hne _).elim (fun h => h (by decide)) (fun h => h heq)

theorem percentDecode_formByte {b : UInt8} {rest : List Char} :
    percentDecode true (formByte b ++ rest) = b :: percentDecode true rest := by
  have hlt : b.toNat < 256 := b.toNat_lt
  unfold formByte
  by_cases hspace : b = 32
  · rw [if_pos hspace, List.singleton_append, percentDecode_cons (by decide), hspace]
    rfl
  by_cases hplain : isPlain b = true
  · have hapart := isPlain_apart hplain
    have hpercent : Char.ofNat b.toNat ≠ '%' := fun heq => hapart (heq ▸ List.mem_cons_self)
    have hplus : Char.ofNat b.toNat ≠ '+' := fun heq => hapart (by rw [heq]; decide)
    rw [if_neg hspace, if_pos hplain, List.singleton_append, percentDecode_cons hpercent, literal,
      if_neg (fun h => hplus h.2), utf8EncodeChar_ofNat (isPlain_lt hplain), List.singleton_append]
  · have hhigh := (hexDigit_spec (b.toNat / 16) (List.mem_range.mpr (by omega))).1
    have hlow := (hexDigit_spec (b.toNat % 16) (List.mem_range.mpr (by omega))).1
    have hvalue : 16 * (b.toNat / 16) + b.toNat % 16 = b.toNat := Nat.div_add_mod ..
    rw [if_neg hspace, if_neg hplain]
    simp only [List.cons_append, List.nil_append, percentDecode, if_true, hhigh, hlow, hvalue,
      UInt8.ofNat_toNat]

theorem percentDecode_formBytes {bytes : Bytes} :
    percentDecode true (bytes.flatMap formByte) = bytes := by
  induction bytes with
  | nil => rfl
  | cons b bytes ih => rw [List.flatMap_cons, percentDecode_formByte, ih]

/-- Reading an encoded text gives the text. -/
theorem unquote_urlEncode {s : String} : unquote true (urlEncode s).toList = some s := by
  rw [unquote, toList_urlEncode, percentDecode_formBytes, decodeUtf8_encode]

theorem mem_formByte {b : UInt8} {c : Char} (h : c ∈ formByte b) : c ≠ '&' ∧ c ≠ '=' := by
  have hlt : b.toNat < 256 := b.toNat_lt
  have hdigit : ∀ n ∈ List.range 16, hexDigit n ≠ '&' ∧ hexDigit n ≠ '=' := by decide
  unfold formByte at h
  split at h
  · rw [List.mem_singleton.mp h]
    decide
  · split at h
    · have hapart := isPlain_apart ‹isPlain b = true›
      rw [List.mem_singleton.mp h]
      exact ⟨fun heq => hapart (by rw [heq]; decide), fun heq => hapart (by rw [heq]; decide)⟩
    · simp only [List.mem_cons, List.not_mem_nil, or_false] at h
      rcases h with rfl | rfl | rfl
      · decide
      · exact hdigit _ (List.mem_range.mpr (by omega))
      · exact hdigit _ (List.mem_range.mpr (by omega))

theorem mem_urlEncode {s : String} {c : Char} (h : c ∈ (urlEncode s).toList) : c ≠ '&' ∧ c ≠ '=' := by
  rw [toList_urlEncode, List.mem_flatMap] at h
  obtain ⟨b, _, hc⟩ := h
  exact mem_formByte hc

/-! ## Plain text -/

/-- Text that stands in a form as it is. -/
def Plain (chars : List Char) : Prop := ∀ c ∈ chars, c ∉ ['%', '+', '&', '=']

instance {chars : List Char} : Decidable (Plain chars) := List.decidableBAll _ chars

theorem percentDecode_plain {chars : List Char} (h : Plain chars) :
    percentDecode true chars = chars.flatMap String.utf8EncodeChar := by
  induction chars with
  | nil => rfl
  | cons c chars ih =>
      have hpercent : c ≠ '%' := fun heq => h c List.mem_cons_self (heq ▸ List.mem_cons_self)
      have hplus : c ≠ '+' := fun heq => h c List.mem_cons_self (by rw [heq]; decide)
      rw [percentDecode_cons hpercent, literal, if_neg (fun h => hplus h.2), List.flatMap_cons,
        ih fun d hd => h d (List.mem_cons_of_mem _ hd)]

theorem unquote_plain {s : String} (h : Plain s.toList) : unquote true s.toList = some s := by
  rw [unquote, percentDecode_plain h]
  exact decodeUtf8_encode

/-! ## Fields -/

/-- The text is one field of a form, which is read as this name and value. -/
structure Field (text : List Char) (name value : String) : Prop where
  whole : '&' ∉ text
  read : parseParameter true text = some (name, value)

/-- A plain name in front of a text that is read as the value. -/
theorem field_of_unquote {name value : String} {text : List Char} (hname : Plain name.toList)
    (hwhole : '&' ∉ text) (hread : unquote true text = some value) :
    Field (name.toList ++ '=' :: text) name value := by
  have hequals : ∀ c ∈ name.toList, decide (c ≠ '=') = true := by
    intro c hc
    rw [decide_eq_true_eq]
    rintro rfl
    exact hname _ hc (by decide)
  constructor
  · intro hmem
    rcases List.mem_append.mp hmem with hmem | hmem
    · exact hname _ hmem (by decide)
    · exact (List.mem_cons.mp hmem).elim (by decide) hwhole
  · rw [parseParameter, List.takeWhile_append_of_pos hequals, List.takeWhile_cons_of_neg (by decide),
      List.append_nil, unquote_plain hname, List.dropWhile_append_of_pos hequals,
      List.dropWhile_cons_of_neg (by decide), List.drop_one, List.tail_cons, hread]
    rfl

/-- Any text can be the value of a field, once it is encoded. -/
theorem field_urlEncode {name value : String} (hname : Plain name.toList) :
    Field (name.toList ++ '=' :: (urlEncode value).toList) name value :=
  field_of_unquote hname (fun hmem => (mem_urlEncode hmem).1 rfl) unquote_urlEncode

theorem field_plain {name value : String} (hname : Plain name.toList) (hvalue : Plain value.toList) :
    Field (name.toList ++ '=' :: value.toList) name value :=
  field_of_unquote hname (fun hmem => hvalue _ hmem (by decide)) (unquote_plain hvalue)

/-- A form is read as its fields, in their order. -/
theorem parseQuery_fields {texts : List (List Char)} {fields : List (String × String)}
    (h : List.Forall₂ (fun text field => Field text field.1 field.2) texts fields) (hne : texts ≠ []) :
    parseQuery true (['&'].intercalate texts) = some fields := by
  have hwhole : ∀ text ∈ texts, '&' ∉ text := by
    intro text hmem
    induction h with
    | nil => cases hmem
    | cons hfield _ ih =>
        rcases List.mem_cons.mp hmem with rfl | hrest
        · exact hfield.whole
        · exact ih (List.ne_nil_of_mem hrest) hrest
  rw [parseQuery, List.splitOn_intercalate _ hwhole hne]
  clear hwhole hne
  induction h with
  | nil => rfl
  | cons hfield _ ih =>
      rw [List.mapM_cons, hfield.read, ih]
      rfl

end Forms
