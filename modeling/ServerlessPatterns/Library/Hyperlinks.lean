-- SUMMARY: What a browser and a web server make of a link: percent-encoding, query strings, character references and `href` attributes.
import Mathlib.Data.Bool.AllAny
import ServerlessPatterns.Library.Python

/-!
# Hyperlinks

Text goes into a URL percent-encoded, byte by byte of its UTF-8 form, and a URL goes into
an HTML attribute with its special characters escaped. Here are the two ways back, and
that they lead back.
-/

namespace Hyperlinks

open Python

/-! ## Percent-encoding -/

/-- How `quote` writes one byte. -/
def quoteByte (b : UInt8) : List Char :=
  if isUrlSafe b then [Char.ofNat b.toNat]
  else ['%', hexDigit (b.toNat / 16), hexDigit (b.toNat % 16)]

theorem toList_quote {s : String} : (quote s).toList = (encode s).flatMap quoteByte := by
  rw [quote, String.toList_ofList]
  rfl

/-- The value of a hexadecimal digit. -/
def hexValue (c : Char) : Option Nat :=
  if 48 ≤ c.toNat ∧ c.toNat ≤ 57 then some (c.toNat - 48)
  else if 65 ≤ c.toNat ∧ c.toNat ≤ 70 then some (c.toNat - 55)
  else if 97 ≤ c.toNat ∧ c.toNat ≤ 102 then some (c.toNat - 87)
  else none

/-- A character that is not part of an encoded byte. A `+` may stand for a space. -/
def literal (plusIsSpace : Bool) (c : Char) : Bytes :=
  if plusIsSpace ∧ c = '+' then [32] else String.utf8EncodeChar c

/-- The bytes that percent-encoded text stands for; a `%` without two digits stands for
    itself. -/
def percentDecode (plusIsSpace : Bool) : List Char → Bytes
  | [] => []
  | [c] => literal plusIsSpace c
  | [c, d] => literal plusIsSpace c ++ literal plusIsSpace d
  | c :: high :: low :: rest =>
    if c = '%' then
      match hexValue high, hexValue low with
      | some x, some y => UInt8.ofNat (16 * x + y) :: percentDecode plusIsSpace rest
      | _, _ => literal plusIsSpace c ++ percentDecode plusIsSpace (high :: low :: rest)
    else literal plusIsSpace c ++ percentDecode plusIsSpace (high :: low :: rest)

/-- `bytes.decode("utf-8")`, which not all bytes are. -/
def decodeUtf8 (bytes : Bytes) : Option String :=
  bytes.toByteArray.utf8Decode?.map fun chars => String.ofList chars.toList

theorem decodeUtf8_encode {s : String} : decodeUtf8 (encode s) = some s := by
  have hdecode : (encode s).toByteArray.utf8Decode? = some s.toList.toArray :=
    List.utf8Decode?_utf8Encode
  rw [decodeUtf8, hdecode, Option.map_some, List.toList_toArray, String.ofList_toList]

/-- Read percent-encoded UTF-8. -/
def unquote (plusIsSpace : Bool) (chars : List Char) : Option String :=
  decodeUtf8 (percentDecode plusIsSpace chars)

/-! ### The characters of quoted text -/

/-- The characters that quoted text is made of. -/
def IsQuoted (c : Char) : Prop :=
  c = '%' ∨ (c.toNat < 128 ∧ isUrlSafe (UInt8.ofNat c.toNat) = true)

instance {c : Char} : Decidable (IsQuoted c) :=
  inferInstanceAs (Decidable (_ ∨ _ ∧ _))

theorem isUrlSafe_lt {b : UInt8} (h : isUrlSafe b = true) : b.toNat < 128 := by
  simp only [isUrlSafe, Bool.or_eq_true, Bool.and_eq_true, decide_eq_true_eq, beq_iff_eq] at h
  omega

theorem toNat_ofNat {n : Nat} (h : n < 128) : (Char.ofNat n).toNat = n := by
  have hvalid : n.isValidChar := .inl (by omega)
  rw [Char.ofNat, dif_pos hvalid]
  rfl

theorem hexDigit_spec : ∀ n ∈ List.range 16,
    hexValue (hexDigit n) = some n ∧ IsQuoted (hexDigit n) := by
  decide

theorem isQuoted_ofNat {b : UInt8} (h : isUrlSafe b = true) : IsQuoted (Char.ofNat b.toNat) := by
  have hlt := isUrlSafe_lt h
  right
  rw [toNat_ofNat hlt, UInt8.ofNat_toNat]
  exact ⟨hlt, h⟩

theorem mem_quoteByte {b : UInt8} {c : Char} (h : c ∈ quoteByte b) : IsQuoted c := by
  have hlt : b.toNat < 256 := b.toNat_lt
  unfold quoteByte at h
  split at h
  · rw [List.mem_singleton.mp h]
    exact isQuoted_ofNat ‹_›
  · simp only [List.mem_cons, List.not_mem_nil, or_false] at h
    rcases h with rfl | rfl | rfl
    · exact .inl rfl
    · exact (hexDigit_spec _ (List.mem_range.mpr (by omega))).2
    · exact (hexDigit_spec _ (List.mem_range.mpr (by omega))).2

theorem mem_quote {s : String} {c : Char} (h : c ∈ (quote s).toList) : IsQuoted c := by
  rw [toList_quote, List.mem_flatMap] at h
  obtain ⟨b, _, hc⟩ := h
  exact mem_quoteByte hc

/-- Neither a separator nor a quotation mark. -/
theorem IsQuoted.apart {c : Char} (h : IsQuoted c) : c ∉ ['&', '=', '?', '#', '+', '"', '\''] := by
  have hnone : ∀ d ∈ ['&', '=', '?', '#', '+', '"', '\''], ¬ IsQuoted d :=
    List.all_iff_forall_prop.mp (by decide)
  exact fun hmem => hnone c hmem h

theorem IsQuoted.not_isSpace {c : Char} (h : IsQuoted c) : isSpace c = false := by
  rcases h with rfl | ⟨hlt, hsafe⟩
  · decide
  · have hbyte : (UInt8.ofNat c.toNat).toNat = c.toNat := by
      rw [UInt8.toNat_ofNat']
      omega
    rw [isUrlSafe, hbyte] at hsafe
    simp only [Bool.or_eq_true, Bool.and_eq_true, decide_eq_true_eq, beq_iff_eq] at hsafe
    simp only [isSpace, Bool.or_eq_false_iff, Bool.and_eq_false_iff, decide_eq_false_iff_not,
      beq_eq_false_iff_ne]
    omega

/-! ### The way back -/

theorem percentDecode_cons {plusIsSpace : Bool} {c : Char} {rest : List Char} (hne : c ≠ '%') :
    percentDecode plusIsSpace (c :: rest) =
      literal plusIsSpace c ++ percentDecode plusIsSpace rest := by
  match rest with
  | [] => simp [percentDecode]
  | [d] => rfl
  | high :: low :: rest => rw [percentDecode, if_neg hne]

theorem utf8EncodeChar_ofNat {b : UInt8} (h : b.toNat < 128) :
    String.utf8EncodeChar (Char.ofNat b.toNat) = [b] := by
  have hval : (Char.ofNat b.toNat).val.toNat = b.toNat := toNat_ofNat h
  rw [String.utf8EncodeChar]
  simp only [hval]
  rw [if_pos (by omega), UInt8.ofNat_toNat]

theorem percentDecode_quoteByte {plusIsSpace : Bool} {b : UInt8} {rest : List Char} :
    percentDecode plusIsSpace (quoteByte b ++ rest) = b :: percentDecode plusIsSpace rest := by
  have hlt : b.toNat < 256 := b.toNat_lt
  unfold quoteByte
  split
  · have hquoted := isQuoted_ofNat ‹isUrlSafe b = true›
    have hplus : Char.ofNat b.toNat ≠ '+' := fun heq => hquoted.apart (by rw [heq]; decide)
    have hpercent : Char.ofNat b.toNat ≠ '%' := by
      intro heq
      have hnat := congrArg Char.toNat heq
      rw [toNat_ofNat (isUrlSafe_lt ‹_›)] at hnat
      have hsafe := ‹isUrlSafe b = true›
      rw [isUrlSafe, hnat] at hsafe
      exact absurd hsafe (by decide)
    rw [List.singleton_append, percentDecode_cons hpercent, literal, if_neg (fun h => hplus h.2),
      utf8EncodeChar_ofNat (isUrlSafe_lt ‹_›), List.singleton_append]
  · have hhigh := (hexDigit_spec (b.toNat / 16) (List.mem_range.mpr (by omega))).1
    have hlow := (hexDigit_spec (b.toNat % 16) (List.mem_range.mpr (by omega))).1
    simp only [List.cons_append, List.nil_append, percentDecode, if_true, hhigh, hlow]
    rw [show 16 * (b.toNat / 16) + b.toNat % 16 = b.toNat by omega, UInt8.ofNat_toNat]

theorem percentDecode_quoteBytes {plusIsSpace : Bool} {bytes : Bytes} :
    percentDecode plusIsSpace (bytes.flatMap quoteByte) = bytes := by
  induction bytes with
  | nil => rfl
  | cons b bytes ih => rw [List.flatMap_cons, percentDecode_quoteByte, ih]

/-- Reading a quoted text gives the text, whatever a `+` stands for. -/
theorem unquote_quote {plusIsSpace : Bool} {s : String} :
    unquote plusIsSpace (quote s).toList = some s := by
  rw [unquote, toList_quote, percentDecode_quoteBytes, decodeUtf8_encode]

/-! ## Query strings -/

/-- What a URL asks for, between the first `?` and a `#`. -/
def queryOf (url : String) : List Char :=
  ((url.toList.dropWhile (· ≠ '?')).drop 1).takeWhile (· ≠ '#')

/-- The URL before its query. -/
def beforeQuery (url : String) : List Char := url.toList.takeWhile (fun c => c ≠ '?' ∧ c ≠ '#')

/-- A parameter: its name before the first `=` and its value behind it. -/
def parseParameter (plusIsSpace : Bool) (part : List Char) : Option (String × String) := do
  let name ← unquote plusIsSpace (part.takeWhile (· ≠ '='))
  let value ← unquote plusIsSpace ((part.dropWhile (· ≠ '=')).drop 1)
  return (name, value)

/-- The parameters of a query, which are separated by `&`. -/
def parseQuery (plusIsSpace : Bool) (query : List Char) : Option (List (String × String)) :=
  (query.splitOn '&').mapM (parseParameter plusIsSpace)

/-- How a parameter is written. -/
def parameter (name value : String) : List Char :=
  (quote name).toList ++ '=' :: (quote value).toList

theorem not_mem_quote {s : String} {c : Char} (h : c ∈ ['&', '=', '?', '#', '+', '"', '\'']) :
    c ∉ (quote s).toList :=
  fun hmem => (mem_quote hmem).apart h

theorem parseParameter_parameter {plusIsSpace : Bool} {name value : String} :
    parseParameter plusIsSpace (parameter name value) = some (name, value) := by
  have hname : ∀ c ∈ (quote name).toList, decide (c ≠ '=') = true := by
    intro c hc
    rw [decide_eq_true_eq]
    rintro rfl
    exact not_mem_quote (by decide) hc
  have htake : (parameter name value).takeWhile (· ≠ '=') = (quote name).toList := by
    rw [parameter, List.takeWhile_append_of_pos hname, List.takeWhile_cons_of_neg (by decide),
      List.append_nil]
  have hdrop : (parameter name value).dropWhile (· ≠ '=') = '=' :: (quote value).toList := by
    rw [parameter, List.dropWhile_append_of_pos hname, List.dropWhile_cons_of_neg (by decide)]
  rw [parseParameter, htake, hdrop, unquote_quote, List.drop_one, List.tail_cons, unquote_quote]
  rfl

theorem mem_parameter {name value : String} {c : Char} (h : c ∈ parameter name value) :
    c = '=' ∨ IsQuoted c := by
  rcases List.mem_append.mp h with hname | hvalue
  · exact .inr (mem_quote hname)
  · exact (List.mem_cons.mp hvalue).imp_right mem_quote

theorem not_mem_parameter {name value : String} {c : Char} (h : c ∈ ['&', '#']) :
    c ∉ parameter name value := by
  have happart : ∀ d ∈ ['&', '#'], d ≠ '=' ∧ ¬ IsQuoted d :=
    List.all_iff_forall_prop.mp (by decide)
  intro hmem
  rcases mem_parameter hmem with heq | hquoted
  · exact (happart c h).1 heq
  · exact (happart c h).2 hquoted

/-- Two parameters side by side are read as they were written. -/
theorem parseQuery_pair {plusIsSpace : Bool} {name value name' value' : String} :
    parseQuery plusIsSpace (parameter name value ++ '&' :: parameter name' value') =
      some [(name, value), (name', value')] := by
  rw [parseQuery, List.splitOn_append_cons_self_of_not_mem (not_mem_parameter (by decide)),
    List.splitOn_eq_singleton (not_mem_parameter (by decide))]
  simp [parseParameter_parameter]

/-! ## Character references -/

/-- How `htmlEscape` writes one character. -/
def escapeChar (c : Char) : List Char :=
  match c.toNat with
  | 38 => "&amp;".toList
  | 60 => "&lt;".toList
  | 62 => "&gt;".toList
  | 34 => "&quot;".toList
  | 39 => "&#x27;".toList
  | _ => [c]

theorem toList_htmlEscape {s : String} : (htmlEscape s).toList = s.toList.flatMap escapeChar := by
  rw [htmlEscape, String.toList_join, List.flatMap_map]
  congr 1
  funext c
  unfold escapeChar
  split <;> simp_all

/-- The references for the special characters of HTML. -/
def references : List (String × Char) :=
  [("&amp;", '&'), ("&lt;", '<'), ("&gt;", '>'), ("&quot;", '"'), ("&#x27;", '\'')]

/-- Read text whose first characters, as many as given, have been read already. A `&` that
    begins no reference stands for itself. -/
def unescapeFrom : Nat → List Char → List Char
  | _, [] => []
  | read + 1, _ :: rest => unescapeFrom read rest
  | 0, c :: rest =>
    match references.find? fun reference => reference.1.toList.isPrefixOf (c :: rest) with
    | some (name, d) => d :: unescapeFrom (name.length - 1) rest
    | none => c :: unescapeFrom 0 rest

/-- What a text in HTML says. -/
def unescape (text : List Char) : String := String.ofList (unescapeFrom 0 text)

theorem unescapeFrom_cons {c : Char} {rest : List Char} (hne : c ≠ '&') :
    unescapeFrom 0 (c :: rest) = c :: unescapeFrom 0 rest := by
  have hfirst : ('&' == c) = false := beq_eq_false_iff_ne.mpr hne.symm
  simp [unescapeFrom, references, List.isPrefixOf, hfirst]

/-- A character is either written as its reference or as itself, and then it is none of
    the special ones. -/
theorem escapeChar_cases {c : Char} :
    (∃ reference ∈ references, c = reference.2 ∧ escapeChar c = reference.1.toList) ∨
    (c ∉ references.map Prod.snd ∧ escapeChar c = [c]) := by
  have hof : ∀ d : Char, c.toNat = d.toNat → c = d := fun d h => Char.toNat_inj.mp h
  unfold escapeChar
  split
  · exact .inl ⟨("&amp;", '&'), by decide, hof '&' ‹_›, rfl⟩
  · exact .inl ⟨("&lt;", '<'), by decide, hof '<' ‹_›, rfl⟩
  · exact .inl ⟨("&gt;", '>'), by decide, hof '>' ‹_›, rfl⟩
  · exact .inl ⟨("&quot;", '"'), by decide, hof '"' ‹_›, rfl⟩
  · exact .inl ⟨("&#x27;", '\''), by decide, hof '\'' ‹_›, rfl⟩
  · rename_i hamp hlt hgt hquot hapostrophe
    refine .inr ⟨?_, rfl⟩
    intro hmem
    simp only [references, List.map_cons, List.map_nil, List.mem_cons, List.not_mem_nil,
      or_false] at hmem
    rcases hmem with rfl | rfl | rfl | rfl | rfl
    · exact hamp rfl
    · exact hlt rfl
    · exact hgt rfl
    · exact hquot rfl
    · exact hapostrophe rfl

theorem unescapeFrom_reference {rest : List Char} : ∀ reference ∈ references,
    unescapeFrom 0 (reference.1.toList ++ rest) = reference.2 :: unescapeFrom 0 rest := by
  intro reference hmem
  simp only [references, List.mem_cons, List.not_mem_nil, or_false] at hmem
  rcases hmem with rfl | rfl | rfl | rfl | rfl <;> rfl

theorem unescapeFrom_escapeChar {c : Char} {rest : List Char} :
    unescapeFrom 0 (escapeChar c ++ rest) = c :: unescapeFrom 0 rest := by
  rcases escapeChar_cases (c := c) with ⟨reference, hmem, rfl, heq⟩ | ⟨hplain, heq⟩
  · rw [heq, unescapeFrom_reference reference hmem]
  · have hne : c ≠ '&' := by
      rintro rfl
      exact hplain (by decide)
    rw [heq, List.singleton_append, unescapeFrom_cons hne]

/-- Reading an escaped text gives the text. -/
theorem unescape_htmlEscape {s : String} : unescape (htmlEscape s).toList = s := by
  have hchars : ∀ chars : List Char, unescapeFrom 0 (chars.flatMap escapeChar) = chars := by
    intro chars
    induction chars with
    | nil => rfl
    | cons c chars ih => rw [List.flatMap_cons, unescapeFrom_escapeChar, ih]
  rw [unescape, toList_htmlEscape, hchars, String.ofList_toList]

/-- Escaped text has nothing that ends a text or an attribute. -/
theorem not_mem_htmlEscape {s : String} {c : Char} (h : c ∈ ['<', '>', '"', '\'']) :
    c ∉ (htmlEscape s).toList := by
  have hnames : ∀ reference ∈ references,
      (['<', '>', '"', '\''].all fun d => decide (d ∉ reference.1.toList)) = true := by decide
  intro hmem
  rw [toList_htmlEscape, List.mem_flatMap] at hmem
  obtain ⟨d, _, hc⟩ := hmem
  rcases escapeChar_cases (c := d) with ⟨reference, href, _, heq⟩ | ⟨hplain, heq⟩
  · rw [heq] at hc
    exact List.all_iff_forall_prop.mp (hnames reference href) c h hc
  · rw [heq, List.mem_singleton] at hc
    subst hc
    have hspecial : ∀ d ∈ ['<', '>', '"', '\''], d ∈ references.map Prod.snd :=
      List.all_iff_forall_prop.mp (by decide)
    exact hplain (hspecial c h)

/-! ## Links of a page -/

/-- How a link begins. -/
def linkStart : List Char := ['<', 'a', ' ', 'h', 'r', 'e', 'f', '=', '\'']

/-- The values of the `href` attributes of a page, as they stand there. -/
def hrefs : List Char → List (List Char)
  | [] => []
  | c :: rest =>
    if linkStart.isPrefixOf (c :: rest) then
      ((c :: rest).drop linkStart.length).takeWhile (· ≠ '\'') :: hrefs rest
    else hrefs rest

/-- No link begins in the text, whatever comes behind it. -/
def withoutLink : List Char → Bool
  | [] => true
  | ['<'] => false
  | '<' :: 'a' :: _ => false
  | _ :: rest => withoutLink rest

/-- A text without a link adds none. -/
theorem hrefs_append {text rest : List Char} (h : withoutLink text = true) :
    hrefs (text ++ rest) = hrefs rest := by
  fun_induction withoutLink text with
  | case1 => rfl
  | case2 => cases h
  | case3 => cases h
  | case4 c text hlast hlink ih =>
    have hnone : linkStart.isPrefixOf (c :: (text ++ rest)) = false := by
      match text with
      | [] =>
        have hc : ('<' == c) = false := by
          rw [beq_eq_false_iff_ne]
          rintro rfl
          exact hlast rfl rfl
        simp [linkStart, List.isPrefixOf, hc]
      | d :: text =>
        by_cases hc : c = '<'
        · have hd : ('a' == d) = false := by
            rw [beq_eq_false_iff_ne]
            rintro rfl
            exact hlink _ hc rfl
          simp [linkStart, List.isPrefixOf, hd]
        · simp [linkStart, List.isPrefixOf, Ne.symm hc]
    rw [List.cons_append, hrefs, hnone]
    exact ih h

theorem withoutLink_of_not_mem {text : List Char} (h : '<' ∉ text) : withoutLink text = true := by
  induction text with
  | nil => rfl
  | cons c text ih =>
    have hc : c ≠ '<' := fun heq => h (heq ▸ List.mem_cons_self)
    rw [withoutLink]
    · exact ih fun hmem => h (List.mem_cons_of_mem _ hmem)
    · exact fun heq _ => hc heq
    · exact fun _ heq _ => hc heq

theorem withoutLink_htmlEscape {s : String} : withoutLink (htmlEscape s).toList = true :=
  withoutLink_of_not_mem (not_mem_htmlEscape (by decide))

/-- A link to an escaped URL. -/
theorem hrefs_link {url : String} {text rest : List Char} (hquote : text.head? = some '\'')
    (h : withoutLink text = true) :
    hrefs (linkStart ++ ((htmlEscape url).toList ++ (text ++ rest))) =
      (htmlEscape url).toList :: hrefs rest := by
  obtain ⟨after, rfl⟩ := List.head?_eq_some_iff.mp hquote
  have hvalue : ∀ c ∈ (htmlEscape url).toList, decide (c ≠ '\'') = true := by
    intro c hc
    rw [decide_eq_true_eq]
    rintro rfl
    exact not_mem_htmlEscape (by decide) hc
  have hprefix : linkStart.isPrefixOf
      (linkStart ++ ((htmlEscape url).toList ++ ('\'' :: after ++ rest))) := by
    rw [List.isPrefixOf_iff_prefix]
    exact List.prefix_append _ _
  have htail : withoutLink linkStart.tail = true := by decide
  rw [show linkStart = '<' :: linkStart.tail from rfl, List.cons_append, hrefs, ← List.cons_append,
    show '<' :: linkStart.tail = linkStart from rfl, if_pos hprefix, List.drop_left,
    List.takeWhile_append_of_pos hvalue, List.cons_append,
    List.takeWhile_cons_of_neg (by decide), List.append_nil, ← List.cons_append,
    hrefs_append htail, hrefs_append withoutLink_htmlEscape, hrefs_append h]

end Hyperlinks
