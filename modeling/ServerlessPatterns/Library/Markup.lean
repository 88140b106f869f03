-- SUMMARY: What a reader finds in an HTML page, and that escaped values do not change its tags.
import ServerlessPatterns.Library.Hyperlinks

/-!
# Markup

A page is text, tags, and the values of the attributes in the tags. Where text or the value
of an attribute stands, escaped values can be filled in: a reader finds them there as they
are, and goes on as if nothing had been there.
-/

namespace Markup

open Python Hyperlinks

/-! ## Reading a page -/

/-- Where in a page a reader is. -/
inductive Mode where
  | text
  | tag
  /-- In the value of an attribute, which this quotation mark ends. -/
  | value (quotation : Char)
  deriving DecidableEq

def Mode.next : Mode → Char → Mode
  | .text, c => if c = '<' then .tag else .text
  | .tag, c => if c = '>' then .text else if c = '\'' ∨ c = '"' then .value c else .tag
  | .value quotation, c => if c = quotation then .tag else .value quotation

def Mode.after (mode : Mode) (page : List Char) : Mode := page.foldl Mode.next mode

/-- What is found in a page. A value ends with its quotation mark. -/
@[ext] structure Reading where
  text : List Char
  values : List Char
  tags : List Char
  deriving DecidableEq

namespace Reading

def nothing : Reading := ⟨[], [], []⟩

def append (r s : Reading) : Reading := ⟨r.text ++ s.text, r.values ++ s.values, r.tags ++ s.tags⟩

instance : Append Reading := ⟨append⟩

@[simp] theorem append_text {r s : Reading} : (r ++ s).text = r.text ++ s.text := rfl
@[simp] theorem append_values {r s : Reading} : (r ++ s).values = r.values ++ s.values := rfl
@[simp] theorem append_tags {r s : Reading} : (r ++ s).tags = r.tags ++ s.tags := rfl

theorem append_assoc {r s t : Reading} : r ++ s ++ t = r ++ (s ++ t) := by
  ext1 <;> simp [List.append_assoc]

/-- A reading written as strings. -/
def ofStrings (text values tags : String) : Reading := ⟨text.toList, values.toList, tags.toList⟩

theorem ofStrings_append {text values tags text' values' tags' : String} :
    ofStrings text values tags ++ ofStrings text' values' tags' =
      ofStrings (text ++ text') (values ++ values') (tags ++ tags') := by
  simp only [ofStrings, String.toList_append]
  rfl

/-- What a browser shows: text and values with their character references resolved. -/
def unescaped (r : Reading) : Reading := ⟨unescapeFrom 0 r.text, unescapeFrom 0 r.values, r.tags⟩

end Reading

/-- Where characters belong that are read here and do not end anything. -/
def Mode.holds (mode : Mode) (chars : List Char) : Reading :=
  match mode with
  | .text => ⟨chars, [], []⟩
  | .tag => ⟨[], [], chars⟩
  | .value _ => ⟨[], chars, []⟩

/-- The `<` of a tag belongs to the tag. -/
def Mode.read (mode : Mode) (c : Char) : Reading :=
  if mode = .text ∧ c = '<' then ⟨[], [], [c]⟩ else mode.holds [c]

def read : Mode → List Char → Reading
  | _, [] => .nothing
  | mode, c :: rest => mode.read c ++ read (mode.next c) rest

variable {mode : Mode} {page rest chars : List Char} {s : String}

theorem read_append : read mode (page ++ rest) = read mode page ++ read (mode.after page) rest := by
  induction page generalizing mode with
  | nil => rfl
  | cons c page ih =>
      rw [List.cons_append, read, ih, read, Reading.append_assoc]
      rfl

theorem holds_append : mode.holds (page ++ rest) = mode.holds page ++ mode.holds rest := by
  cases mode <;> rfl

/-! ## Escaped text -/

/-- Characters that end neither a text nor a value. -/
def Inert (chars : List Char) : Prop := ∀ c ∈ chars, c ∉ ['<', '>', '"', '\'']

theorem inert_htmlEscape : Inert (htmlEscape s).toList := fun _ hc hspecial =>
  not_mem_htmlEscape hspecial hc

/-- Where a value of any kind can stand. A value may have either quotation mark. -/
def Mode.IsOpen (mode : Mode) : Prop := mode ∈ [.text, .value '\'', .value '"']

instance : DecidablePred Mode.IsOpen := fun mode =>
  inferInstanceAs (Decidable (mode ∈ [.text, .value '\'', .value '"']))

theorem open_text : Mode.IsOpen .text := by decide

theorem next_inert {c : Char} (hopen : mode.IsOpen) (hc : c ∉ ['<', '>', '"', '\'']) :
    mode.next c = mode ∧ mode.read c = mode.holds [c] := by
  simp only [List.mem_cons, List.not_mem_nil, or_false, not_or] at hc
  obtain ⟨hlt, _, hquotation, hapostrophe⟩ := hc
  simp only [Mode.IsOpen, List.mem_cons, List.not_mem_nil, or_false] at hopen
  rcases hopen with rfl | rfl | rfl
  · exact ⟨if_neg hlt, if_neg fun h => hlt h.2⟩
  · exact ⟨if_neg hapostrophe, if_neg nofun⟩
  · exact ⟨if_neg hquotation, if_neg nofun⟩

/-- A reader stays where the inert characters are. -/
theorem read_inert (hopen : mode.IsOpen) (hinert : Inert chars) :
    mode.after chars = mode ∧ read mode chars = mode.holds chars := by
  induction chars with
  | nil => exact ⟨rfl, by cases mode <;> rfl⟩
  | cons c chars ih =>
      obtain ⟨hnext, hread⟩ := next_inert hopen (hinert c List.mem_cons_self)
      obtain ⟨hafter, hrest⟩ := ih fun d hd => hinert d (List.mem_cons_of_mem _ hd)
      constructor
      · change Mode.after (mode.next c) chars = mode
        rw [hnext, hafter]
      · rw [read, hread, hnext, hrest, ← holds_append, List.singleton_append]

theorem unescapeFrom_plain (h : '&' ∉ page) :
    unescapeFrom 0 (page ++ rest) = page ++ unescapeFrom 0 rest := by
  induction page with
  | nil => rfl
  | cons c page ih =>
      have hc : c ≠ '&' := fun heq => h (heq ▸ List.mem_cons_self)
      rw [List.cons_append, unescapeFrom_cons hc, ih fun hmem => h (List.mem_cons_of_mem _ hmem),
        List.cons_append]

theorem unescapeFrom_htmlEscape :
    unescapeFrom 0 ((htmlEscape s).toList ++ rest) = s.toList ++ unescapeFrom 0 rest := by
  rw [toList_htmlEscape]
  induction s.toList with
  | nil => rfl
  | cons c chars ih =>
      rw [List.flatMap_cons, List.append_assoc, unescapeFrom_escapeChar, ih, List.cons_append]

/-! ## Pages with values filled in -/

/-- A piece of a page without character references, and what is found in it. -/
def Passes (mode : Mode) (code : List Char) (mode' : Mode) (r : Reading) : Prop :=
  mode.after code = mode' ∧ read mode code = r ∧ '&' ∉ r.text ∧ '&' ∉ r.values

instance {mode' : Mode} {r : Reading} : Decidable (Passes mode page mode' r) :=
  inferInstanceAs (Decidable (_ ∧ _ ∧ _ ∧ _))

/-- The rest of a page behind such a piece. The strings are compared by their characters. -/
theorem found_markup {code inText inValues inTags : List Char} (mode' : Mode)
    (text values tags : String) (htext : String.ofList inText = text) (hvalues : String.ofList inValues = values)
    (htags : String.ofList inTags = tags) (hcode : Passes mode code mode' ⟨inText, inValues, inTags⟩) :
    (read mode ((String.ofList code).toList ++ rest)).unescaped =
      .ofStrings text values tags ++ (read mode' rest).unescaped := by
  subst htext hvalues htags
  simp only [Reading.ofStrings, String.toList_ofList]
  obtain ⟨rfl, hread, hplain⟩ := hcode
  rw [read_append, hread]
  exact Reading.ext (unescapeFrom_plain hplain.1) (unescapeFrom_plain hplain.2) rfl

/-- The end of a page. -/
theorem found_last {code inText inValues inTags : List Char} (mode' : Mode)
    (text values tags : String) (htext : String.ofList inText = text) (hvalues : String.ofList inValues = values)
    (htags : String.ofList inTags = tags) (hcode : Passes mode code mode' ⟨inText, inValues, inTags⟩) :
    (read mode (String.ofList code).toList).unescaped = .ofStrings text values tags := by
  have hall : (read mode ((String.ofList code).toList ++ [])).unescaped =
      .ofStrings text values tags ++ (read mode' []).unescaped :=
    found_markup mode' text values tags htext hvalues htags hcode
  rw [List.append_nil] at hall
  rw [hall]
  exact Reading.ext (List.append_nil _) (List.append_nil _) (List.append_nil _)

/-- A value is found as it is, and the rest of the page as if nothing had been there. -/
theorem found_text : (read .text ((htmlEscape s).toList ++ rest)).unescaped =
    .ofStrings s "" "" ++ (read .text rest).unescaped := by
  obtain ⟨hafter, hread⟩ := read_inert open_text (inert_htmlEscape (s := s))
  rw [read_append, hafter, hread]
  exact Reading.ext unescapeFrom_htmlEscape rfl rfl

theorem found_value {quotation : Char} (hopen : Mode.IsOpen (.value quotation)) :
    (read (.value quotation) ((htmlEscape s).toList ++ rest)).unescaped =
      .ofStrings "" s "" ++ (read (.value quotation) rest).unescaped := by
  obtain ⟨hafter, hread⟩ := read_inert hopen (inert_htmlEscape (s := s))
  rw [read_append, hafter, hread]
  exact Reading.ext rfl unescapeFrom_htmlEscape rfl

end Markup
