-- SUMMARY: The pieces of Python the handlers are written with: exceptions, dictionary access, and conversions between built-in types.
import Mathlib.Data.Rat.Floor
import Mathlib.Tactic.Linarith
import ServerlessPatterns.Library.Json

/-!
# Python values and exceptions

Handlers receive parsed JSON, so the values they work on are `Json` documents.
What the language does with a value of the wrong type is part of the model: a
method missing on it raises, as in the original.
-/

/-- A raised exception. -/
structure Exc where
  /-- `type(exc).__name__`, the name Lambda reports as the error type. -/
  errorType : String
  /-- The classes it is an instance of, by qualified name. -/
  classes : List String
  /-- `str(exc)`. -/
  message : String
  deriving DecidableEq

namespace Exc

/-- `isinstance(exc, cls)`, which is what an `except cls` clause asks. -/
def isInstance (exc : Exc) (cls : String) : Bool :=
  decide (cls ∈ exc.classes)

def builtin (name message : String) : Exc :=
  ⟨name, [name, "Exception"], message⟩

def attributeError (message : String) : Exc := builtin "AttributeError" message
def typeError (message : String) : Exc := builtin "TypeError" message
def valueError (message : String) : Exc := builtin "ValueError" message
def overflowError (message : String) : Exc := ⟨"OverflowError", ["OverflowError", "ArithmeticError", "Exception"], message⟩

/-- `str` of a `KeyError` is the key as `repr` prints it. -/
def keyError (key : String) : Exc :=
  ⟨"KeyError", ["KeyError", "LookupError", "Exception"], "'" ++ key ++ "'"⟩

end Exc

abbrev Bytes := List UInt8

/-- What is left open of Python's standard library: reading numbers from text,
    rounding an `int` or a quotient to the nearest `float`, printing, case mapping,
    and the two directions of the `json` module. -/
structure Python where
  parseInt : String → Option Int
  parseFloat : String → Option PyFloat
  /-- The nearest `float` to an `int`, when there is one in range. -/
  toFloat : Int → Option PyFloat
  /-- `a / b` of two integers, a finite `float` when it is in range. -/
  divide : Int → Int → Except Exc ℚ
  /-- Rounding to the nearest `float` keeps the order. -/
  divide_mono {a a' b : Int} {x y : ℚ} :
    0 < b → a ≤ a' → divide a b = .ok x → divide a' b = .ok y → x ≤ y
  divide_ok {a b : Int} : 0 < b → 0 ≤ a → a ≤ 100 * b → ∃ x, divide a b = .ok x
  divide_zero {b : Int} : 0 < b → divide 0 b = .ok 0
  /-- `Decimal(str(x))` as the DynamoDB serializer accepts it. -/
  toDecimal : PyFloat → Except Exc ℚ
  str : Json → String
  repr : Json → String
  lower : String → String
  dumps : Json → String
  loads : String → Except Exc Json
  /-- `json.loads` raises nothing that `except Exception` would let through. -/
  loads_error {text : String} {e : Exc} :
    loads text = .error e → e.isInstance "Exception" = true

namespace Python

/-- `value.get(key)`: `None` for a missing key, and an error on anything that is
    no dictionary. -/
def get (value : Json) (key : String) : Except Exc Json :=
  match value with
  | .obj fields => .ok ((fields.lookup key).getD .null)
  | _ => .error (.attributeError "object has no attribute 'get'")

/-- `value.get(key, default)`: the default stands in for a missing key only. -/
def getD (value : Json) (key : String) (default : Json) : Except Exc Json :=
  match value with
  | .obj fields => .ok ((fields.lookup key).getD default)
  | _ => .error (.attributeError "object has no attribute 'get'")

@[simp] theorem get_obj {fields : List (String × Json)} {key : String} :
    get (.obj fields) key = .ok ((fields.lookup key).getD .null) := rfl

@[simp] theorem getD_obj {fields : List (String × Json)} {key : String} {default : Json} :
    getD (.obj fields) key default = .ok ((fields.lookup key).getD default) := rfl

/-- `value[key]`: an error also for a missing key. -/
def item (value : Json) (key : String) : Except Exc Json :=
  match value with
  | .obj fields =>
    match fields.lookup key with
    | some found => .ok found
    | none => .error (.keyError key)
  | _ => .error (.typeError "object is not subscriptable by a string")

/-- What a `for` loop over the value goes through. -/
def iter : Json → Except Exc (List Json)
  | .arr items => .ok items
  | .str s => .ok (s.toList.map fun c => .str (String.singleton c))
  | .obj fields => .ok (fields.map fun field => .str field.1)
  | _ => .error (.typeError "object is not iterable")

/-- `json.loads(value)`. -/
def jsonLoads (py : Python) : Json → Except Exc Json
  | .str s => py.loads s
  | _ => .error (.typeError "the JSON object must be str, bytes or bytearray")

/-- `len(value)`. -/
def len : Json → Except Exc Int
  | .str s => .ok s.length
  | .arr items => .ok items.length
  | .obj fields => .ok fields.length
  | _ => .error (.typeError "object has no len()")

/-- `float(value)`. -/
def float (py : Python) : Json → Except Exc PyFloat
  | .num (.int n) =>
    match py.toFloat n with
    | some x => .ok x
    | none => .error (.overflowError "int too large to convert to float")
  | .num (.float x) => .ok x
  | .num (.decimal x) => .ok (.finite x)
  | .bool b => .ok (.finite (if b then 1 else 0))
  | .str s =>
    match py.parseFloat s with
    | some x => .ok x
    | none => .error (.valueError "could not convert string to float")
  | _ => .error (.typeError "float() argument must be a string or a real number")

/-- `int(value)`: a `float` is truncated towards zero. -/
def int (py : Python) : Json → Except Exc Int
  | .num (.int n) => .ok n
  | .num (.float (.finite x)) | .num (.decimal x) => .ok (if 0 ≤ x then ⌊x⌋ else ⌈x⌉)
  | .num (.float (.infinite _)) => .error (.overflowError "cannot convert float infinity to integer")
  | .num (.float .nan) => .error (.valueError "cannot convert float NaN to integer")
  | .bool b => .ok (if b then 1 else 0)
  | .str s =>
    match py.parseInt s with
    | some n => .ok n
    | none => .error (.valueError "invalid literal for int() with base 10")
  | _ => .error (.typeError "int() argument must be a string, a bytes-like object or a real number")

/-- `int` of a finite `float`: truncation towards zero. -/
def truncate (x : ℚ) : Int := if 0 ≤ x then ⌊x⌋ else ⌈x⌉

/-- `round(x)`: the nearest integer, and of two the even one. -/
def roundHalfEven (x : ℚ) : Int :=
  if x - ⌊x⌋ < 1 / 2 then ⌊x⌋
  else if 1 / 2 < x - ⌊x⌋ then ⌊x⌋ + 1
  else if ⌊x⌋ % 2 = 0 then ⌊x⌋ else ⌊x⌋ + 1

theorem roundHalfEven_bounds {x : ℚ} : ⌊x⌋ ≤ roundHalfEven x ∧ roundHalfEven x ≤ ⌊x⌋ + 1 := by
  unfold roundHalfEven
  split_ifs <;> omega

theorem roundHalfEven_mono {x y : ℚ} (h : x ≤ y) : roundHalfEven x ≤ roundHalfEven y := by
  have hfloor : ⌊x⌋ ≤ ⌊y⌋ := Int.floor_le_floor h
  cases lt_or_eq_of_le hfloor with
  | inl hlt =>
      calc roundHalfEven x ≤ ⌊x⌋ + 1 := roundHalfEven_bounds.2
        _ ≤ ⌊y⌋ := hlt
        _ ≤ roundHalfEven y := roundHalfEven_bounds.1
  | inr heq =>
      -- Between the same integers, the larger fraction is rounded down last.
      unfold roundHalfEven
      rw [heq]
      split_ifs <;> first | omega | linarith

/-! ## Strings -/

/-- The characters that `str.strip` takes for whitespace. -/
def isSpace (c : Char) : Bool :=
  let n := c.toNat
  (9 ≤ n && n ≤ 13) || (28 ≤ n && n ≤ 32) || n == 0x85 || n == 0xa0 || n == 0x1680 ||
    (0x2000 ≤ n && n ≤ 0x200a) || n == 0x2028 || n == 0x2029 || n == 0x202f || n == 0x205f ||
    n == 0x3000

/-- `s.strip()`. -/
def strip (s : String) : String :=
  String.ofList ((s.toList.dropWhile isSpace).reverse.dropWhile isSpace).reverse

/-- `s.upper()` of an ASCII string. -/
def upper (s : String) : String := String.ofList (s.toList.map Char.toUpper)

/-- `s.rstrip(c)`. -/
def rstripChar (c : Char) (s : String) : String :=
  String.ofList (s.toList.reverse.dropWhile (· == c)).reverse

/-- `s.split(c)`. -/
def splitChar (c : Char) (s : String) : List String := (s.toList.splitOn c).map String.ofList

/-- `s.endswith(tail)`. -/
def endsWith (s tail : String) : Bool := tail.toList.isSuffixOf s.toList

/-- `s.startswith(head)`. -/
def startsWith (s head : String) : Bool := head.toList.isPrefixOf s.toList

/-- `s[n:]`. -/
def dropFront (n : Nat) (s : String) : String := String.ofList (s.toList.drop n)

/-- `s.encode("utf-8")`. -/
def encode (s : String) : Bytes := s.toList.flatMap String.utf8EncodeChar

/-- `html.escape(s)`, quotes included. -/
def htmlEscape (s : String) : String :=
  String.join (s.toList.map fun c =>
    match c.toNat with
    | 38 => "&amp;"
    | 60 => "&lt;"
    | 62 => "&gt;"
    | 34 => "&quot;"
    | 39 => "&#x27;"
    | _ => String.singleton c)

/-- The bytes that `urllib.parse.quote` leaves as they are. -/
def isUrlSafe (b : UInt8) : Bool :=
  let n := b.toNat
  (48 ≤ n && n ≤ 57) || (65 ≤ n && n ≤ 90) || (97 ≤ n && n ≤ 122) ||
    n == 95 || n == 46 || n == 45 || n == 126 || n == 47

def hexDigit (n : Nat) : Char := if n < 10 then Char.ofNat (48 + n) else Char.ofNat (55 + n)

/-- `quote(s)`: percent-encode the UTF-8 bytes that are not safe in a URL. -/
def quote (s : String) : String :=
  String.ofList ((encode s).flatMap fun b =>
    if isUrlSafe b then [Char.ofNat b.toNat]
    else ['%', hexDigit (b.toNat / 16), hexDigit (b.toNat % 16)])

theorem dropWhile_isSpace {chars : List Char} (h : ∀ c ∈ chars.head?, isSpace c = false) :
    chars.dropWhile isSpace = chars := by
  cases chars with
  | nil => rfl
  | cons c rest => simp [h c rfl]

/-- There is nothing to strip from a string that neither begins nor ends with
    whitespace. -/
theorem strip_eq_self {s : String} (hfirst : ∀ c ∈ s.toList.head?, isSpace c = false)
    (hlast : ∀ c ∈ s.toList.getLast?, isSpace c = false) : strip s = s := by
  have hreverse : s.toList.reverse.dropWhile isSpace = s.toList.reverse := by
    apply dropWhile_isSpace
    rw [List.head?_reverse]
    exact hlast
  unfold strip
  rw [dropWhile_isSpace hfirst, hreverse, List.reverse_reverse, String.ofList_toList]

/-- A stripped string does not begin with whitespace. -/
theorem head?_strip {s : String} : ∀ c ∈ (strip s).toList.head?, isSpace c = false := by
  intro c hc
  have hsuffix : (s.toList.dropWhile isSpace).reverse.dropWhile isSpace <:+
      (s.toList.dropWhile isSpace).reverse := List.dropWhile_suffix isSpace
  have hfront : (strip s).toList <+: s.toList.dropWhile isSpace := by
    unfold strip
    rw [String.toList_ofList, ← List.reverse_suffix, List.reverse_reverse]
    exact hsuffix
  obtain ⟨tail, htail⟩ := hfront
  have hhead : (s.toList.dropWhile isSpace).head? = some c := by
    rw [← htail, List.head?_append, Option.mem_def.mp hc]
    rfl
  have hnot := List.head?_dropWhile_not isSpace s.toList
  rw [hhead] at hnot
  exact hnot

@[simp] theorem startsWith_append {head tail : String} : startsWith (head ++ tail) head = true := by
  simp [startsWith]

theorem startsWith_iff {s head : String} : startsWith s head = true ↔ ∃ rest, s = head ++ rest := by
  constructor
  · intro h
    obtain ⟨tail, htail⟩ := List.isPrefixOf_iff_prefix.mp h
    refine ⟨String.ofList tail, ?_⟩
    rw [← String.ofList_toList (s := s), ← htail, String.ofList_append, String.ofList_toList]
  · rintro ⟨rest, rfl⟩
    exact startsWith_append

@[simp] theorem dropFront_append {head tail : String} :
    dropFront head.length (head ++ tail) = tail := by
  have hlength : head.length = head.toList.length := String.length_toList.symm
  unfold dropFront
  rw [hlength, String.toList_append, List.drop_left, String.ofList_toList]

/-! ## Ordinary exceptions -/

/-- What `except Exception` around the computation catches is all it raises. -/
def Ordinary {α : Type} (x : Except Exc α) : Prop :=
  ∀ e, x = .error e → e.isInstance "Exception" = true

variable {α β : Type}

theorem ordinary_ok {a : α} : Ordinary (.ok a) := nofun

theorem ordinary_error {e : Exc} (h : e.isInstance "Exception" = true) :
    Ordinary (.error e : Except Exc α) := by
  intro e' heq
  injection heq with heq
  exact heq ▸ h

theorem Ordinary.bind {x : Except Exc α} {f : α → Except Exc β} (hx : Ordinary x)
    (hf : ∀ a, Ordinary (f a)) : Ordinary (x >>= f) := by
  cases x with
  | ok a => exact hf a
  | error e => exact ordinary_error (hx e rfl)

theorem ordinary_jsonLoads {py : Python} {value : Json} : Ordinary (py.jsonLoads value) := by
  unfold jsonLoads
  split
  · exact fun e => py.loads_error
  · exact ordinary_error rfl

/-! ## A sample -/

mutual
/-- The text of a document without escapes or fractions. -/
def text : Json → String
  | .null => "null"
  | .bool b => if b then "true" else "false"
  | .num (.int n) => toString n
  | .num _ => "0"
  | .str s => "\"" ++ s ++ "\""
  | .arr items => "[" ++ ", ".intercalate (textItems items) ++ "]"
  | .obj fields => "\x7b" ++ ", ".intercalate (textFields fields) ++ "\x7d"

def textItems : List Json → List String
  | [] => []
  | item :: rest => text item :: textItems rest

def textFields : List (String × Json) → List String
  | [] => []
  | (key, value) :: rest => ("\"" ++ key ++ "\": " ++ text value) :: textFields rest
end

/-- The open parts filled in for small integers and plain ASCII text, to
    evaluate the model on concrete inputs. -/
def sample : Python where
  parseInt _ := none
  parseFloat _ := none
  toFloat n := some (.finite n)
  divide a b := .ok ((a : ℚ) / b)
  divide_mono {a a' b x y} hb ha hx hy := by
    injection hx with hx
    injection hy with hy
    rw [← hx, ← hy]
    have hcast : (a : ℚ) ≤ a' := by exact_mod_cast ha
    have hpos : (0 : ℚ) ≤ b := by exact_mod_cast hb.le
    exact div_le_div_of_nonneg_right hcast hpos
  divide_ok _ _ _ := ⟨_, rfl⟩
  divide_zero _ := by simp
  toDecimal
    | .finite x => .ok x
    | _ => .error (.typeError "Infinity and NaN not supported")
  str
    | .str s => s
    | value => text value
  repr := text
  lower s := String.ofList (s.toList.map Char.toLower)
  dumps := text
  loads text :=
    if text = "\x7b\x7d" then .ok (.obj [])
    else .error ⟨"JSONDecodeError", ["json.JSONDecodeError", "ValueError", "Exception"], "Expecting value"⟩
  loads_error h := by
    split at h
    · cases h
    · injection h with h
      exact h ▸ rfl

end Python
