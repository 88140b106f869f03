-- SUMMARY: JSON documents as Python and the AWS services see them: equality, truthiness, and reading and writing along field paths.
import Mathlib.Data.Rat.Defs

/-!
# JSON documents

One type serves for the values a Python handler computes with, the state data
that Step Functions carries between states, and the attribute values of a
DynamoDB item. Numbers keep the Python type they were read with, since the
services do not treat an `int`, a `float` and a `Decimal` alike.
-/

/-- A Python `float`: its exact value when it is finite. -/
inductive PyFloat where
  | finite (x : ℚ)
  | infinite (positive : Bool)
  | nan
  deriving DecidableEq

namespace PyFloat

/-- `x <= 0`, which is false of a NaN. -/
def nonpos : PyFloat → Bool
  | finite x => decide (x ≤ 0)
  | infinite positive => !positive
  | nan => false

/-- `bool(x)`: only the zeros are false. -/
def truthy : PyFloat → Bool
  | finite x => decide (x ≠ 0)
  | infinite _ => true
  | nan => true

end PyFloat

/-- A number together with the Python type that holds it. -/
inductive Number where
  | int (n : Int)
  | float (x : PyFloat)
  | decimal (x : ℚ)
  deriving DecidableEq

inductive Json where
  | null
  | bool (b : Bool)
  | num (n : Number)
  | str (s : String)
  | arr (items : List Json)
  | obj (fields : List (String × Json))

/-! ## Fields of an object -/

namespace Fields

variable {α : Type}

/-- Write one field, in place when the object already has it. -/
def put (key : String) (value : α) : List (String × α) → List (String × α)
  | [] => [(key, value)]
  | (k, v) :: rest => if k = key then (key, value) :: rest else (k, v) :: put key value rest

@[simp] theorem lookup_put_self {key : String} {value : α} {fields : List (String × α)} :
    (put key value fields).lookup key = some value := by
  induction fields with
  | nil => simp [put]
  | cons field rest ih =>
      obtain ⟨k, v⟩ := field
      by_cases h : k = key
      · simp [put, h]
      · have hne : (key == k) = false := by simpa using Ne.symm h
        simp [put, h, List.lookup_cons, hne, ih]

theorem lookup_put_ne {key key' : String} {value : α} {fields : List (String × α)}
    (h : key' ≠ key) : (put key value fields).lookup key' = fields.lookup key' := by
  induction fields with
  | nil =>
      have hne : (key' == key) = false := by simpa using h
      simp [put, List.lookup_cons, hne]
  | cons field rest ih =>
      obtain ⟨k, v⟩ := field
      by_cases hk : k = key
      · subst hk
        have hne : (key' == k) = false := by simpa using h
        simp [put, List.lookup_cons, hne]
      · by_cases hk' : key' = k
        · simp [put, hk, hk']
        · have hne : (key' == k) = false := by simpa using hk'
          simp [put, hk, List.lookup_cons, hne, ih]

/-- Writing what is already there changes nothing. -/
theorem put_lookup {key : String} {value : α} {fields : List (String × α)}
    (h : fields.lookup key = some value) : put key value fields = fields := by
  induction fields with
  | nil => simp at h
  | cons field rest ih =>
      obtain ⟨k, v⟩ := field
      by_cases hk : k = key
      · subst hk
        rw [List.lookup_cons_self, Option.some.injEq] at h
        rw [put, if_pos rfl, h]
      · have hne : (key == k) = false := by simpa using Ne.symm hk
        rw [List.lookup_cons, hne] at h
        rw [put, if_neg hk, ih h]

/-- Change the value of one field where it is. -/
def adjust (key : String) (f : α → α) (fields : List (String × α)) : List (String × α) :=
  fields.map fun field => (field.1, if field.1 = key then f field.2 else field.2)

theorem adjust_cons {key k : String} {f : α → α} {v : α} {rest : List (String × α)} :
    adjust key f ((k, v) :: rest) = (k, if k = key then f v else v) :: adjust key f rest := rfl

theorem adjust_put_self {key : String} {f : α → α} {value : α} {fields : List (String × α)} :
    adjust key f (put key value fields) = put key (f value) (adjust key f fields) := by
  induction fields with
  | nil => simp [adjust, put]
  | cons field rest ih =>
      obtain ⟨k, v⟩ := field
      by_cases hk : k = key
      · simp [adjust_cons, put, hk]
      · simp only [put, if_neg hk, adjust_cons, ih]

theorem adjust_put_ne {key key' : String} {f : α → α} {value : α} {fields : List (String × α)}
    (h : key' ≠ key) : adjust key f (put key' value fields) = put key' value (adjust key f fields) := by
  induction fields with
  | nil => simp [adjust, put, h]
  | cons field rest ih =>
      obtain ⟨k, v⟩ := field
      by_cases hk : k = key'
      · simp [adjust_cons, put, hk, h]
      · simp only [put, if_neg hk, adjust_cons, ih]

theorem lookup_adjust_self {key : String} {f : α → α} {fields : List (String × α)} :
    (adjust key f fields).lookup key = (fields.lookup key).map f := by
  induction fields with
  | nil => rfl
  | cons field rest ih =>
      obtain ⟨k, v⟩ := field
      by_cases hk : k = key
      · simp [adjust_cons, hk]
      · have hne : (key == k) = false := by simpa using Ne.symm hk
        rw [adjust_cons, List.lookup_cons, List.lookup_cons, hne]
        exact ih

theorem lookup_adjust_ne {key key' : String} {f : α → α} {fields : List (String × α)}
    (h : key' ≠ key) : (adjust key f fields).lookup key' = fields.lookup key' := by
  induction fields with
  | nil => rfl
  | cons field rest ih =>
      obtain ⟨k, v⟩ := field
      by_cases hk : key' = k
      · subst hk
        simp [adjust_cons, h]
      · have hne : (key' == k) = false := by simpa using hk
        rw [adjust_cons, List.lookup_cons, List.lookup_cons, hne]
        exact ih

end Fields

namespace Json

/-! ## Equality -/

mutual
/-- Decide whether two documents are the same. -/
def decEq : (a b : Json) → Decidable (a = b)
  | .null, .null => isTrue rfl
  | .bool a, .bool b => decidable_of_iff (a = b) (by simp)
  | .num a, .num b => decidable_of_iff (a = b) (by simp)
  | .str a, .str b => decidable_of_iff (a = b) (by simp)
  | .arr xs, .arr ys =>
    match decEqItems xs ys with
    | isTrue h => isTrue (by rw [h])
    | isFalse h => isFalse (by simpa using h)
  | .obj xs, .obj ys =>
    match decEqFields xs ys with
    | isTrue h => isTrue (by rw [h])
    | isFalse h => isFalse (by simpa using h)
  | .null, .bool _ | .null, .num _ | .null, .str _ | .null, .arr _ | .null, .obj _
  | .bool _, .null | .bool _, .num _ | .bool _, .str _ | .bool _, .arr _ | .bool _, .obj _
  | .num _, .null | .num _, .bool _ | .num _, .str _ | .num _, .arr _ | .num _, .obj _
  | .str _, .null | .str _, .bool _ | .str _, .num _ | .str _, .arr _ | .str _, .obj _
  | .arr _, .null | .arr _, .bool _ | .arr _, .num _ | .arr _, .str _ | .arr _, .obj _
  | .obj _, .null | .obj _, .bool _ | .obj _, .num _ | .obj _, .str _ | .obj _, .arr _ =>
    isFalse (by simp)

def decEqItems : (xs ys : List Json) → Decidable (xs = ys)
  | [], [] => isTrue rfl
  | x :: xs, y :: ys =>
    match decEq x y, decEqItems xs ys with
    | isTrue hx, isTrue hxs => isTrue (by rw [hx, hxs])
    | isFalse hx, _ => isFalse (by simp [hx])
    | _, isFalse hxs => isFalse (by simp [hxs])
  | [], _ :: _ | _ :: _, [] => isFalse (by simp)

def decEqFields : (xs ys : List (String × Json)) → Decidable (xs = ys)
  | [], [] => isTrue rfl
  | (k, x) :: xs, (l, y) :: ys =>
    if hk : k = l then
      match decEq x y, decEqFields xs ys with
      | isTrue hx, isTrue hxs => isTrue (by rw [hk, hx, hxs])
      | isFalse hx, _ => isFalse (by simp [hx])
      | _, isFalse hxs => isFalse (by simp [hxs])
    else isFalse (by simp [hk])
  | [], _ :: _ | _ :: _, [] => isFalse (by simp)
end

instance : DecidableEq Json := decEq

/-- `bool(value)`. -/
def truthy : Json → Bool
  | null => false
  | bool b => b
  | num (.int n) => decide (n ≠ 0)
  | num (.float x) => x.truthy
  | num (.decimal x) => decide (x ≠ 0)
  | str s => decide (s ≠ "")
  | arr items => !items.isEmpty
  | obj fields => !fields.isEmpty

/-- `value or fallback`. -/
def orElse (value fallback : Json) : Json :=
  if value.truthy then value else fallback

@[simp] theorem truthy_null : truthy null = false := rfl

@[simp] theorem truthy_str {s : String} : truthy (str s) = true ↔ s ≠ "" := by
  simp [truthy]

@[simp] theorem orElse_null {fallback : Json} : orElse null fallback = fallback := rfl

theorem orElse_of_truthy {value fallback : Json} (h : value.truthy = true) :
    orElse value fallback = value := by
  simp [orElse, h]

/-- `value or {}` of an object, which is falsy only when it is empty. -/
theorem orElse_obj {fields : List (String × Json)} : orElse (obj fields) (obj []) = obj fields := by
  cases fields <;> rfl

/-- The field of an object; a document of another kind has none. -/
def field (key : String) : Json → Option Json
  | obj fields => fields.lookup key
  | _ => none

@[simp] theorem field_obj {key : String} {fields : List (String × Json)} :
    field key (obj fields) = fields.lookup key := rfl

/-- An id that is used as it was given: one that is falsy is made up anew. -/
theorem given_str {key : String} {fields : List (String × Json)}
    (hstr : ∀ v, fields.lookup key = some v → v.truthy = true → ∃ s, v = str s)
    (htruthy : ((fields.lookup key).getD null).truthy = true) :
    ∃ s, s ≠ "" ∧ (fields.lookup key).getD null = str s := by
  cases hlookup : fields.lookup key with
  | none =>
      rw [hlookup] at htruthy
      cases htruthy
  | some v =>
      rw [hlookup, Option.getD_some] at htruthy
      obtain ⟨s, rfl⟩ := hstr v hlookup htruthy
      exact ⟨s, truthy_str.mp htruthy, rfl⟩

/-! ## Field paths -/

/-- A path of field names: `$.results.order` is `["results", "order"]`, and the
    whole document `$` is `[]`. -/
abbrev Path := List String

/-- Read the document at a path. -/
def get : Path → Json → Option Json
  | [], doc => some doc
  | key :: rest, doc => (doc.field key).bind (get rest)

/-- Write a value at a path, creating the objects on the way that are missing.
    Fails when something that is no object stands on the way. -/
def put : Path → (doc value : Json) → Option Json
  | [], _, value => some value
  | key :: rest, obj fields, value =>
    (put rest ((fields.lookup key).getD (obj [])) value).map
      fun child => obj (Fields.put key child fields)
  | _ :: _, _, _ => none

/-- Write a value at a path whose parent has to be there already. -/
def set : Path → (doc value : Json) → Option Json
  | [], _, value => some value
  | [key], obj fields, value => some (obj (Fields.put key value fields))
  | key :: rest, obj fields, value =>
    ((fields.lookup key).bind fun child => set rest child value).map
      fun child => obj (Fields.put key child fields)
  | _ :: _, _, _ => none

/-- Neither path is a prefix of the other, so that writing at one does not
    touch what is at the other. -/
def Path.Apart : Path → Path → Prop
  | key :: rest, key' :: rest' => key ≠ key' ∨ (key = key' ∧ Path.Apart rest rest')
  | _, _ => False

instance Path.decidableApart : (p q : Path) → Decidable (p.Apart q)
  | [], _ => isFalse (by simp [Path.Apart])
  | _ :: _, [] => isFalse (by simp [Path.Apart])
  | key :: rest, key' :: rest' =>
    have := Path.decidableApart rest rest'
    decidable_of_iff (key ≠ key' ∨ (key = key' ∧ Path.Apart rest rest')) (by simp [Path.Apart])

@[simp] theorem get_nil {doc : Json} : doc.get [] = some doc := rfl

@[simp] theorem get_cons {key : String} {rest : Path} {doc : Json} :
    doc.get (key :: rest) = (doc.field key).bind (get rest) := rfl

theorem get_single {key : String} {doc : Json} : doc.get [key] = doc.field key := by
  rw [get_cons]
  cases doc.field key <;> rfl

/-- What was written at a path is read back from it. -/
theorem get_put {path : Path} {value doc doc' : Json} (h : doc.put path value = some doc') :
    doc'.get path = some value := by
  induction path generalizing doc doc' with
  | nil => simpa [put] using h.symm
  | cons key rest ih =>
      cases doc with
      | obj fields =>
          simp only [put, Option.map_eq_some_iff] at h
          obtain ⟨child, hchild, rfl⟩ := h
          simpa using ih hchild
      | _ => simp [put] at h

/-- A path apart from the one written reads as before. -/
theorem get_put_apart {path other : Path} {value doc doc' : Json}
    (h : doc.put path value = some doc') (hapart : path.Apart other) :
    doc'.get other = doc.get other := by
  induction path generalizing other doc doc' with
  | nil => simp [Path.Apart] at hapart
  | cons key rest ih =>
      cases other with
      | nil => simp [Path.Apart] at hapart
      | cons key' rest' =>
          cases doc with
          | obj fields =>
              simp only [put, Option.map_eq_some_iff] at h
              obtain ⟨child, hchild, rfl⟩ := h
              rcases hapart with hne | ⟨rfl, hrest⟩
              · simp [Fields.lookup_put_ne (Ne.symm hne)]
              · have hread := ih hchild hrest
                cases hfield : fields.lookup key with
                | some old => simpa [hfield] using hread
                | none =>
                    have hempty : (obj []).get rest' = none := by
                      cases rest' with
                      | nil => cases rest <;> simp [Path.Apart] at hrest
                      | cons _ _ => simp [field]
                    simpa [hfield, hempty] using hread
          | _ => simp [put] at h

theorem put_single (key : String) (value : Json) (fields : List (String × Json)) :
    (obj fields).put [key] value = some (obj (Fields.put key value fields)) := rfl

/-- What has something below it is an object. -/
theorem field_of_get {key key' : String} {rest : Path} {doc value : Json}
    (h : doc.get (key :: key' :: rest) = some value) : ∃ fields, doc.field key = some (obj fields) := by
  obtain ⟨child, hchild, hget⟩ := Option.bind_eq_some_iff.mp h
  cases child with
  | obj fields => exact ⟨fields, hchild⟩
  | _ => simp [field] at hget

/-- A two-step path can be written when its parent is absent or an object. -/
theorem put_pair (key key' : String) (value : Json) {fields : List (String × Json)}
    (h : ∀ parent, fields.lookup key = some parent → ∃ inner, parent = obj inner) :
    ∃ doc', (obj fields).put [key, key'] value = some doc' := by
  cases hfield : fields.lookup key with
  | none => exact ⟨_, by simp [put, hfield]; rfl⟩
  | some parent =>
      obtain ⟨inner, rfl⟩ := h parent hfield
      exact ⟨_, by simp [put, hfield]; rfl⟩

/-- A write that needs its parent is a write that would have created it. -/
theorem put_of_set {path : Path} {value doc doc' : Json} (h : doc.set path value = some doc') :
    doc.put path value = some doc' := by
  induction path generalizing doc doc' with
  | nil => simpa [set, put] using h
  | cons key rest ih =>
      cases doc with
      | obj fields =>
          cases rest with
          | nil => simpa [set, put] using h
          | cons key' rest' =>
              simp only [set, Option.map_eq_some_iff, Option.bind_eq_some_iff] at h
              obtain ⟨child, ⟨old, hold, hset⟩, rfl⟩ := h
              simp [put, hold, ih hset]
      | _ => cases rest <;> simp [set] at h

theorem get_set {path : Path} {value doc doc' : Json} (h : doc.set path value = some doc') :
    doc'.get path = some value :=
  get_put (put_of_set h)

theorem get_set_apart {path other : Path} {value doc doc' : Json}
    (h : doc.set path value = some doc') (hapart : path.Apart other) :
    doc'.get other = doc.get other :=
  get_put_apart (put_of_set h) hapart

end Json
