-- SUMMARY: What the client of the document store can send and what it reads back: every number comes back as a decimal of the same value.
import ServerlessPatterns.Library.DocumentStore

/-!
# Serialization

The client sends every number but a `float`, and reads every number as a `Decimal`. So a
document comes back with the values it was sent with, though not with their types.
-/

namespace Number

/-- The number as the client reads it. -/
def deserialized (n : Number) : Number :=
  match n.exact with
  | some x => .decimal x
  | none => n

def SameValue (a b : Number) : Prop := a = b ∨ ∃ x, a.exact = some x ∧ b.exact = some x

theorem sameValue_deserialized {n : Number} : n.deserialized.SameValue n := by
  unfold deserialized
  cases hexact : n.exact with
  | some x => exact .inr ⟨x, rfl, hexact⟩
  | none => exact .inl rfl

end Number

namespace Json

mutual
/-- The document as the client reads it. -/
def deserialized : Json → Json
  | .num n => .num n.deserialized
  | .arr items => .arr (deserializedItems items)
  | .obj fields => .obj (deserializedFields fields)
  | v => v

def deserializedItems : List Json → List Json
  | [] => []
  | item :: rest => item.deserialized :: deserializedItems rest

def deserializedFields : List (String × Json) → List (String × Json)
  | [] => []
  | (key, value) :: rest => (key, value.deserialized) :: deserializedFields rest
end

mutual
/-- Equal, with numbers compared by value. -/
def SameValue : Json → Json → Prop
  | .num a, .num b => a.SameValue b
  | .arr xs, .arr ys => SameItems xs ys
  | .obj xs, .obj ys => SameFields xs ys
  | v, w => v = w

def SameItems : List Json → List Json → Prop
  | x :: xs, y :: ys => SameValue x y ∧ SameItems xs ys
  | xs, ys => xs = ys

def SameFields : List (String × Json) → List (String × Json) → Prop
  | (k, x) :: xs, (l, y) :: ys => k = l ∧ SameValue x y ∧ SameFields xs ys
  | xs, ys => xs = ys
end

mutual
theorem sameValue_deserialized : (v : Json) → v.deserialized.SameValue v
  | .null | .bool _ | .str _ => rfl
  | .num _ => Number.sameValue_deserialized
  | .arr items => sameItems_deserialized items
  | .obj fields => sameFields_deserialized fields

theorem sameItems_deserialized : (items : List Json) → SameItems (deserializedItems items) items
  | [] => rfl
  | item :: rest => ⟨sameValue_deserialized item, sameItems_deserialized rest⟩

theorem sameFields_deserialized : (fields : List (String × Json)) →
    SameFields (deserializedFields fields) fields
  | [] => rfl
  | (_, value) :: rest => ⟨rfl, sameValue_deserialized value, sameFields_deserialized rest⟩
end

theorem lookup_deserializedFields {key : String} {fields : List (String × Json)} :
    (deserializedFields fields).lookup key = (fields.lookup key).map deserialized := by
  induction fields with
  | nil => rfl
  | cons field rest ih =>
      obtain ⟨k, v⟩ := field
      rw [deserializedFields, List.lookup_cons, List.lookup_cons, ih]
      cases key == k <;> rfl

theorem field_deserialized {key : String} {v : Json} :
    v.deserialized.field key = (v.field key).map deserialized := by
  cases v with
  | obj fields => exact lookup_deserializedFields
  | _ => rfl

end Json

namespace Table

/-- A `get` of a store over the table, as the client reads what it answers, finds the value
    under an attribute of the record. -/
def ReadsBack (get : Json → Table → Except Exc (Option Json)) (key : String) (value id : Json)
    (table : Table) : Prop :=
  ∃ record kept, get id table = .ok (some record) ∧ record.deserialized.field key = some kept ∧
    kept.SameValue value

theorem readsBack_write {get : Json → Table → Except Exc (Option Json)} {key k : String}
    {value item : Json} {table : Table} (hget : ∀ t, get (.str k) t = .ok (t k))
    (hitem : item.field key = some value) :
    ReadsBack get key value (.str k) (table.write k item) := by
  refine ⟨item, value.deserialized, ?_, ?_, value.sameValue_deserialized⟩
  · rw [hget, write_self]
  · rw [Json.field_deserialized, hitem, Option.map_some]

end Table
