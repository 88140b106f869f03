-- SUMMARY: JSON documents up to the order in which their objects list the fields.
import Mathlib.Data.List.Nodup
import ServerlessPatterns.Library.Json

/-!
# Order of fields

A JSON object has no order, while a dictionary keeps the one its text was written
in. Two documents that differ in it alone are one JSON value.
-/

namespace Json

/-- The other document lists the fields of some objects in another order. -/
inductive Reordered : Json → Json → Prop where
  | refl {v : Json} : Reordered v v
  | trans {u v w : Json} (first : Reordered u v) (second : Reordered v w) : Reordered u w
  | fields {fields fields' : List (String × Json)} (perm : fields.Perm fields') :
      Reordered (.obj fields) (.obj fields')
  | item {v w : Json} {front back : List Json} (inner : Reordered v w) :
      Reordered (.arr (front ++ v :: back)) (.arr (front ++ w :: back))
  | field {v w : Json} {front back : List (String × Json)} {key : String} (inner : Reordered v w) :
      Reordered (.obj (front ++ (key, v) :: back)) (.obj (front ++ (key, w) :: back))

mutual
/-- No object in the document has two fields to list in another order. -/
def rigid : Json → Bool
  | arr items => rigidItems items
  | obj fields => rigidFields fields
  | _ => true

def rigidItems : List Json → Bool
  | [] => true
  | item :: rest => rigid item && rigidItems rest

def rigidFields : List (String × Json) → Bool
  | [] => true
  | [(_, value)] => rigid value
  | _ :: _ :: _ => false
end

mutual
/-- No object in the document has two fields of one name, as in every document that
    was parsed into dictionaries. -/
def NamesApart : Json → Prop
  | arr items => NamesApartItems items
  | obj fields => (fields.map Prod.fst).Nodup ∧ NamesApartFields fields
  | _ => True

def NamesApartItems : List Json → Prop
  | [] => True
  | item :: rest => NamesApart item ∧ NamesApartItems rest

def NamesApartFields : List (String × Json) → Prop
  | [] => True
  | (_, value) :: rest => NamesApart value ∧ NamesApartFields rest
end

namespace Reordered

variable {v w : Json}

theorem truthy_eq (h : Reordered v w) : v.truthy = w.truthy := by
  induction h with
  | refl => rfl
  | trans _ _ ihfirst ihsecond => exact ihfirst.trans ihsecond
  | @fields fields fields' perm =>
      have hempty : fields.isEmpty = fields'.isEmpty := perm.isEmpty_eq
      simp only [truthy, hempty]
  | @item v w front back _ _ => cases front <;> rfl
  | @field v w front back key _ _ => cases front <;> rfl

theorem symm (h : Reordered v w) : Reordered w v := by
  induction h with
  | refl => exact .refl
  | trans _ _ ihfirst ihsecond => exact .trans ihsecond ihfirst
  | fields perm => exact .fields perm.symm
  | item _ ih => exact .item ih
  | field _ ih => exact .field ih

end Reordered

variable {v w : Json}

theorem rigid_of_mem_items {items : List Json} (h : rigidItems items = true) :
    ∀ item ∈ items, item.rigid = true := by
  induction items with
  | nil => simp
  | cons item rest ih =>
      rw [rigidItems, Bool.and_eq_true] at h
      intro other hmem
      rcases List.mem_cons.mp hmem with rfl | hrest
      · exact h.1
      · exact ih h.2 other hrest

/-- The object has at most one field. -/
theorem rigidFields_cases {fields : List (String × Json)} (h : rigidFields fields = true) :
    fields = [] ∨ ∃ key value, fields = [(key, value)] ∧ value.rigid = true := by
  match fields with
  | [] => exact .inl rfl
  | [(key, value)] => exact .inr ⟨key, value, rfl, by simpa only [rigidFields] using h⟩
  | _ :: _ :: _ => simp [rigidFields] at h

/-- There is but one way to write a document without objects of two fields. -/
theorem Reordered.eq_of_rigid (h : Reordered v w) (hrigid : v.rigid = true) : w = v := by
  induction h with
  | refl => rfl
  | trans _ _ ihfirst ihsecond =>
      have hfirst := ihfirst hrigid
      rw [hfirst] at ihsecond
      exact ihsecond hrigid
  | @fields fields fields' perm =>
      rw [rigid] at hrigid
      rcases rigidFields_cases hrigid with rfl | ⟨key, value, rfl, _⟩
      · rw [perm.nil_eq]
      · rw [List.singleton_perm.mp perm]
  | @item v w front back _ ih =>
      rw [rigid] at hrigid
      have hv : v.rigid = true := rigid_of_mem_items hrigid v (by simp)
      rw [ih hv]
  | @field v w front back key _ ih =>
      rw [rigid] at hrigid
      rcases rigidFields_cases hrigid with hnil | ⟨key', value, hsingle, hvalue⟩
      · simp at hnil
      · cases front with
        | nil =>
            injection hsingle with hhead hrest
            injection hhead with _ hv
            rw [hv] at ih ⊢
            rw [ih hvalue]
        | cons _ front => simp at hsingle

mutual
/-- A document in which some object has two fields can be written in another way. -/
theorem exists_reordered : (v : Json) → v.NamesApart → v.rigid = false →
    ∃ w, Reordered v w ∧ w ≠ v
  | .null, _, hv | .bool _, _, hv | .num _, _, hv | .str _, _, hv => by simp [rigid] at hv
  | .arr items, hnames, hv => by
      rw [NamesApart] at hnames
      rw [rigid] at hv
      obtain ⟨front, u, back, rfl, w, hw, hne⟩ := exists_reordered_item items hnames hv
      refine ⟨.arr (front ++ w :: back), .item hw, ?_⟩
      simpa using hne
  | .obj [], _, hv => by simp [rigid, rigidFields] at hv
  | .obj [(key, u)], hnames, hv => by
      rw [NamesApart, NamesApartFields] at hnames
      rw [rigid, rigidFields] at hv
      obtain ⟨w, hw, hne⟩ := exists_reordered u hnames.2.1 hv
      have hother : Reordered (.obj ([] ++ (key, u) :: [])) (.obj ([] ++ (key, w) :: [])) := .field hw
      refine ⟨_, hother, ?_⟩
      simpa using hne
  | .obj (first :: second :: rest), hnames, _ => by
      rw [NamesApart] at hnames
      have hne : first.1 ≠ second.1 := by
        have hnodup := hnames.1
        rw [List.map_cons, List.map_cons, List.nodup_cons] at hnodup
        exact fun heq => hnodup.1 (heq ▸ List.mem_cons_self)
      refine ⟨.obj (second :: first :: rest), .fields (.swap _ _ _), ?_⟩
      intro heq
      injection heq with heq
      injection heq with hfirst _
      exact hne (congrArg Prod.fst hfirst.symm)

theorem exists_reordered_item : (items : List Json) → NamesApartItems items →
    rigidItems items = false →
    ∃ front u back, items = front ++ u :: back ∧ ∃ w, Reordered u w ∧ w ≠ u
  | [], _, hv => by simp [rigidItems] at hv
  | item :: rest, hnames, hv => by
      rw [NamesApartItems] at hnames
      rw [rigidItems, Bool.and_eq_false_iff] at hv
      rcases hv with hitem | hrest
      · exact ⟨[], item, rest, rfl, exists_reordered item hnames.1 hitem⟩
      · obtain ⟨front, u, back, rfl, hother⟩ := exists_reordered_item rest hnames.2 hrest
        exact ⟨item :: front, u, back, rfl, hother⟩
end

end Json
