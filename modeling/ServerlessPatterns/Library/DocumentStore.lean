-- SUMMARY: A keyed table of documents with conditional, path-wise updates, in the manner of DynamoDB.
import ServerlessPatterns.Library.Python

/-!
# Document store

A table maps a string key to an item, which is a JSON object. An update first
checks its condition, then evaluates all its operands on the item as it was, and
then writes them one after the other. An update of a key without an item starts
from an item that holds only the key. A failed operation leaves the table as it
was.
-/

/-- Why an operation was refused. -/
inductive DbError where
  /-- A malformed key, operand or document path. -/
  | validation
  /-- A value the client cannot send: DynamoDB has no binary floating point. -/
  | serialization
  | conditionalCheckFailed
  deriving DecidableEq

/-- The exception a refused operation raises in the client. -/
def DbError.exc : DbError → Exc
  | validation => ⟨"ClientError", ["botocore.exceptions.ClientError", "Exception"], "ValidationException"⟩
  | serialization => .typeError "Float types are not supported. Use Decimal types instead."
  | conditionalCheckFailed =>
    ⟨"ConditionalCheckFailedException", ["botocore.exceptions.ClientError", "Exception"],
      "ConditionalCheckFailedException"⟩

mutual
/-- Whether a `float` occurs anywhere in a document. -/
def Json.hasFloat : Json → Bool
  | .num (.float _) => true
  | .arr items => hasFloatItems items
  | .obj fields => hasFloatFields fields
  | _ => false

def Json.hasFloatItems : List Json → Bool
  | [] => false
  | item :: rest => item.hasFloat || hasFloatItems rest

def Json.hasFloatFields : List (String × Json) → Bool
  | [] => false
  | (_, value) :: rest => value.hasFloat || hasFloatFields rest
end

theorem Json.hasFloatFields_append {xs ys : List (String × Json)} :
    hasFloatFields (xs ++ ys) = (hasFloatFields xs || hasFloatFields ys) := by
  induction xs with
  | nil => rfl
  | cons field rest ih => rw [List.cons_append, hasFloatFields, hasFloatFields, ih, Bool.or_assoc]

theorem Json.hasFloat_orElse {value : Json} (h : value.hasFloat = false) :
    (value.orElse (.obj [])).hasFloat = false := by
  unfold orElse
  split
  · exact h
  · rfl

/-- The right-hand side of a `SET` clause. -/
inductive Operand where
  | value (v : Json)
  | ifNotExists (path : Json.Path) (fallback : Operand)
  | plus (left right : Operand)

/-- A condition on the item that an update finds. -/
inductive Condition where
  | attributeExists (path : Json.Path)
  | isIn (path : Json.Path) (values : List Json)
  | and (left right : Condition)

/-- The exact value of a number that DynamoDB stores; it has no infinities. -/
def Number.exact : Number → Option ℚ
  | .int n => some n
  | .decimal x => some x
  | .float (.finite x) => some x
  | .float _ => none

def Operand.eval (item : Json) : Operand → Option Json
  | value v => some v
  | ifNotExists path fallback =>
    match item.get path with
    | some v => some v
    | none => fallback.eval item
  | plus left right =>
    match left.eval item, right.eval item with
    | some (.num (.int a)), some (.num (.int b)) => some (.num (.int (a + b)))
    | some (.num a), some (.num b) =>
      a.exact.bind fun x => b.exact.map fun y => .num (.decimal (x + y))
    | _, _ => none

/-- Whether a value the operand sends holds a `float`. -/
def Operand.hasFloat : Operand → Bool
  | value v => v.hasFloat
  | ifNotExists _ fallback => fallback.hasFloat
  | plus left right => left.hasFloat || right.hasFloat

def Condition.holds (item : Json) : Condition → Bool
  | attributeExists path => (item.get path).isSome
  | isIn path values =>
    match item.get path with
    | some v => decide (v ∈ values)
    | none => false
  | and left right => left.holds item && right.holds item

/-- The items of a table, by key. -/
abbrev Table := String → Option Json

namespace Table

/-- A key attribute is a non-empty string. -/
def keyOf : Json → Except DbError String
  | .str s => if s = "" then .error .validation else .ok s
  | _ => .error .validation

/-- Replace what is stored under a key. -/
def write (table : Table) (key : String) (item : Json) : Table :=
  Function.update table key (some item)

@[simp] theorem write_self {table : Table} {key : String} {item : Json} :
    table.write key item key = some item := by
  simp [write]

@[simp] theorem write_ne {table : Table} {key key' : String} {item : Json} (h : key' ≠ key) :
    table.write key item key' = table key' := by
  simp [write, h]

/-- `get_item`. -/
def getItem (table : Table) (key : Json) : Except DbError (Option Json) :=
  (keyOf key).map table

/-- `put_item`: the item replaces whatever was stored under its key. -/
def putItem (keyName : String) (item : Json) (table : Table) : Except DbError Unit × Table :=
  match item.field keyName with
  | none => (.error .validation, table)
  | some key =>
    match keyOf key with
    | .error e => (.error e, table)
    | .ok k => if item.hasFloat then (.error .serialization, table) else (.ok (), table.write k item)

/-- Write evaluated operands one after the other. -/
def setAll : List (Json.Path × Json) → Json → Option Json
  | [], item => some item
  | (path, v) :: rest, item => (item.set path v).bind (setAll rest)

/-- The clauses of an update evaluated on the item it finds. -/
def evalAll (item : Json) : List (Json.Path × Operand) → Option (List (Json.Path × Json))
  | [] => some []
  | (path, operand) :: rest =>
    (operand.eval item).bind fun v => (evalAll item rest).map fun vs => (path, v) :: vs

/-- The item an update writes, given the item it finds. -/
def updated (clauses : List (Json.Path × Operand)) (item : Json) : Option Json :=
  (evalAll item clauses).bind fun values => setAll values item

/-- `update_item`, answering with the item as it is afterwards. -/
def updateItem (keyName : String) (key : Json) (clauses : List (Json.Path × Operand))
    (condition : Option Condition) (table : Table) : Except DbError Json × Table :=
  match keyOf key with
  | .error e => (.error e, table)
  | .ok k =>
    if clauses.any (·.2.hasFloat) then (.error .serialization, table)
    else if condition.all (·.holds ((table k).getD (.obj []))) then
      match updated clauses ((table k).getD (.obj [(keyName, key)])) with
      | none => (.error .validation, table)
      | some item => (.ok item, table.write k item)
    else (.error .conditionalCheckFailed, table)

/-- What is stored at a path of the item under a key. -/
def attr (table : Table) (key : String) (path : Json.Path) : Option Json :=
  (table key).bind (Json.get path)

@[simp] theorem keyOf_str {s : String} (h : s ≠ "") : keyOf (.str s) = .ok s := by
  simp [keyOf, h]

theorem keyOf_eq_ok {key : Json} {k : String} (h : keyOf key = .ok k) :
    key = .str k ∧ k ≠ "" := by
  cases key with
  | str s =>
      by_cases hs : s = ""
      · simp [keyOf, hs] at h
      · simp only [keyOf, hs, if_false, Except.ok.injEq] at h
        exact ⟨by rw [h], by rwa [← h]⟩
  | _ => simp [keyOf] at h

/-! ## What an update writes -/

theorem setAll_apart {values : List (Json.Path × Json)} {item item' : Json} {other : Json.Path}
    (h : setAll values item = some item') (hapart : ∀ c ∈ values, c.1.Apart other) :
    item'.get other = item.get other := by
  induction values generalizing item with
  | nil =>
      simp only [setAll, Option.some.injEq] at h
      rw [h]
  | cons c rest ih =>
      obtain ⟨path, v⟩ := c
      simp only [setAll, Option.bind_eq_some_iff] at h
      obtain ⟨item₁, hset, hrest⟩ := h
      have hread := ih hrest fun c hmem => hapart c (List.mem_cons_of_mem _ hmem)
      rw [hread, Json.get_set_apart hset (hapart _ List.mem_cons_self)]

theorem setAll_append {front back : List (Json.Path × Json)} {item : Json} :
    setAll (front ++ back) item = (setAll front item).bind (setAll back) := by
  induction front generalizing item with
  | nil => rfl
  | cons c front ih =>
      simp only [List.cons_append, setAll, Option.bind_assoc]
      exact Option.bind_congr fun item₁ _ => ih

/-- The last write to a path is what is read back from it. -/
theorem setAll_get {front back : List (Json.Path × Json)} {path : Json.Path} {v item item' : Json}
    (h : setAll (front ++ (path, v) :: back) item = some item')
    (hafter : ∀ c ∈ back, c.1.Apart path) : item'.get path = some v := by
  simp only [setAll_append, setAll, Option.bind_eq_some_iff] at h
  obtain ⟨item₁, _, item₂, hset, hback⟩ := h
  rw [setAll_apart hback hafter, Json.get_set hset]

theorem evalAll_append {front back : List (Json.Path × Operand)} {item : Json} :
    evalAll item (front ++ back) =
      (evalAll item front).bind fun vs => (evalAll item back).map fun ws => vs ++ ws := by
  induction front with
  | nil => simp [evalAll]
  | cons c front ih =>
      simp only [List.cons_append, evalAll, ih]
      cases c.2.eval item <;> cases evalAll item front <;> cases evalAll item back <;> rfl

theorem evalAll_paths {clauses : List (Json.Path × Operand)} {item : Json}
    {values : List (Json.Path × Json)} (h : evalAll item clauses = some values) :
    values.map Prod.fst = clauses.map Prod.fst := by
  induction clauses generalizing values with
  | nil =>
      simp only [evalAll, Option.some.injEq] at h
      rw [← h]
      rfl
  | cons c clauses ih =>
      simp only [evalAll, Option.bind_eq_some_iff, Option.map_eq_some_iff] at h
      obtain ⟨v, _, vs, hvs, rfl⟩ := h
      simp [ih hvs]

theorem evalAll_apart {clauses : List (Json.Path × Operand)} {item : Json}
    {values : List (Json.Path × Json)} {other : Json.Path} (h : evalAll item clauses = some values)
    (hapart : ∀ c ∈ clauses, c.1.Apart other) : ∀ c ∈ values, c.1.Apart other := by
  intro c hmem
  have hpath : c.1 ∈ clauses.map Prod.fst := by
    rw [← evalAll_paths h]
    exact List.mem_map_of_mem hmem
  obtain ⟨clause, hclause, heq⟩ := List.mem_map.mp hpath
  rw [← heq]
  exact hapart clause hclause

/-- A path apart from all that an update writes reads as before. -/
theorem updated_apart {clauses : List (Json.Path × Operand)} {item item' : Json}
    {other : Json.Path} (h : updated clauses item = some item')
    (hapart : ∀ c ∈ clauses, c.1.Apart other) : item'.get other = item.get other := by
  obtain ⟨values, hvalues, hset⟩ := Option.bind_eq_some_iff.mp h
  exact setAll_apart hset (evalAll_apart hvalues hapart)

theorem updated_keeps {clauses : List (Json.Path × Operand)} {item item' v : Json} {path : Json.Path}
    (h : updated clauses item = some item') (hread : item.get path = some v)
    (hapart : ∀ c ∈ clauses, c.1.Apart path) : item'.get path = some v := by
  rw [updated_apart h hapart, hread]

/-- The last clause for a path decides what is stored there: its operand, as it
    was worth before the update. -/
theorem updated_get {clauses : List (Json.Path × Operand)} {path : Json.Path} {operand : Operand}
    {item item' : Json} (h : updated clauses item = some item') (i : Nat)
    (hclause : clauses[i]? = some (path, operand))
    (hafter : ∀ c ∈ clauses.drop (i + 1), c.1.Apart path) :
    item'.get path = operand.eval item := by
  obtain ⟨hlt, hget⟩ := List.getElem?_eq_some_iff.mp hclause
  have hsplit : clauses = clauses.take i ++ (path, operand) :: clauses.drop (i + 1) := by
    rw [← hget, List.cons_getElem_drop_succ, List.take_append_drop]
  rw [hsplit] at h
  simp only [updated, evalAll_append, evalAll, Option.bind_eq_some_iff, Option.map_eq_some_iff] at h
  obtain ⟨_, ⟨vs, _, _, ⟨v, hv, ws, hws, rfl⟩, rfl⟩, hset⟩ := h
  rw [setAll_get hset (evalAll_apart hws hafter), hv]

/-- Operands that have a value can be written to attributes of an item. -/
theorem updated_flat {clauses : List (Json.Path × Operand)} {fields : List (String × Json)}
    (h : ∀ c ∈ clauses, ∃ key v, c.1 = [key] ∧ c.2.eval (.obj fields) = some v) :
    ∃ fields', updated clauses (.obj fields) = some (.obj fields') := by
  have hset : ∀ (values : List (Json.Path × Json)) (fields : List (String × Json)),
      (∀ c ∈ values, ∃ key v, c = ([key], v)) →
      ∃ fields', setAll values (.obj fields) = some (.obj fields') := by
    intro values
    induction values with
    | nil => exact fun fields _ => ⟨fields, rfl⟩
    | cons c values ih =>
        intro fields hvalues
        obtain ⟨key, v, rfl⟩ := hvalues c List.mem_cons_self
        exact ih _ fun c hmem => hvalues c (List.mem_cons_of_mem _ hmem)
  have heval : ∃ values, evalAll (.obj fields) clauses = some values ∧
      ∀ c ∈ values, ∃ key v, c = ([key], v) := by
    induction clauses with
    | nil => exact ⟨[], rfl, by simp⟩
    | cons c clauses ih =>
        obtain ⟨path, operand⟩ := c
        obtain ⟨key, v, hpath, hvalue⟩ := h _ List.mem_cons_self
        cases hpath
        obtain ⟨values, hvalues, hflat⟩ := ih fun c hmem => h c (List.mem_cons_of_mem _ hmem)
        refine ⟨([key], v) :: values, by simp [evalAll, hvalue, hvalues], ?_⟩
        intro c hmem
        rcases List.mem_cons.mp hmem with rfl | hmem
        · exact ⟨key, v, rfl⟩
        · exact hflat c hmem
  obtain ⟨values, hvalues, hflat⟩ := heval
  obtain ⟨fields', hfields⟩ := hset values fields hflat
  exact ⟨fields', by simp [updated, hvalues, hfields]⟩

/-- Constants can always be written to attributes of an item. -/
theorem updated_constants {clauses : List (Json.Path × Operand)} {fields : List (String × Json)}
    (h : ∀ c ∈ clauses, ∃ key v, c = ([key], .value v)) :
    ∃ fields', updated clauses (.obj fields) = some (.obj fields') := by
  apply updated_flat
  intro c hmem
  obtain ⟨key, v, rfl⟩ := h c hmem
  exact ⟨key, v, rfl, rfl⟩

/-- An update is refused and changes nothing, or it found its condition true and
    replaced one item. -/
theorem updateItem_cases (keyName : String) (key : Json) (clauses : List (Json.Path × Operand))
    (condition : Option Condition) (table : Table) :
    (∃ e, updateItem keyName key clauses condition table = (.error e, table)) ∨
    ∃ k item, key = .str k ∧ k ≠ "" ∧
      (∀ c ∈ condition, c.holds ((table k).getD (.obj [])) = true) ∧
      updated clauses ((table k).getD (.obj [(keyName, key)])) = some item ∧
      updateItem keyName key clauses condition table = (.ok item, table.write k item) := by
  unfold updateItem
  cases hkey : keyOf key with
  | error e => exact .inl ⟨e, rfl⟩
  | ok k =>
      obtain ⟨rfl, hne⟩ := keyOf_eq_ok hkey
      by_cases hfloat : clauses.any (·.2.hasFloat) = true
      · exact .inl ⟨_, if_pos hfloat⟩
      by_cases hcondition : condition.all (·.holds ((table k).getD (.obj []))) = true
      · cases hitem : updated clauses ((table k).getD (.obj [(keyName, .str k)])) with
        | none => exact .inl ⟨.validation, by simp only [if_neg hfloat, if_pos hcondition, hitem]⟩
        | some item =>
            refine .inr ⟨k, item, rfl, hne, ?_, hitem, ?_⟩
            · intro c hc
              rw [hc] at hcondition
              simpa using hcondition
            · simp only [if_neg hfloat, if_pos hcondition, hitem]
      · exact .inl ⟨.conditionalCheckFailed, by simp only [if_neg hfloat, if_neg hcondition]⟩

theorem updateItem_ok {keyName k : String} {clauses : List (Json.Path × Operand)}
    {condition : Option Condition} {table : Table} {item : Json} (hne : k ≠ "")
    (hfloat : clauses.any (·.2.hasFloat) = false)
    (hcondition : ∀ c ∈ condition, c.holds ((table k).getD (.obj [])) = true)
    (hitem : updated clauses ((table k).getD (.obj [(keyName, .str k)])) = some item) :
    updateItem keyName (.str k) clauses condition table = (.ok item, table.write k item) := by
  have hall : condition.all (·.holds ((table k).getD (.obj []))) = true := by
    cases condition with
    | none => rfl
    | some c => simpa using hcondition c rfl
  simp only [updateItem, keyOf_str hne, hfloat, hall, hitem, if_true, Bool.false_eq_true, if_false]

/-- An update whose paths fit is not refused as malformed. -/
theorem updateItem_fits {keyName k : String} {clauses : List (Json.Path × Operand)} {table : Table}
    {item : Json} (hne : k ≠ "")
    (hitem : updated clauses ((table k).getD (.obj [(keyName, .str k)])) = some item) :
    (updateItem keyName (.str k) clauses none table).1 = .ok item ∨
      (updateItem keyName (.str k) clauses none table).1 = .error .serialization := by
  cases hfloat : clauses.any (·.2.hasFloat) with
  | true => exact .inr (by simp only [updateItem, keyOf_str hne, hfloat, if_true])
  | false => exact .inl (by rw [updateItem_ok hne hfloat (by simp) hitem])

/-- An item with its key is stored unless it holds a `float`. -/
theorem putItem_eq {keyName k : String} {item : Json} {table : Table}
    (hkey : item.field keyName = some (.str k)) (hne : k ≠ "") :
    putItem keyName item table =
      if item.hasFloat then (.error .serialization, table) else (.ok (), table.write k item) := by
  rw [putItem, hkey]
  simp only [keyOf_str hne]

theorem putItem_cases (keyName : String) (item : Json) (table : Table) :
    (∃ e, putItem keyName item table = (.error e, table)) ∨
    ∃ k, item.field keyName = some (.str k) ∧ k ≠ "" ∧
      putItem keyName item table = (.ok (), table.write k item) := by
  unfold putItem
  cases hfield : item.field keyName with
  | none => exact .inl ⟨_, rfl⟩
  | some key =>
      cases hkey : keyOf key with
      | error e => exact .inl ⟨e, by simp only [hkey]⟩
      | ok k =>
          obtain ⟨rfl, hne⟩ := keyOf_eq_ok hkey
          by_cases hfloat : item.hasFloat = true
          · exact .inl ⟨.serialization, by simp only [if_pos hfloat, hkey]⟩
          · exact .inr ⟨k, rfl, hne, by simp only [hkey, if_neg hfloat]⟩

/-! ## What is read back after a write -/

@[simp] theorem attr_write_self {table : Table} {key : String} {item : Json} {path : Json.Path} :
    (table.write key item).attr key path = item.get path := by
  simp [attr]

/-- What has an entry is a map. -/
theorem attr_parent {table : Table} {k key entry : String} {value : Json}
    (h : table.attr k [key, entry] = some value) :
    ∃ fields, table.attr k [key] = some (.obj fields) := by
  obtain ⟨item, hitem, hget⟩ := Option.bind_eq_some_iff.mp h
  obtain ⟨parent, hparent, hentry⟩ := Option.bind_eq_some_iff.mp hget
  cases parent with
  | obj fields => exact ⟨fields, by simp [attr, hitem, hparent]⟩
  | _ => simp [Json.field] at hentry

/-- The item an update starts from holds nothing that the table does not hold,
    except for the key attribute. -/
theorem getD_get {table : Table} {keyName k key : String} {rest : Json.Path} (h : key ≠ keyName) :
    ((table k).getD (.obj [(keyName, .str k)])).get (key :: rest) = table.attr k (key :: rest) := by
  cases hread : table k with
  | some item => simp [attr, hread]
  | none =>
      have hne : (key == keyName) = false := by simpa using h
      simp [attr, hread, List.lookup_cons, hne]

/-- An update leaves alone what is apart from its clauses. -/
theorem attr_updated_apart {table : Table} {keyName k key : String} {rest : Json.Path}
    {clauses : List (Json.Path × Operand)} {item : Json}
    (h : updated clauses ((table k).getD (.obj [(keyName, .str k)])) = some item)
    (hkey : key ≠ keyName) (hapart : ∀ c ∈ clauses, c.1.Apart (key :: rest)) :
    (table.write k item).attr k (key :: rest) = table.attr k (key :: rest) := by
  rw [attr_write_self, updated_apart h hapart, getD_get hkey]

theorem attr_write_ne {table : Table} {key key' : String} {item : Json} {path : Json.Path}
    (h : key' ≠ key) : (table.write key item).attr key' path = table.attr key' path := by
  simp [attr, h]

/-- An update changes no attribute but those of its item that its clauses set. -/
theorem attr_updateItem {keyName k key : String} {id : Json} {rest : Json.Path}
    {clauses : List (Json.Path × Operand)} {condition : Option Condition} {table : Table}
    (hkey : key ≠ keyName) (hapart : id = .str k → ∀ c ∈ clauses, c.1.Apart (key :: rest)) :
    (updateItem keyName id clauses condition table).2.attr k (key :: rest) =
      table.attr k (key :: rest) := by
  rcases updateItem_cases keyName id clauses condition table with
    ⟨e, hupdate⟩ | ⟨k', item, rfl, _, _, hitem, hupdate⟩
  · rw [hupdate]
  · rw [hupdate]
    by_cases hk : k = k'
    · subst hk
      exact attr_updated_apart hitem hkey (hapart rfl)
    · exact attr_write_ne hk

/-! ## Well-formed tables -/

/-- Every item carries the key it is stored under. -/
def Keyed (keyName : String) (table : Table) : Prop :=
  ∀ k item, table k = some item → item.get [keyName] = some (.str k)

theorem keyed_write {keyName k : String} {item : Json} {table : Table}
    (h : table.Keyed keyName) (hitem : item.get [keyName] = some (.str k)) :
    (table.write k item).Keyed keyName := by
  intro k' item' hread
  by_cases hk : k' = k
  · subst hk
    rw [write_self, Option.some.injEq] at hread
    rw [← hread, hitem]
  · rw [write_ne hk] at hread
    exact h k' item' hread

theorem Keyed.getD {keyName k : String} {table : Table} (h : table.Keyed keyName) :
    ((table k).getD (.obj [(keyName, .str k)])).get [keyName] = some (.str k) := by
  cases hread : table k with
  | none => simp
  | some item => exact h k item hread

/-! ## One item at a time -/

/-- The item that an id stands for. -/
def item (id : Json) (table : Table) : Option Json :=
  match id with
  | .str k => table k
  | _ => none

theorem item_write_self {k : String} {value : Json} {table : Table} :
    item (.str k) (table.write k value) = some value := write_self

theorem item_write_ne {id value : Json} {k : String} {table : Table} (h : id ≠ .str k) :
    item id (table.write k value) = item id table := by
  cases id with
  | str k' => exact write_ne fun heq => h (congrArg Json.str heq)
  | _ => rfl

/-- A method that neither reads nor writes any other item. -/
structure ActsOn {α : Type} (id : Json) (method : Table → α × Table) : Prop where
  frame : ∀ {other : Json} (table : Table), other ≠ id → item other (method table).2 = item other table
  congr : ∀ {table table' : Table}, item id table' = item id table →
    (method table').1 = (method table).1 ∧ item id (method table').2 = item id (method table).2

theorem ActsOn.map {α β : Type} {id : Json} {method : Table → α × Table} (h : ActsOn id method)
    (f : α → β) : ActsOn id fun table => (f (method table).1, (method table).2) where
  frame := h.frame
  congr hsame := ⟨congrArg f (h.congr hsame).1, (h.congr hsame).2⟩

theorem actsOn_refused {α : Type} {id : Json} (a : α) : ActsOn id fun table => (a, table) where
  frame _ _ := rfl
  congr hsame := ⟨rfl, hsame⟩

theorem actsOn_updateItem (keyName : String) (id : Json) (clauses : List (Json.Path × Operand))
    (condition : Option Condition) : ActsOn id (updateItem keyName id clauses condition) := by
  unfold updateItem
  cases hkey : keyOf id with
  | error e => exact actsOn_refused _
  | ok k =>
      obtain ⟨rfl, _⟩ := keyOf_eq_ok hkey
      by_cases hfloat : clauses.any (·.2.hasFloat) = true
      · simp only [hfloat, if_true]
        exact actsOn_refused _
      simp only [hfloat, Bool.false_eq_true, if_false]
      constructor
      · intro other table hne
        split_ifs
        · split
          · rfl
          · exact item_write_ne hne
        · rfl
      · intro table table' hsame
        have hread : table' k = table k := hsame
        rw [hread]
        split_ifs
        · split
          · exact ⟨rfl, hsame⟩
          · exact ⟨rfl, by rw [item_write_self, item_write_self]⟩
        · exact ⟨rfl, hsame⟩

theorem actsOn_putItem {keyName : String} {id value : Json} (h : value.field keyName = some id) :
    ActsOn id (putItem keyName value) := by
  unfold putItem
  rw [h]
  cases hkey : keyOf id with
  | error e =>
      simp only [hkey]
      exact actsOn_refused _
  | ok k =>
      obtain ⟨rfl, _⟩ := keyOf_eq_ok hkey
      simp only [hkey]
      split_ifs
      · exact actsOn_refused _
      · exact ⟨fun _ hne => item_write_ne hne,
          fun _ => ⟨rfl, by rw [item_write_self, item_write_self]⟩⟩

end Table
