-- SUMMARY: The context of an approval request is stored and read back exactly when no `float` occurs in it.
import ServerlessPatterns.ApprovalWorkflow.World
import ServerlessPatterns.Library.Serialization
import ServerlessPatterns.Library.WeakestPre

/-!
# The context of a request

`prepare_request` turns the amount, which it knows to be a number, into a `Decimal`. The
context is passed on as it came.
-/

namespace ApprovalWorkflow

open Program

variable {py : Python} {fields context : List (String × Json)} {w w' : World}

/-- A request that is accepted and can be stored, whatever its context is. -/
structure RequestInput (py : Python) (fields : List (String × Json)) : Prop where
  title : ∃ title, fields.lookup "title" = some (.str title) ∧ title ≠ ""
  requestId : ∀ v, fields.lookup "request_id" = some v → v.truthy = true → ∃ k, v = .str k
  amount : ∃ amount decimal, requestAmount py ((fields.lookup "amount").getD .null) = .ok amount ∧
    amount.mapM py.toDecimal = .ok decimal

/-- The store has the context under the reported request id. -/
def HasContext (context : List (String × Json)) (report : Json) (w : World) : Prop :=
  ∃ requestId, report.field "request_id" = some requestId ∧
    w.table.ReadsBack ApprovalStore.get "context" (.obj context) requestId

/-- `prepare_request` returns, and the context is stored. -/
def ContextStored (py : Python) (fields context : List (String × Json)) : Prop :=
  ∀ w calls outcome w', Attempt (exec py) (prepareRequest py (.obj fields)) w calls outcome w' →
    outcome ≠ .lost → ∃ report, outcome = .returned report ∧ HasContext context report w'

/-! ## The item -/

theorem get_str {k : String} {table : Table} (hne : k ≠ "") :
    ApprovalStore.get (.str k) table = .ok (table k) := by
  rw [ApprovalStore.get, Table.getItem, Table.keyOf_str hne]
  rfl

theorem newItem_context {clock : Clock} {k title requester : String} {amount : Option ℚ} {ttl : Int} :
    (ApprovalStore.newItem clock (.str k) title amount requester (.obj context) ttl).field "context" =
      some (.obj context) := by
  simp [ApprovalStore.newItem, List.lookup_cons, Json.orElse_obj]

/-- Only the context of a new item may hold a `float`. -/
theorem newItem_hasFloat {clock : Clock} {k title requester : String} {amount : Option ℚ} {ttl : Int} :
    (ApprovalStore.newItem clock (.str k) title amount requester (.obj context) ttl).hasFloat =
      (Json.obj context).hasFloat := by
  unfold ApprovalStore.newItem
  rw [Json.hasFloat, Json.hasFloatFields_append, Json.hasFloatFields_append]
  cases amount <;> split_ifs <;>
    simp [Json.hasFloatFields, Json.hasFloat, Json.orElse_obj, statusPending, ApprovalStore.seconds]

/-- `create` is refused for a `float` in the context and for nothing else. -/
theorem create_eq {k title requester : String} {amount : Option PyFloat} {decimal : Option ℚ}
    (hne : k ≠ "") (hamount : amount.mapM py.toDecimal = .ok decimal) (clock : Clock) (ttl : Int)
    (table : Table) :
    ApprovalStore.create py clock (.str k) title amount requester (.obj context) ttl table =
      if (Json.obj context).hasFloat then (.error DbError.serialization.exc, table)
      else (.ok (), table.write k
        (ApprovalStore.newItem clock (.str k) title decimal requester (.obj context) ttl)) := by
  have hkey : (ApprovalStore.newItem clock (.str k) title decimal requester (.obj context) ttl).field
      "request_id" = some (.str k) := by
    simp [ApprovalStore.newItem]
  simp only [ApprovalStore.create, hamount, Table.putItem_eq hkey hne, newItem_hasFloat]
  split_ifs <;> rfl

/-! ## The handler -/

/-- What `prepare_request` does once it knows the id of the request. -/
def createRequest (title requester : String) (amount : Option PyFloat) (context requestId : Json) :
    Handler Json :=
  .call (.create requestId title amount requester context defaultTtlSeconds) fun answer =>
    .ofExcept answer >>= fun _ =>
      .ret (.obj [("request_id", requestId), ("title", .str title),
        ("amount", match amount with | some x => .num (.float x) | none => .null),
        ("requester", .str requester)])

theorem prepareRequest_eq {title : String} {amount : Option PyFloat} {given : Json}
    (htitle : fields.lookup "title" = some (.str title)) (hne : title ≠ "")
    (hamount : requestAmount py ((fields.lookup "amount").getD .null) = .ok amount)
    (hcontext : fields.lookup "context" = some given) :
    prepareRequest py (.obj fields) =
      (requestIdOf ((fields.lookup "request_id").getD .null) >>= fun requestId =>
        createRequest title (py.str ((fields.lookup "requester").getD (.str "unknown"))) amount
          (given.orElse (.obj [])) requestId) := by
  unfold prepareRequest
  simp only [Json.orElse_obj, Python.get_obj, Python.getD_obj, htitle, hcontext, Option.getD_some,
    ofExcept_ok, ret_bind, if_neg hne, hamount]
  cases amount <;> rfl

theorem createRequest_wp {k title requester : String} {amount : Option PyFloat} {decimal : Option ℚ}
    (hne : k ≠ "") (hamount : amount.mapM py.toDecimal = .ok decimal) :
    (createRequest title requester amount (.obj context) (.str k)).wp (exec py)
      (fun report w' => (Json.obj context).hasFloat = false ∧ HasContext context report w')
      (fun _ _ => ¬ (Json.obj context).hasFloat = false) w := by
  rintro answer w' ⟨clock, rfl, rfl⟩
  simp only [create_eq hne hamount]
  cases (Json.obj context).hasFloat with
  | true => exact Bool.noConfusion
  | false =>
      exact ⟨rfl, .str k, rfl, Table.readsBack_write (fun _ => get_str hne) newItem_context⟩

/-- The handler returns with the context stored, or it raises for a `float` in it. -/
theorem prepareRequest_wp (h : RequestInput py fields)
    (hcontext : fields.lookup "context" = some (.obj context)) :
    (prepareRequest py (.obj fields)).wp (exec py)
      (fun report w' => (Json.obj context).hasFloat = false ∧ HasContext context report w')
      (fun _ _ => ¬ (Json.obj context).hasFloat = false) w := by
  obtain ⟨title, htitle, hne⟩ := h.title
  obtain ⟨amount, decimal, hamount, hdecimal⟩ := h.amount
  rw [prepareRequest_eq htitle hne hamount hcontext, Json.orElse_obj, wp_bind, requestIdOf]
  split_ifs with htruthy
  · obtain ⟨k, hne, hgiven⟩ := Json.given_str h.requestId htruthy
    rw [hgiven]
    exact createRequest_wp hne hdecimal
  · rintro id w' ⟨_, hex, _, rfl⟩
    exact createRequest_wp (by simp) hdecimal

theorem contextStored_iff (h : RequestInput py fields)
    (hcontext : fields.lookup "context" = some (.obj context)) :
    ContextStored py fields context ↔ (Json.obj context).hasFloat = false :=
  returns_iff answer_exec World.empty fun _ => prepareRequest_wp h hcontext

end ApprovalWorkflow
