-- SUMMARY: Functions that go through a batch of records and answer with the failed ones, and when one record leaves the others alone.
import Mathlib.Data.List.Forall2
import ServerlessPatterns.Library.Contract
import ServerlessPatterns.Library.Python

/-!
# Batch functions

A queue hands a function several records at once, and the function answers with
those that failed. One record should not decide what happens to another. Here that
means: the invocation returns, and it is made of invocations on the single records.
-/

namespace BatchFunction

open Program

variable {Op : Type} {Ans : Op → Type} {expected : (op : Op) → Ans op → Prop}
  {handle : Json → Program Op Ans Exc Json} {body : Json → Program Op Ans Exc (Option Json)}
  {records : List Json}

def event (records : List Json) : Json := .obj [("Records", .arr records)]

def response (failures : List Json) : Json := .obj [("batchItemFailures", .arr failures)]

theorem response_inj {failures failures' : List Json} :
    response failures = response failures' ↔ failures = failures' := by
  simp [response]

/-- A record of a queue as its function receives it: any text as the body, and the
    system attributes, of which the receive count is a number in decimal. -/
structure Record where
  messageId : String
  receiptHandle : String
  body : String
  receiveCount : String
  attributes : List (String × Json)

def Record.systemAttributes (record : Record) : Json :=
  .obj (("ApproximateReceiveCount", .str record.receiveCount) :: record.attributes)

def Record.json (record : Record) : Json :=
  .obj [("messageId", .str record.messageId), ("receiptHandle", .str record.receiptHandle),
    ("body", .str record.body), ("attributes", record.systemAttributes)]

/-- The function runs `body` for one record after the other and collects the
    failures. -/
def Loops (handle : Json → Program Op Ans Exc Json)
    (body : Json → Program Op Ans Exc (Option Json)) : Prop :=
  ∀ records, handle (event records) =
    (collect body records [] >>= fun failures => ret (response failures))

/-- What an invocation does with one record: its operations and its entries in the
    response. -/
structure Part (Op : Type) (Ans : Op → Type) where
  calls : List (Event Op Ans)
  failures : List Json

/-- Every invocation that is not given up returns, and it does with each record
    what an invocation on that record alone may do. -/
def Isolated (expected : (op : Op) → Ans op → Prop) (handle : Json → Program Op Ans Exc Json)
    (records : List Json) : Prop :=
  ∀ calls outcome, Calls (handle (event records)) calls outcome → outcome ≠ .lost →
    (∀ call ∈ calls, expected call.1 call.2) →
    ∃ parts : List (Part Op Ans),
      List.Forall₂ (fun record part =>
        Calls (handle (event [record])) part.calls (.returned (response part.failures)))
        records parts ∧
      calls = parts.flatMap Part.calls ∧
      outcome = .returned (response (parts.flatMap Part.failures))

/-- The body never lets an exception out, as long as its operations are answered as
    expected. -/
def Contained (expected : (op : Op) → Ans op → Prop) (p : Program Op Ans Exc (Option Json)) :
    Prop :=
  p.Meets (fun _ => True) expected (fun _ => False) fun _ => True

/-! ## Loops that contain every exception -/

theorem calls_loop (hloops : Loops handle body) {calls : List (Event Op Ans)}
    {failures : List Json} :
    Calls (handle (event records)) calls (.returned (response failures)) ↔
      Calls (collect body records []) calls (.returned failures) := by
  rw [hloops, calls_bind_ret]
  simp [response_inj]

/-- An invocation that returned is made of invocations on the single records. -/
theorem parts_of_returned (hloops : Loops handle body) {calls : List (Event Op Ans)}
    {failures : List Json}
    (h : Calls (collect body records []) calls (.returned failures)) :
    ∃ parts : List (Part Op Ans),
      List.Forall₂ (fun record part =>
        Calls (handle (event [record])) part.calls (.returned (response part.failures)))
        records parts ∧
      calls = parts.flatMap Part.calls ∧ failures = parts.flatMap Part.failures := by
  induction records generalizing calls failures with
  | nil =>
      obtain ⟨rfl, houtcome⟩ := calls_ret.mp h
      have hnil : failures = [] := by simpa using houtcome
      exact ⟨[], .nil, rfl, hnil⟩
  | cons record rest ih =>
      have hsplit : record :: rest = [record] ++ rest := rfl
      rw [hsplit] at h
      obtain ⟨calls₁, failures₁, calls₂, failures₂, rfl, rfl, hfirst, hrest⟩ :=
        calls_collect_append.mp h
      obtain ⟨parts, hparts, rfl, rfl⟩ := ih hrest
      exact ⟨⟨calls₁, failures₁⟩ :: parts, .cons ((calls_loop hloops).mpr hfirst) hparts, rfl, rfl⟩

theorem isolated_of_contained (hloops : Loops handle body)
    (hcontained : ∀ record ∈ records, Contained expected (body record)) :
    Isolated expected handle records := by
  intro calls outcome hcalls hended hexpected
  have hmeets : (handle (event records)).Meets (fun _ => True) expected (fun _ => False)
      fun document => ∃ failures, document = response failures := by
    rw [hloops]
    have hloop : (collect body records []).Meets (fun _ => True) expected (fun _ => False)
        fun failures => ∀ failure ∈ failures, True := by
      apply meets_collect (fun _ _ => trivial)
      intro record hrecord
      exact (hcontained record hrecord).mono (fun _ _ => trivial) fun _ _ _ _ => trivial
    apply hloop.bind
    intro failures _
    exact meets_ret ⟨failures, rfl⟩
  obtain ⟨_, hreturned, hraised⟩ := hmeets.calls hcalls hexpected
  cases outcome with
  | returned document =>
      obtain ⟨failures, rfl⟩ := hreturned document rfl
      obtain ⟨parts, hparts, rfl, rfl⟩ :=
        parts_of_returned hloops ((calls_loop hloops).mp hcalls)
      exact ⟨parts, hparts, rfl, rfl⟩
  | raised e => exact (hraised e rfl).elim
  | lost => exact absurd rfl hended

/-! ## Loops that do not -/

/-- Some run of a program comes to an end with expected answers. -/
theorem exists_ended {α : Type} (hanswers : ∀ op, ∃ answer, expected op answer)
    (p : Program Op Ans Exc α) :
    ∃ calls outcome, Calls p calls outcome ∧ outcome ≠ .lost ∧
      ∀ call ∈ calls, expected call.1 call.2 := by
  induction p with
  | ret a => exact ⟨[], .returned a, calls_ret.mpr ⟨rfl, .inl rfl⟩, by simp, by simp⟩
  | raise e => exact ⟨[], .raised e, calls_raise.mpr ⟨rfl, .inl rfl⟩, by simp, by simp⟩
  | call op k ih =>
      obtain ⟨answer, hanswer⟩ := hanswers op
      obtain ⟨calls, outcome, hcalls, hended, hexpected⟩ := ih answer
      exact ⟨⟨op, answer⟩ :: calls, outcome, calls_call_cons.mpr hcalls, hended,
        List.forall_mem_cons.mpr ⟨hanswer, hexpected⟩⟩

/-- A record on which the body raises at once breaks every batch it is in. -/
theorem not_isolated_of_raises (hloops : Loops handle body)
    (hanswers : ∀ op, ∃ answer, expected op answer) {record : Json} {e : Exc}
    (hrecord : record ∈ records) (hraises : body record = raise e) :
    ¬ Isolated expected handle records := by
  intro hisolated
  obtain ⟨calls, outcome, hcalls, hended, hexpected⟩ :=
    exists_ended hanswers (handle (event records))
  obtain ⟨parts, hparts, rfl, rfl⟩ := hisolated calls outcome hcalls hended hexpected
  obtain ⟨_, hbody⟩ := collect_returned ((calls_loop hloops).mp hcalls)
  obtain ⟨part, y, hpart, _⟩ := hbody record hrecord
  rw [hraises] at hpart
  exact not_calls_raise hpart

/-- When the body either contains every exception or raises at once, a batch is
    isolated if and only if the body raises at once on none of its records. -/
theorem isolated_iff (hloops : Loops handle body)
    (hanswers : ∀ op, ∃ answer, expected op answer) {records : List Record}
    {escapes : Record → Prop}
    (hescapes : ∀ record ∈ records, escapes record → ∃ e, body record.json = raise e)
    (hcontained : ∀ record ∈ records, ¬ escapes record → Contained expected (body record.json)) :
    Isolated expected handle (records.map Record.json) ↔ ∀ record ∈ records, ¬ escapes record := by
  constructor
  · intro hisolated record hrecord hescape
    obtain ⟨e, hraises⟩ := hescapes record hrecord hescape
    exact not_isolated_of_raises hloops hanswers (List.mem_map_of_mem hrecord) hraises hisolated
  · intro hnone
    apply isolated_of_contained hloops
    intro json hjson
    obtain ⟨record, hrecord, rfl⟩ := List.mem_map.mp hjson
    exact hcontained record hrecord (hnone record hrecord)

end BatchFunction
