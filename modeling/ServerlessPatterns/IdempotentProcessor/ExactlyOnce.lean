-- SUMMARY: The processor behind its queue: when a message is deleted, its work has been done, and within the expiry of results it has been done once.
import ServerlessPatterns.IdempotentProcessor.Keys
import ServerlessPatterns.IdempotentProcessor.Window
import ServerlessPatterns.Library.Callers

/-!
# Exactly once

The queue delivers a message any number of times, also while an earlier delivery of it is
still handled, and other messages may have the same key. The wrapped `process_payload` is
taken as its layer has it: a call returns a value only when the layer answers it. The batch
processor deletes a message only after the record handler returned for one of its
deliveries. Nothing else is assumed of the handling of batches.
-/

namespace IdempotentProcessor

open Program Python Idempotency Relation

/-- Each delivery is one of some message. -/
structure Feed (D : Type) where
  message : D → String
  body : String → String

/-- The key that the record handler calls `process_payload` with, if it comes to that. -/
def passedKey (py : Python) (sha256 : Sha256) (recordBody : String) : Option String :=
  match recordHandler py sha256 recordBody with
  | .call (.processPayload payload) _ =>
    match payload.field config.eventKeyJmespath with
    | some (.str key) => some key
    | _ => none
  | _ => none

/-- The key that a delivery is handled under. -/
def Feed.key {D : Type} (feed : Feed D) (py : Python) (sha256 : Sha256) (d : D) : Option String :=
  passedKey py sha256 (feed.body (feed.message d))

/-- The record handler returned for a delivery that stands there: it has got its values
    from the layer. -/
def Returned (py : Python) (sha256 : Sha256) (recordBody : String) (phase : Phase) : Prop :=
  ∃ calls result, Calls (recordHandler py sha256 recordBody) calls (.returned result) ∧
    ∀ payload value, ⟨.processPayload payload, .ok value⟩ ∈ calls → phase = .answered

/-- The deliveries under way, and the messages that are gone from the queue for good. -/
structure Intake (D : Type) where
  callers : Callers D String
  deleted : Set String

def Intake.start {D : Type} : Intake D := ⟨.start, ∅⟩

section

variable {D : Type} [DecidableEq D]

inductive IntakeStep (py : Python) (sha256 : Sha256) (vars : Variables) (feed : Feed D) :
    Intake D → Intake D → Prop where
  | handle {callers callers' : Callers D String} {deleted : Set String}
      (hstep : Callers.Step (limits vars) (feed.key py sha256) callers callers') :
      IntakeStep py sha256 vars feed ⟨callers, deleted⟩ ⟨callers', deleted⟩
  | acknowledge {callers : Callers D String} {deleted : Set String} {d : D}
      (hreturned : Returned py sha256 (feed.body (feed.message d)) (callers.phase d)) :
      IntakeStep py sha256 vars feed ⟨callers, deleted⟩ ⟨callers, insert (feed.message d) deleted⟩

end

/-- What the deletion of a message says of its work. -/
structure DoneOnce {D : Type} (py : Python) (sha256 : Sha256) (feed : Feed D) (s : Intake D) :
    Prop where
  done : ∀ m ∈ s.deleted, ∃ key, PassesKey py sha256 (feed.body m) key ∧
    s.callers.layer.completions key ≠ []
  /-- No completion falls into the window of an earlier one. -/
  once : ∀ key, (s.callers.layer.completions key).Pairwise fun earlier later =>
    earlier + config.expiresAfterSeconds < later
  /-- `process_payload` never runs twice at a time under one key. -/
  exclusive : ∀ d d' key deadline deadline' expiry expiry',
    Callers.Alive (feed.key py sha256) s.callers d key deadline expiry →
    Callers.Alive (feed.key py sha256) s.callers d' key deadline' expiry' → d = d'
  /-- A message that has no key never gets to the layer, and is never deleted. -/
  keyless : ∀ m, (¬ ∃ key, PassesKey py sha256 (feed.body m) key) →
    (∃ e, recordHandler py sha256 (feed.body m) = .raise e) ∧ m ∉ s.deleted

variable {D : Type} {py : Python} {sha256 : Sha256} {vars : Variables} {feed : Feed D}
  {recordBody key : String} {s s' : Intake D}

/-! ## What the record handler does -/

theorem passedKey_eq_some :
    passedKey py sha256 recordBody = some key ↔ PassesKey py sha256 recordBody key := by
  unfold passedKey PassesKey
  constructor
  · intro h
    split at h
    · rename_i payload k hcall
      refine ⟨payload, k, hcall, ?_⟩
      split at h
      · cases h
        assumption
      · cases h
    · cases h
  · rintro ⟨payload, k, hcall, hkey⟩
    simp only [hcall, hkey]

/-- The record handler ends in its call of `process_payload`, under a key, or raises
    before it. -/
theorem recordHandler_eq :
    (∃ payload key, recordHandler py sha256 recordBody = .call (.processPayload payload) .ofExcept ∧
      payload.field config.eventKeyJmespath = some (.str key)) ∨
    ∃ e, recordHandler py sha256 recordBody = .raise e := by
  unfold recordHandler
  cases (if recordBody ≠ "" then py.loads recordBody else .ok (.obj [])) with
  | error e => exact .inr ⟨e, rfl⟩
  | ok body =>
      simp only [ofExcept_ok, ret_bind]
      cases idempotencyKey py sha256 recordBody body with
      | error e => exact .inr ⟨e, rfl⟩
      | ok key =>
          simp only [ofExcept_ok, ret_bind]
          cases body with
          | obj fields => exact .inl ⟨_, key, rfl, Fields.lookup_put_self⟩
          | _ => exact .inr ⟨_, rfl⟩

/-- Without a key the record handler raises. -/
theorem recordHandler_keyless (h : ¬ ∃ key, PassesKey py sha256 recordBody key) :
    ∃ e, recordHandler py sha256 recordBody = .raise e := by
  rcases recordHandler_eq with ⟨payload, key, hcall, hfield⟩ | hraises
  · exact absurd ⟨key, payload, _, hcall, hfield⟩ h
  · exact hraises

/-- A record handler that comes to its end has either called `process_payload` once, with
    a key, and ends as that call did, or has raised before it. -/
theorem recordHandler_ends {calls : List (Event Op Ans)} {outcome : Outcome Exc Json}
    (h : Calls (recordHandler py sha256 recordBody) calls outcome) (hended : outcome ≠ .lost) :
    (∃ payload key answer, PassesKey py sha256 recordBody key ∧
      calls = [⟨.processPayload payload, answer⟩] ∧
      outcome = .ofExcept answer) ∨
    ∃ e, calls = [] ∧ outcome = .raised e := by
  rcases @recordHandler_eq py sha256 recordBody with
    ⟨payload, key, hcall, hfield⟩ | ⟨e, hraises⟩
  · rw [hcall] at h
    rcases calls_call.mp h with ⟨_, hlost⟩ | ⟨answer, rest, rfl, hrest⟩
    · exact absurd hlost hended
    · left
      obtain ⟨rfl, heq | hlost⟩ := calls_ofExcept.mp hrest
      · exact ⟨payload, key, answer, ⟨payload, _, hcall, hfield⟩, rfl, heq⟩
      · exact absurd hlost hended
  · rw [hraises] at h
    obtain ⟨rfl, heq | hlost⟩ := calls_raise.mp h
    · exact .inr ⟨e, rfl, heq⟩
    · exact absurd hlost hended

/-- Behind a record handler that returned stands an answer of the layer. -/
theorem Returned.answered {phase : Phase} (h : Returned py sha256 recordBody phase) :
    phase = .answered := by
  obtain ⟨calls, result, hcalls, hlayer⟩ := h
  have hended : (.returned result : Outcome Exc Json) ≠ .lost := by
    intro hlost
    cases hlost
  rcases recordHandler_ends hcalls hended with ⟨payload, key, answer, _, rfl, houtcome⟩ | ⟨e, _, houtcome⟩
  · cases answer with
    | ok value => exact hlayer payload value List.mem_cons_self
    | error e => cases houtcome
  · cases houtcome

/-- The answer of the layer lets the record handler return. -/
theorem returned_of_answered {phase : Phase} (hpasses : PassesKey py sha256 recordBody key)
    (hanswered : phase = .answered) : Returned py sha256 recordBody phase := by
  rcases @recordHandler_eq py sha256 recordBody with
    ⟨payload, key, hcall, _⟩ | ⟨e, hraises⟩
  · refine ⟨[⟨.processPayload payload, .ok .null⟩], .null, ?_, fun _ _ _ => hanswered⟩
    rw [hcall]
    exact calls_call_cons.mpr (calls_ofExcept.mpr ⟨rfl, .inl rfl⟩)
  · obtain ⟨payload, k, hcall, _⟩ := hpasses
    cases hraises.symm.trans hcall

/-! ## Runs -/

/-- A message was acknowledged in one of its deliveries, which had got an answer. -/
def Acknowledged (feed : Feed D) (s : Intake D) : Prop :=
  ∀ m ∈ s.deleted, ∃ d, feed.message d = m ∧ s.callers.phase d = .answered

variable [DecidableEq D]

theorem acknowledged_step (h : Acknowledged feed s) (hstep : IntakeStep py sha256 vars feed s s') :
    Acknowledged feed s' := by
  cases hstep with
  | handle hstep =>
      intro m hm
      obtain ⟨d, hmessage, hanswered⟩ := h m hm
      exact ⟨d, hmessage, Callers.answered_step hanswered hstep⟩
  | acknowledge hreturned =>
      intro m hm
      rcases Set.mem_insert_iff.mp hm with rfl | hold
      · exact ⟨_, rfl, hreturned.answered⟩
      · exact h m hold

/-- A call is over before its item expires. -/
theorem maxDuration_le : (limits vars).maxDuration ≤ (limits vars).expiresAfter := by
  have htimeout := vars.timeoutAdmitted.2
  change vars.lambdaTimeoutS ≤ 3600
  linarith

/-- In every run of the processor a message is deleted only after `process_payload` has
    completed under its key, and it completes once in the window of each completion. -/
theorem done_once (h : ReflTransGen (IntakeStep py sha256 vars feed) .start s) :
    DoneOnce py sha256 feed s := by
  have hinvariant : Callers.Sound (limits vars) (feed.key py sha256) s.callers ∧ Acknowledged feed s := by
    refine Transition.invariant (P := fun s =>
      Callers.Sound (limits vars) (feed.key py sha256) s.callers ∧ Acknowledged feed s) h
      ⟨Callers.sound_start, nofun⟩ ?_
    rintro s s' ⟨hsound, hacknowledged⟩ hstep
    refine ⟨?_, acknowledged_step hacknowledged hstep⟩
    cases hstep with
    | handle hstep => exact Callers.sound_step maxDuration_le hsound hstep
    | acknowledge => exact hsound
  obtain ⟨hsound, hacknowledged⟩ := hinvariant
  have hdone : ∀ m ∈ s.deleted, ∃ key, PassesKey py sha256 (feed.body m) key ∧
      s.callers.layer.completions key ≠ [] := by
    intro m hm
    obtain ⟨d, rfl, hanswered⟩ := hacknowledged m hm
    obtain ⟨key, hkey, hdone⟩ := hsound.answered d hanswered
    exact ⟨key, passedKey_eq_some.mp hkey, hdone⟩
  refine ⟨hdone, fun key => (holds_reachable hsound.layer).spaced, hsound.single, ?_⟩
  intro m hnone
  refine ⟨recordHandler_keyless hnone, fun hm => ?_⟩
  obtain ⟨key, hpasses, _⟩ := hdone m hm
  exact hnone ⟨key, hpasses⟩

/-- Two deliveries of one message. -/
def sampleFeed : Feed Bool where
  message _ := "evt-1"
  body _ := "\x7b\x7d"

theorem sampleFeed_key (d : Bool) : sampleFeed.key Python.sample sampleSha256 d = some sampleKey :=
  passedKey_eq_some.mpr (passes_bodyKey ((if_pos (by simp)).trans sample_loads))

theorem done_once_sampleFeed : ∃ s : Intake Bool, "evt-1" ∈ s.deleted ∧
    DoneOnce Python.sample sampleSha256 sampleFeed s := by
  let l : Limits := limits oneHour
  have hzero : (0 : ℚ) ≤ 0 + l.maxDuration := by decide +kernel
  let running : Callers Bool String := Callers.start.move true (.running 0 (0 + l.expiresAfter))
    (Layer.empty.setItem sampleKey (some (.inProgress 0 (0 + l.expiresAfter))))
  have hrunning : running.phase true = .running 0 (0 + l.expiresAfter) := Callers.move_phase_self
  let answered := running.move true .answered (running.layer.complete l sampleKey)
  have hanswered : answered.phase true = .answered := Callers.move_phase_self
  have hreturned : Returned Python.sample sampleSha256 "\x7b\x7d" (answered.phase true) :=
    returned_of_answered (passedKey_eq_some.mp (sampleFeed_key true)) hanswered
  have hbegin : Callers.Step l (sampleFeed.key Python.sample sampleSha256) .start running :=
    .begin (sampleFeed_key true) rfl nofun hzero
  have hcomplete : Callers.Step l (sampleFeed.key Python.sample sampleSha256) running answered :=
    .complete (sampleFeed_key true) hrunning le_rfl
  have hreach : ReflTransGen (IntakeStep Python.sample sampleSha256 oneHour sampleFeed) .start
      ⟨answered, insert "evt-1" ∅⟩ :=
    ((ReflTransGen.single (.handle hbegin)).tail (.handle hcomplete)).tail
      (.acknowledge (d := true) hreturned)
  exact ⟨_, Set.mem_insert _ _, done_once hreach⟩

end IdempotentProcessor
