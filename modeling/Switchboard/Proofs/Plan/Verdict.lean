import Switchboard.Proofs.Call.Course
import Switchboard.Proofs.Plan.Course

/-!
# When a plan counts as queued

The success code also stands for replies that queue nothing, and a submission that fails on the way has
an envelope as well. `submit_success_iff` says that the envelope is a success just if the peer opens a
line, takes the message and replies that the plan is queued (`Queued`). What a reply has for a payload is
never handed on.
-/

namespace Switchboard

/-- Only one state byte says that a plan is queued. -/
theorem Outcome.ofWire_eq_queued {state : UInt8} :
    ofWire state = .protocol .queued ↔ state = 0x02 :=
  ofWire_eq_iff (by decide)

namespace Envelope

@[simp] theorem code_report (origin : String) (outcome : Outcome) (last : Option Wire.Decoded) :
    (report origin outcome last).code = outcome.code := by
  unfold report
  split <;> rfl

/-- Only what the peer calls a success has a payload. -/
theorem payload_report {outcome : Outcome} (other : outcome ≠ .ok) (origin : String)
    (last : Option Wire.Decoded) : (report origin outcome last).payload = none := by
  unfold report
  split
  · exact absurd rfl other
  · rfl
  · rfl

end Envelope

/-- No step that fails makes a success of an attempt. -/
theorem Deed.code_ne_success {deed : Deed} {outcome : Outcome}
    (failed : deed.failure? = some outcome) : outcome.code ≠ .success := by
  cases deed with
  | discard => cases failed
  | ask request answer =>
    cases request with
    | «open» station affinity limit => cases answer <;> cases failed <;> decide
    | send message =>
      obtain ⟨fault, -, rfl⟩ := Option.map_eq_some_iff.mp failed
      decide
    | receive limit =>
      cases answer with
      | message m =>
        simp only [Deed.failure?, Received.failure?] at failed
        split at failed <;> cases failed
        decide
      | fault f | late => cases failed; decide

theorem Errand.Course.code_ne_success {a : Errand} {deeds : List Deed}
    {replies : List Wire.Decoded} {failure : Outcome}
    (course : a.Course deeds replies (some failure)) : failure.code ≠ .success := by
  have failed : failure ∈ Deed.failures deeds := by simp [course.failures_eq]
  obtain ⟨deed, -, failed⟩ := List.mem_filterMap.mp failed
  exact Deed.code_ne_success failed

namespace Plan

open Dialogue Event

variable {σ : Type}

/-- What a plan has to be for its station to be asked. -/
structure PlanRequest.Submittable (r : PlanRequest) : Prop where
  station : Text.isBlank r.station = false
  command : Text.isBlank r.command = false
  kind : r.stationKind ≠ .system
  plain : r.stationKind = .plain → lowerCommand r.command ∈ stationCommands

theorem PlanRequest.refusal?_eq_none {r : PlanRequest} : r.refusal? = none ↔ r.Submittable := by
  unfold refusal?
  constructor
  · intro h
    split at h
    · cases h
    · next filled =>
      split at h
      · cases h
      · next kind =>
        split at h
        · cases h
        · next plain =>
          simp only [Bool.or_eq_true, not_or, Bool.not_eq_true] at filled
          refine ⟨filled.1, filled.2, kind, fun same => ?_⟩
          simpa [same] using plain
  · intro ⟨station, command, kind, plain⟩
    by_cases same : r.stationKind = .plain
    · simp [station, command, same, plain same]
    · simp [station, command, kind, same]

/-- A reply is a success just if it says that the plan is queued. -/
theorem code_verdict {origin : String} {reply : Wire.Decoded} :
    (verdict origin reply).code = .success ↔ reply.marker = 0x02 := by
  rw [← Outcome.ofWire_eq_queued]
  unfold verdict
  dsimp only
  split
  · next queued => simp [queued, Outcome.code, Outcome.ok]
  · next other =>
    split
    · simp [other]
    · next failed => simpa [other, Envelope.isSuccess] using failed

theorem payload_verdict (origin : String) (reply : Wire.Decoded) :
    (verdict origin reply).payload = none := by
  unfold verdict
  dsimp only
  split
  · rfl
  · split
    · rfl
    · next failed =>
      refine Envelope.payload_report (fun finished => failed ?_) _ _
      simp [finished, Envelope.isSuccess, Outcome.code, Outcome.ok]

section Success

variable {config : Config} {r : PlanRequest}
  {respond : List (Event (Call.Note σ) Unit) → (request : Request) → request.Answer}

/-- The peer opens a line in time, takes the message, and replies in time that the plan is queued. -/
def Queued (config : Config) (r : PlanRequest)
    (respond : List (Event (Call.Note σ) Unit) → (request : Request) → request.Answer) : Prop :=
  let opening : Request := .open r.station r.sentCommand config.callTimeout.toNat
  let sending : Request := .send (r.message config)
  let receiving : Request := .receive config.callTimeout.toNat
  ∃ endpoint m reply,
    respond [] opening = .line endpoint ∧
    respond [.asked () opening (.line endpoint)] sending = none ∧
    respond [.asked () opening (.line endpoint), .asked () sending none] receiving = .message m ∧
    Wire.decodeReply m = .ok reply ∧ reply.marker = 0x02

/-- If the peer does all this, a plan that can be submitted is a success. -/
theorem success_of_queued (submittable : r.Submittable) (queued : Queued config r respond) :
    (play respond [] (submit config r)).2.code = .success := by
  obtain ⟨endpoint, m, reply, opened, sent, received, decoded, marker⟩ := queued
  have accepted := PlanRequest.refusal?_eq_none.mpr submittable
  have run : Runs (submit config r : Dialogue (Call.Note σ) Unit Envelope)
      [.asked () (.open r.station r.sentCommand config.callTimeout.toNat) (.line endpoint),
        .asked () (.send (r.message config)) none,
        .asked () (.receive config.callTimeout.toNat) (.message m)]
      (verdict config.stationName reply) := by
    unfold submit
    simp only [accepted, bind_eq, pure_eq, openLine_bind, send_bind, receive_bind]
    refine runs_ask.mpr ⟨Opened.line endpoint, _, rfl, ?_⟩
    refine runs_ask.mpr ⟨none, _, rfl, ?_⟩
    refine runs_ask.mpr ⟨Received.message m, _, rfl, ?_⟩
    simp only [decoded]
    exact .here _
  rw [play_eq_iff.mpr ⟨run, opened, sent, received, trivial⟩]
  exact code_verdict.mpr marker

/-- A submission whose answers are the peer's is a success only if the peer has done all this. -/
theorem queued_of_success {events : List (Event (Call.Note σ) Unit)} {envelope : Envelope}
    (run : Runs (submit config r) events envelope) (answered : Answered respond [] events)
    (success : envelope.code = .success) : r.Submittable ∧ Queued config r respond := by
  obtain ⟨refusal, -, -, rfl⟩ | ⟨accepted, replies, failure, course, concluded, quiet⟩ :=
    submit_course run
  · cases success
  · refine ⟨PlanRequest.refusal?_eq_none.mp accepted, ?_⟩
    obtain ⟨outcome, rfl, rfl⟩ | ⟨rfl, reply, only, rfl⟩ := conclusion_eq_some.mp concluded
    · rw [Envelope.code_report] at success
      exact absurd success course.code_ne_success
    · -- without a failure the events are the three deeds of the course, each answered by the peer
      rw [quiet rfl] at answered
      generalize deeds events = done at course answered
      cases course with
      | @answered endpoint received reply read last =>
        obtain rfl := Option.some.inj only
        obtain ⟨m, rfl, decoded⟩ := Received.message_of_reply? read
        obtain ⟨opened, sent, received, -⟩ := answered
        exact ⟨endpoint, m, reply, opened, sent, received, decoded, code_verdict.mp success⟩
      | concluded endpoint read more next => exact more.elim

/-- A submission never has a payload. -/
theorem payload_submit {events : List (Event (Call.Note σ) Unit)} {envelope : Envelope}
    (run : Runs (submit config r) events envelope) : envelope.payload = none := by
  obtain ⟨refusal, -, -, rfl⟩ | ⟨-, replies, failure, course, concluded, -⟩ := submit_course run
  · rfl
  · obtain ⟨outcome, rfl, rfl⟩ | ⟨-, reply, -, rfl⟩ := conclusion_eq_some.mp concluded
    · have other : outcome ≠ .ok := by
        rintro rfl
        exact course.code_ne_success rfl
      exact Envelope.payload_report other _ _
    · exact payload_verdict _ _

/-- Whatever the peer answers to a submission, its envelope is a success just if the plan could be
submitted and the peer opened a line in time, took the message, and replied in time, in a message that can
be decoded, that the plan is queued. In no case is there a payload. -/
theorem submit_success_iff (config : Config) (r : PlanRequest)
    (respond : List (Event (Call.Note σ) Unit) → (request : Request) → request.Answer) :
    let run := play respond [] (submit config r)
    (run.2.code = .success ↔ r.Submittable ∧ Queued config r respond) ∧ run.2.payload = none := by
  intro run
  obtain ⟨runs, answered⟩ := play_eq_iff.mp (Prod.eta run)
  exact ⟨⟨queued_of_success runs answered, fun ⟨submittable, queued⟩ =>
    success_of_queued submittable queued⟩, payload_submit runs⟩

/-- A plan is queued, and what the reply has for a text and a value makes no payload. -/
theorem submit_success_queued :
    let r : PlanRequest := { station := "orders", stationKind := .api, command := "nightly" }
    let reply : Wire.Message :=
      [[2, 0x02, Wire.Tag.status.byte, Wire.Tag.jsonValue.byte, Wire.endByte], Utf8.encode "tonight",
        Utf8.encode "7"]
    let respond : List (Event (Call.Note Unit) Unit) → (request : Request) → request.Answer
      | _, .open .. => Opened.line "10.0.0.1:9000"
      | _, .send _ => (none : Option Fault)
      | _, .receive _ => Received.message reply
    let (_, envelope) := play respond [] (submit {} r)
    r.Submittable ∧ Queued {} r respond ∧ envelope.code = .success ∧ envelope.payload = none := by
  intro r reply respond
  have submittable : r.Submittable := {
    station := by decide
    command := by decide
    kind := by decide
    plain := nofun }
  have queued : Queued {} r respond := ⟨_, reply, _, rfl, rfl, rfl, rfl, rfl⟩
  obtain ⟨success, payload⟩ := submit_success_iff {} r respond
  exact ⟨submittable, queued, success.mpr ⟨submittable, queued⟩, payload⟩

end Success

end Plan

end Switchboard
