import Switchboard.Plan.Submit
import Switchboard.Proofs.Dialogue.Course

/-!
# The course of a submitted plan

A plan that is refused here does nothing to a line. Any other takes one of the courses that an attempt
can take, and waits for one reply only.
-/

namespace Switchboard.Plan

open Dialogue Event

variable {σ : Type}

/-- What submitting a plan asks for: a line, and one reply. -/
def PlanRequest.errand (r : PlanRequest) (config : Config) : Errand where
  station := r.station
  affinity := r.sentCommand
  limit := config.callTimeout.toNat
  message := r.message config
  goesOn _ := False

/-- The envelope for the failure that ended a submission, or for the reply to it. -/
def conclusion (origin : String) (replies : List Wire.Decoded) (failure : Option Outcome) :
    Option Envelope :=
  (failure.map fun outcome => .report origin outcome none).or (replies.head?.map (verdict origin))

theorem conclusion_eq_some {origin : String} {replies : List Wire.Decoded} {failure : Option Outcome}
    {envelope : Envelope} :
    conclusion origin replies failure = some envelope ↔
      (∃ outcome, failure = some outcome ∧ .report origin outcome none = envelope) ∨
      (failure = none ∧ ∃ reply, replies.head? = some reply ∧ verdict origin reply = envelope) := by
  cases failure with
  | some outcome => simp [conclusion]
  | none => simp [conclusion]

/-- A plan is refused, or its submission takes one of the courses and its envelope tells which. Unless
something fails, no note is taken of it. -/
theorem submit_course {config : Config} {r : PlanRequest} {envelope : Envelope}
    {events : List (Event (Call.Note σ) Unit)} (run : Runs (submit config r) events envelope) :
    (∃ refusal, r.refusal? = some refusal ∧ events = [] ∧
      envelope = .failure .argumentError refusal.message config.stationName) ∨
    (r.refusal? = none ∧ ∃ replies failure,
      (r.errand config).Course (deeds events) replies failure ∧
      conclusion config.stationName replies failure = some envelope ∧
      (failure = none → events = (deeds events).map Deed.event)) := by
  unfold submit at run
  cases refused : r.refusal? with
  | some refusal =>
    simp only [refused] at run
    obtain ⟨rfl, rfl⟩ := runs_finish.mp run
    exact .inl ⟨refusal, rfl, rfl, rfl⟩
  | none =>
    refine .inr ⟨rfl, ?_⟩
    simp only [refused, bind_eq, pure_eq, openLine_bind, send_bind, receive_bind, tell_bind,
      discardLine_bind, runs_ask] at run
    obtain ⟨opened, later, rfl, run⟩ := run
    cases opened with
    | unavailable =>
      obtain ⟨rfl, rfl⟩ := runs_finish.mp run
      exact ⟨[], _, .unopened .unavailable rfl, rfl, by simp⟩
    | late =>
      simp only [runs_note, runs_finish] at run
      obtain ⟨_, rfl, rfl, rfl⟩ := run
      exact ⟨[], _, .unopened .late rfl, rfl, by simp⟩
    | line endpoint =>
      simp only [runs_ask] at run
      obtain ⟨fault?, later, rfl, run⟩ := run
      cases fault? with
      | some fault =>
        simp only [runs_note, runs_discard, runs_finish] at run
        obtain ⟨_, rfl, _, rfl, rfl, rfl⟩ := run
        exact ⟨[], _, .unsent endpoint fault, rfl, by simp⟩
      | none =>
        simp only [runs_ask] at run
        obtain ⟨received, later, rfl, run⟩ := run
        cases received with
        | late =>
          simp only [runs_discard, runs_finish] at run
          obtain ⟨_, rfl, rfl, rfl⟩ := run
          exact ⟨[], _, .unanswered endpoint rfl, rfl, by simp⟩
        | fault fault =>
          simp only [runs_note, runs_discard, runs_finish] at run
          obtain ⟨_, rfl, _, rfl, rfl, rfl⟩ := run
          exact ⟨[], _, .unanswered endpoint rfl, rfl, by simp⟩
        | message m =>
          cases decoded : Wire.decodeReply m with
          | ok reply =>
            simp only [decoded, runs_finish] at run
            obtain ⟨rfl, rfl⟩ := run
            exact ⟨[reply], none, .answered endpoint (Received.reply?_message decoded) id, rfl,
              fun _ => rfl⟩
          | error flaw =>
            simp only [decoded, runs_note, runs_discard, runs_finish] at run
            obtain ⟨_, rfl, _, rfl, rfl, rfl⟩ := run
            exact ⟨[], _, .unanswered endpoint (Received.failure?_message decoded), rfl, by simp⟩

end Switchboard.Plan
