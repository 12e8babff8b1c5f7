import Switchboard.Proofs.Call.Course
import Switchboard.Proofs.Dialogue.Timing
import Switchboard.Proofs.Plan.Course
import Switchboard.Proofs.Traffic.Attempts

/-!
# How long an attempt takes

An attempt waits for a line and for its replies, each time up to its limit. So it comes to a result
whatever becomes of these, in as many limits as there are waits, and the time that sending takes. For
sending there is no limit: an attempt whose send never ends does not end either (`pass_resolves`). In a
rehearsal the world answers, and the attempt takes as long as one of these passes
(`Rehearsal.converse_resolves`).
-/

namespace Switchboard.Traffic

open Dialogue Event

variable {σ : Type}

namespace Task

/-- How long getting a line and each receive may take. -/
def limit : Task σ → Nat
  | call e _ => e.limit
  | submit config _ => config.callTimeout.toNat

/-- How often a task waits up to its limit: for a line, and for one reply or two. -/
def waits : Task σ → Nat
  | call .. => 3
  | submit .. => 2

variable {t : Task σ} {events : List (Event (Call.Note σ) t.State)}

/-- Whatever a task does, it does nothing to a line, or takes one of the courses within its limits. -/
theorem course_within {result : t.Result} (run : Runs t.dialogue events result) :
    deeds events = [] ∨
      ∃ (errand : Errand) (replies : _) (failure : _),
        errand.Course (deeds events) replies failure ∧ errand.limit = t.limit ∧
          1 + (Deed.receipts (deeds events)).length ≤ t.waits := by
  cases t with
  | call e ctx =>
    obtain ⟨-, replies, failure, course, -, -⟩ := Call.Engine.call_course run
    have receipts := course.receipts_le_two
    exact .inr ⟨_, replies, failure, course, rfl, by simp only [waits]; omega⟩
  | submit config r =>
    obtain ⟨refusal, -, rfl, -⟩ | ⟨-, replies, failure, course, -⟩ := Plan.submit_course run
    · exact .inl rfl
    · have receipts := course.receipts_le_one fun _ => id
      exact .inr ⟨_, replies, failure, course, rfl, by simp only [waits]; omega⟩

/-- All that a task waits for has a limit, and there is not more of it than the task's waits. -/
theorem patience_le {result : t.Result} (run : Runs t.dialogue events result) :
    Deed.patience (deeds events) ≤ t.waits * t.limit := by
  obtain nothing | ⟨errand, replies, failure, course, limit, receipts⟩ := course_within run
  · rw [nothing]
    exact Nat.zero_le _
  · rw [course.patience_eq, limit]
    exact Nat.mul_le_mul_right _ receipts

/-- When a task comes to send, it has asked for a line and done nothing else. -/
theorem deeds_before_send {state : t.State} {message : Wire.Message}
    {next : Option Fault → Dialogue (Call.Note σ) t.State t.Result}
    (leads : Leads t.dialogue events (.ask state (.send message) next)) :
    ∃ (errand : Errand) (opened : Opened),
      deeds events = [errand.opening opened] ∧ errand.limit = t.limit := by
  obtain ⟨later, result, run⟩ := (Dialogue.ask state (.send message) next).exists_runs
  have whole := leads.trans run
  obtain ⟨fault?, later, rfl, -⟩ := runs_ask.mp run
  obtain nothing | ⟨errand, replies, failure, course, limit, -⟩ := course_within whole
  · simp at nothing
  · rw [deeds_append, deeds_asked] at course
    obtain ⟨opened, before⟩ := course.before_send rfl
    exact ⟨errand, opened, before, limit⟩

end Task

/-- A task is over in time, but for the time that sending takes, or its send never ends. -/
theorem ended_or_sending {t : Task σ} {timed : List (Event (Call.Note σ) t.State × Nat)}
    {standing : Standing t.State t.Result} (passes : Passes t.dialogue timed standing) :
    (∃ result, standing = .ended result ∧
        elapsed timed ≤ t.waits * t.limit + sending timed) ∨
      ∃ state message, standing = .waiting state (.send message) ∧ elapsed timed ≤ t.limit := by
  have bound := passes.elapsed_le
  cases standing with
  | ended result =>
    have patience := Task.patience_le passes.runs
    exact .inl ⟨result, rfl, by omega⟩
  | waiting state request =>
    obtain ⟨message, next, rfl, leads⟩ := passes.leads_to_send
    obtain ⟨errand, opened, before, limit⟩ := Task.deeds_before_send leads
    have unsent : sending timed = 0 := sending_eq_zero (by rw [before]; rfl)
    have patience : Deed.patience [errand.opening opened] = t.limit := limit
    rw [before, patience, unsent] at bound
    exact .inr ⟨state, message, rfl, bound⟩

/-- Connecting, sending and receiving may each end after any time, or never, depending on all that has
happened. Every call, and every submission of a plan, comes to a result, unless its send never ends. A
call takes three of its limits at most, and a submission two, and the time its send takes. -/
theorem pass_resolves (task : Task σ)
    (react : List (Event (Call.Note σ) task.State × Nat) → (request : Request) →
      Reaction request) :
    let run := pass react [] task.dialogue
    (∃ result, run.2 = .ended result ∧
        elapsed run.1 ≤ task.waits * task.limit + sending run.1) ∨
      ∃ state message, run.2 = .waiting state (.send message) ∧
        react run.1 (.send message) = .never ∧ elapsed run.1 ≤ task.limit := by
  intro run
  refine (ended_or_sending (passes_pass [] task.dialogue)).imp id ?_
  rintro ⟨state, message, waiting, bound⟩
  have unanswered := await_of_waiting [] (Prod.ext rfl waiting)
  exact ⟨state, message, waiting, (Request.await_eq_none unanswered).2, bound⟩

end Switchboard.Traffic
