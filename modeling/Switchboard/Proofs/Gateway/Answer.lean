import Switchboard.Gateway.Dispatch
import Switchboard.Proofs.Dialogue.Runs
import Switchboard.Proofs.Envelope.RoundTrip

/-!
# The gateway's answers carry envelopes

An envelope is always written, so that the body of an answer is the text of the envelope and the
operator is told nothing more (`body_eq`). A request is therefore answered just when its envelope is
made, and in the course of the same events (`runs_answer`).
-/

namespace Switchboard.Gateway

open Dialogue (Runs runs_bind runs_finish)

variable {σ : Type}

theorem body_eq (e : Envelope) : body e = (e.render, []) := by
  rw [body, e.toJson_eq]

/-- The fixed text is that of an envelope too. -/
theorem parse_fallbackBody :
    Envelope.parse fallbackBody =
      .ok (.failure .localException ResultCode.localException.message origin) := by
  have same : fallbackBody =
      (Envelope.failure .localException ResultCode.localException.message origin).render := by
    decide
  rw [same]
  exact Envelope.parse_render _

/-- An answer is a dispatch, with the envelope put into text. -/
theorem answer_eq (engine : Call.Engine σ) (requestId : String) (r : Inbound) :
    answer engine requestId r =
      (dispatch engine requestId r).bind fun e => .finish e.render := by
  unfold answer
  simp only [body_eq]
  rfl

theorem runs_answer {engine : Call.Engine σ} {requestId : String} {r : Inbound}
    {events : List (Event (Call.Note σ) Call.Context)} {text : String} :
    Runs (answer engine requestId r) events text ↔
      ∃ e, Runs (dispatch engine requestId r) events e ∧ text = e.render := by
  rw [answer_eq, runs_bind]
  constructor
  · rintro ⟨first, e, later, rfl, run, ends⟩
    obtain ⟨rfl, same⟩ := runs_finish.mp ends
    exact ⟨e, (List.append_nil first).symm ▸ run, same⟩
  · rintro ⟨e, run, same⟩
    exact ⟨events, e, [], (List.append_nil events).symm, run, runs_finish.mpr ⟨rfl, same⟩⟩

/-- Every envelope is written, whatever its texts and whether it has a payload, and is read back as it
was; the fixed text in place of an envelope is never used. So a request is answered in the course of
just the events in which its envelope is made, and that envelope is read from the body of the answer. -/
theorem answer_carries_envelope :
    (∀ e : Envelope, ∃ text, e.toJson = .ok text ∧ Envelope.parse text = .ok e ∧
      body e = (text, [])) ∧
    ∀ {σ : Type} (engine : Call.Engine σ) (requestId : String) (r : Inbound)
      (events : List (Event (Call.Note σ) Call.Context)) (text : String),
      Runs (answer engine requestId r) events text ↔
        ∃ e, Runs (dispatch engine requestId r) events e ∧ e.toJson = .ok text ∧
          Envelope.parse text = .ok e := by
  constructor
  · intro e
    exact ⟨e.render, e.toJson_eq, e.parse_render, body_eq e⟩
  · intro σ engine requestId r events text
    rw [runs_answer]
    constructor
    · rintro ⟨e, run, rfl⟩
      exact ⟨e, run, e.toJson_eq, e.parse_render⟩
    · rintro ⟨e, run, written, -⟩
      rw [e.toJson_eq] at written
      exact ⟨e, run, (Except.ok.inj written).symm⟩

end Switchboard.Gateway
