import Switchboard.Envelope.Text
import Switchboard.Proofs.Json.Record

/-!
# An envelope is read as it was written

Each member of a written envelope is read into a draft that lacks it. A payload that is left out stays
missing, an empty one is there, so that the members written make up the envelope (`fills_members`).
-/

namespace Switchboard.Envelope

open Json (intChars quoteChars quoted_quoteChars isObject_chars)
open Json.Reader (Enters Fills takes_text takes_integer takes_optional)

theorem toJson_eq (e : Envelope) : e.toJson = .ok e.render := by
  rw [toJson, Json.encode_record]
  rfl

section

variable {d : Draft}

theorem enters_code (code : ResultCode) (new : d.code = none) :
    Enters record d "code" (intChars code.number) { d with code := some code } := by
  refine .field rfl (by simp [new]) fun space rest blank delimited => ?_
  have contained : (Shape.IntKind.signed 32).contains code.number := by
    cases code <;> decide
  have range : -12 ≤ code.number ∧ code.number ≤ 0 := by
    cases code <;> decide
  refine (takes_integer contained (by omega) (by omega) blank delimited).bind_nil ?_
  rw [ResultCode.ofNumber?_number]
  exact .pure _

theorem enters_message (message : String) (new : d.message = none) :
    Enters record d "message" (quoteChars message) { d with message := some message } :=
  .field rfl (by simp [new]) ((takes_text .text (quoted_quoteChars message)).map _)

theorem enters_origin (origin : String) (new : d.origin = none) :
    Enters record d "originPoint" (quoteChars origin) { d with origin := some origin } :=
  .field rfl (by simp [new]) ((takes_text .text (quoted_quoteChars origin)).map _)

theorem enters_payload (payload : String) (new : d.payload = none) :
    Enters record d "payload" (quoteChars payload) { d with payload := some (some payload) } := by
  have takes := takes_text .text (quoted_quoteChars payload)
  exact .field rfl (by simp [new]) ((takes_optional takes (by decide) (by decide)).map _)

end

theorem fills_members (e : Envelope) :
    Fills record {} e.members.written ⟨e.code, e.message, e.origin, e.payload.map some⟩ := by
  obtain ⟨code, message, origin, payload⟩ := e
  refine .cons (enters_code code rfl) (.cons (enters_message message rfl)
    (.cons (enters_origin origin rfl) ?_))
  cases payload with
  | none => exact .nil _
  | some payload => exact .cons (enters_payload payload rfl) (.nil _)

/-- Whatever its texts, an envelope is read back from what is written of it. -/
theorem parse_render (e : Envelope) : parse e.render = .ok e := by
  have finished : Draft.finish ⟨e.code, e.message, e.origin, e.payload.map some⟩ = .ok e := by
    obtain ⟨code, message, origin, _ | payload⟩ := e <;> rfl
  have takes := e.fills_members.takes finished (isObject_chars e.members)
  have read := takes.decode_render
  rw [parse, render, read]
  rfl

-- An empty payload is written, and no more is escaped than has to be.
example :
    render ⟨.denied, "\"\\\x01😀", "é", some ""⟩ =
      "\x7b\"code\":-11,\"message\":\"\\\"\\\\\\u0001😀\",\"originPoint\":\"é\",\"payload\":\"\"\x7d" := by
  decide

end Switchboard.Envelope
