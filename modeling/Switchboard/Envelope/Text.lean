import Switchboard.Envelope
import Switchboard.Fault
import Switchboard.Json.Datum
import Switchboard.Json.Reader

/-!
# Envelopes as text

An envelope is written as a JSON object; the payload is left out when there is none. It is read from
an object, or from the list of its fields.
-/

namespace Switchboard.Envelope

def members (e : Envelope) : Json.Members :=
  [("code", .integer e.code.number), ("message", .text e.message), ("originPoint", .text e.origin)]
    ++ (e.payload.map fun payload => ("payload", Json.Value.text payload)).toList

def render (e : Envelope) : String :=
  (Json.Value.object e.members).render

def toJson (e : Envelope) : Except Fault String :=
  (Json.encode (.record e.members)).mapError .json

/-- The fields read so far. -/
structure Draft where
  code : Option ResultCode := none
  message : Option String := none
  origin : Option String := none
  payload : Option (Option String) := none
  deriving DecidableEq, Repr

def Draft.finish (d : Draft) : Except String Envelope :=
  match d.code, d.message, d.origin with
  | none, _, _ => .error "code"
  | _, none, _ => .error "message"
  | _, _, none => .error "originPoint"
  | some code, some message, some origin => .ok ⟨code, message, origin, d.payload.getD none⟩

open Shape in
def record {m : Type → Type} [Source m] : Record m Draft Envelope where
  name := "ResultEnvelope"
  blank := {}
  fields :=
    [{ name := "code", isGiven := (·.code.isSome)
       read := fun d => do
         let n ← Source.integer (.signed 32)
         match ResultCode.ofNumber? n with
         | some code => pure { d with code := some code }
         | none => Source.refuse (.unknownCode n) },
     { name := "message", isGiven := (·.message.isSome)
       read := fun d => do pure { d with message := some (← Source.text) } },
     { name := "originPoint", isGiven := (·.origin.isSome)
       read := fun d => do pure { d with origin := some (← Source.text) } },
     { name := "payload", mayLack := true, isGiven := (·.payload.isSome)
       read := fun d => do pure { d with payload := some (← Source.optional Source.text) } }]
  finish := Draft.finish

def parse (text : String) : Except Fault Envelope :=
  (Json.decode (Json.Reader.record record) text).mapError .json

end Switchboard.Envelope
