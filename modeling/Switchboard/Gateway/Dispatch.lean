import Switchboard.Call.Engine
import Switchboard.Text.Blank
import Switchboard.Gateway.Body

/-!
# Requests from the gateway

The gateway turns an inbound request into a call and answers with the envelope. A request without a
context gets one that names the request and its bearer. When no node replied, the result is the
gateway's own.
-/

namespace Switchboard.Gateway

variable {σ : Type}

structure Inbound where
  station : String
  command : String
  argument : Option String := none
  context : Option String := none
  token : Option String := none
  deriving DecidableEq, Repr

/-- The context of a request that has none. -/
def defaultContext (requestId : String) (token : Option String) : Except Fault String :=
  (Json.encode (.record (("requestId", .text requestId) ::
    (token.map fun t => ("bearer", Json.Value.text t)).toList))).mapError .json

def Inbound.contextText (r : Inbound) (requestId : String) : Except Fault String :=
  match r.context with
  | some context => .ok context
  | none => defaultContext requestId r.token

/-- The call that a request asks for. -/
def Inbound.call (r : Inbound) (requestId context : String) : Call.Context where
  station := r.station
  command := r.command
  requestId := requestId
  outgoing := { argument := r.argument, context := some context }

def dispatch (e : Call.Engine σ) (requestId : String) (r : Inbound) :
    Call.Attempt σ Envelope := do
  if Text.isBlank r.station || Text.isBlank r.command then
    return .failure .argumentError "station and command are required" origin
  match r.contextText requestId with
  | .error fault =>
    Call.notice (.contextRefused fault)
    return .failure .localException fault.message origin
  | .ok context =>
    let (envelope, ctx) ← e.call (r.call requestId context)
    if ctx.lastReply.isNone then return { envelope with origin }
    return envelope

/-- The body of the answer to a request. -/
def answer (e : Call.Engine σ) (requestId : String) (r : Inbound) : Call.Attempt σ String := do
  let (text, notices) := body (← dispatch e requestId r)
  Dialogue.tellAll (notices.map .notice)
  return text

end Switchboard.Gateway
