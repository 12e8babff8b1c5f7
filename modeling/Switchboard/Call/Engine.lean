import Switchboard.Call.Handler
import Switchboard.Dialogue
import Switchboard.Json.Reader

/-!
# Calls

A call sends one request and waits for its acknowledgement. An acknowledgement other than "running"
is the result; after "running" the result follows as a second reply. Every way a call can end gives an
envelope.

A line that an attempt left in the middle of something, or on which the peer talked nonsense, is
discarded.
-/

namespace Switchboard.Call

open Dialogue

variable {σ α : Type}

/-- A call in progress, which is known by its context. -/
abbrev Attempt (σ : Type) := Dialogue (Note σ) Context

structure Engine (σ : Type) where
  config : Config
  handlers : Registry σ

def notice (n : Notice) : Attempt σ Unit :=
  tell (.notice n)

/-- End a call. The first outcome stands. -/
def settle (ctx : Context) (outcome : Outcome) (phase : Phase) : Attempt σ Context := do
  if ctx.outcome.isSet then notice (.secondOutcome ctx.outcome outcome)
  pure (ctx.settle outcome phase)

def fail (ctx : Context) (outcome : Outcome) : Attempt σ Context :=
  settle ctx outcome .failed

namespace Engine

/-- How long connecting and each receive may take. -/
def limit (e : Engine σ) : Nat :=
  e.config.callTimeout.toNat

/-- Receive and decode one reply, or end the call. -/
def receiveReply (e : Engine σ) (ctx : Context) (endpoint : String) :
    Attempt σ (Except Context Wire.Decoded) := do
  match ← receive ctx e.limit with
  | .late =>
    notice (.receiveTimedOut ctx.station endpoint e.limit)
    discardLine
    return .error (← fail ctx (.remote .timedOut))
  | .fault fault =>
    notice (.receiveFailed ctx.station endpoint fault)
    discardLine
    return .error (← fail ctx (.local .recvError))
  | .message m =>
    match Wire.decodeReply m with
    | .ok reply => return .ok reply
    | .error flaw =>
      notice (.replyRefused ctx.station endpoint (.frame flaw))
      discardLine
      return .error (← fail ctx (.local .localException))

/-- What follows once the request is sent. -/
def awaitResult (e : Engine σ) (ctx : Context) (endpoint : String) : Attempt σ Context := do
  match ← e.receiveReply ctx endpoint with
  | .error ctx => pure ctx
  | .ok ack =>
    let ctx := ctx.absorb ack
    if Outcome.ofWire ack.marker ≠ .running then
      settle ctx (.ofWire ack.marker) .completed
    else
      let ctx := ctx.enter .running
      match ← e.receiveReply ctx endpoint with
      | .error ctx => pure ctx
      | .ok result => settle (ctx.absorb result) (.ofWire result.marker) .completed

/-- The exchange of messages, from getting a line to the outcome. -/
def exchange (e : Engine σ) (ctx : Context) : Attempt σ Context := do
  match ← openLine ctx ctx.station ctx.requestId e.limit with
  | .unavailable => fail ctx (.local .notReady)
  | .late =>
    notice (.connectTimedOut ctx.station e.limit)
    fail ctx (.remote .timedOut)
  | .line endpoint =>
    match ← send ctx (ctx.request e.config) with
    | some fault =>
      notice (.sendFailed ctx.station endpoint fault)
      discardLine
      fail ctx (.local .sendError)
    | none => e.awaitResult ((ctx.enter .sent).enter .awaitingAck) endpoint

/-- Make one call. -/
def call (e : Engine σ) (ctx : Context) : Attempt σ (Envelope × Context) := do
  let (chain, notes) := if ctx.simple then ([], []) else e.handlers.instantiate
  tellAll notes
  let (chain, ctx, notes) := Chain.before chain ctx
  tellAll notes
  let ctx ← e.exchange (ctx.enter .prepared)
  let envelope := Envelope.report e.config.stationName ctx.outcome ctx.lastReply
  let ctx := if envelope.isSuccess then { ctx with payload := envelope.payload } else ctx
  if !envelope.isSuccess then
    notice (.callFailed ctx.station ctx.command ctx.outcome envelope.code)
  tellAll (Chain.after chain ctx).2
  pure (envelope, ctx)

/-- Call with an argument written as JSON, which may have failed. -/
def callJson (e : Engine σ) (requestId station command : String)
    (argument : Except Json.Flaw String) : Attempt σ Envelope := do
  match argument with
  | .error flaw =>
    let fault := Fault.json flaw
    notice (.argumentRefused station command fault)
    pure (.failure .argumentError fault.message e.config.stationName)
  | .ok argument =>
    let ctx : Context := { station, command, requestId, outgoing := { argument := some argument } }
    let (envelope, _) ← e.call ctx
    pure envelope

/-- Call with an argument written as JSON and read the payload, which counts as null when there is
none. -/
def callTyped (e : Engine σ) (reader : Json.Reader α) (requestId station command : String)
    (argument : Except Json.Flaw String) : Attempt σ (Except Envelope α) := do
  let envelope ← e.callJson requestId station command argument
  if !envelope.isSuccess then return .error envelope
  match Json.decode reader (envelope.payload.getD "null") with
  | .ok a => return .ok a
  | .error flaw =>
    let text := "result payload did not decode: " ++ (Fault.json flaw).message
    return .error (.failure .localException text envelope.origin)

end Engine

end Switchboard.Call
