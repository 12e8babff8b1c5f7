import Switchboard.Call.Handler
import Switchboard.Dialogue
import Switchboard.Plan.Info
import Switchboard.Text.Blank

/-!
# Submitting plans

A plan is sent to the station it is for, in the form that the kind of station asks for, and the
station says whether it was queued. What a station of the kind does not take is refused here, before
anything is sent.
-/

namespace Switchboard.Plan

open Dialogue

variable {σ : Type}

inductive StationKind where
  | api | vote | notify
  /-- A station of its own making, which takes only commands to stations. -/
  | plain
  /-- A built-in station, which takes no plans. -/
  | system
  deriving DecidableEq, Repr

structure PlanRequest where
  station : String
  stationKind : StationKind
  command : String
  argument : Option String := none
  context : Option String := none
  kind : Kind := .none
  value : Int32 := 0
  repeats : Int32 := 1
  description : Option String := none
  noSkip : Bool := false
  time : Option Instant := none
  skips : Int32 := 0
  deriving DecidableEq, Repr

/-- The commands that every station understands. -/
def stationCommands : List String := ["pause", "close", "resume"]

/-- A command as plain stations take it. Only letters of the basic alphabet are changed to lower case:
no other letter becomes one of those in a station command. -/
def lowerCommand (command : String) : String :=
  command.map Char.toLower

/-- Why a plan is refused. -/
inductive Refusal where
  | blank | systemStation | notStationCommand
  deriving DecidableEq, Repr

def Refusal.message : Refusal → String
  | .blank => "station and command are required"
  | .systemStation => "plans are not allowed on system stations"
  | .notStationCommand => "plain stations only accept pause, close and resume"

namespace PlanRequest

/-- The record that is sent. -/
def info (r : PlanRequest) : Info :=
  Info.normalized {
    kind := r.kind
    value := r.value
    repeats := r.repeats
    description := r.description
    noSkip := r.noSkip
    time := r.time.elim 0 Instant.seconds
    skips := r.skips }

def refusal? (r : PlanRequest) : Option Refusal :=
  if Text.isBlank r.station || Text.isBlank r.command then some .blank
  else if r.stationKind = .system then some .systemStation
  else if r.stationKind = .plain && !stationCommands.contains (lowerCommand r.command) then
    some .notStationCommand
  else none

/-- The command that is sent. -/
def sentCommand (r : PlanRequest) : String :=
  if r.stationKind = .plain then lowerCommand r.command else r.command

def message (r : PlanRequest) (config : Config) : Wire.Message :=
  let plan := some r.info.pack
  let command := some (Utf8.encode r.sentCommand)
  let argument := r.argument.map Utf8.encode
  let context := r.context.map Utf8.encode
  let key := some (Utf8.encode config.serviceKey)
  match r.stationKind with
  | .api | .vote => Wire.Descriptor.planCall.fill [plan, context, command, argument, key]
  | .notify => Wire.Descriptor.planPublish.fill [plan, context, command, argument, key]
  | .plain | .system => Wire.Descriptor.planCommand.fill [plan, command, argument, key]

end PlanRequest

/-- The envelope for a scheduler's reply: success only if the plan was queued, and never a payload. -/
def verdict (origin : String) (reply : Wire.Decoded) : Envelope :=
  let state := Outcome.ofWire reply.marker
  if state = .protocol .queued then { Envelope.report origin .ok (some reply) with payload := none }
  else
    let envelope := Envelope.report origin state (some reply)
    if envelope.isSuccess then
      { envelope with
        code := .logicalError
        message := "plan was not queued (" ++ state.shown ++ ")"
        payload := none }
    else envelope

/-- Submit a plan. -/
def submit (config : Config) (r : PlanRequest) : Dialogue (Call.Note σ) Unit Envelope := do
  let origin := config.stationName
  let limit := config.callTimeout.toNat
  let ended (outcome : Outcome) := Envelope.report origin outcome none
  if let some refusal := r.refusal? then
    return .failure .argumentError refusal.message origin
  match ← openLine () r.station r.sentCommand limit with
  | .unavailable => return ended (.local .notReady)
  | .late =>
    tell (.notice (.planConnectTimedOut r.station))
    return ended (.remote .timedOut)
  | .line _ => pure ()
  if let some fault ← send () (r.message config) then
    tell (.notice (.planSendFailed r.station fault))
    discardLine
    return ended (.local .sendError)
  match ← receive () limit with
  | .late =>
    discardLine
    return ended (.remote .timedOut)
  | .fault fault =>
    tell (.notice (.planReceiveFailed r.station fault))
    discardLine
    return ended (.local .recvError)
  | .message m =>
    match Wire.decodeReply m with
    | .ok reply => return verdict origin reply
    | .error flaw =>
      tell (.notice (.planReplyRefused r.station (.frame flaw)))
      discardLine
      return ended (.local .localException)

end Switchboard.Plan
