import Switchboard.Config
import Switchboard.Envelope

/-!
# The record of one call

A context names the station and the command, holds what is to be sent, and collects what comes back.
Its outcome is written once, and a finished context stays in its phase; `Call.Engine` drives it.
-/

namespace Switchboard.Call

/-- How far a call has got. -/
inductive Phase where
  | idle | prepared | sent | awaitingAck | running | completed | failed
  deriving DecidableEq, Repr

namespace Phase

def isTerminal : Phase → Bool
  | .completed | .failed => true
  | _ => false

def name : Phase → String
  | .idle => "Idle"
  | .prepared => "Prepared"
  | .sent => "Sent"
  | .awaitingAck => "AwaitingAck"
  | .running => "Running"
  | .completed => "Completed"
  | .failed => "Failed"

end Phase

/-- What a caller or a hook may set of the request. -/
structure Outgoing where
  argument : Option String := none
  extended : Option String := none
  context : Option String := none
  caller : Option String := none
  deriving DecidableEq, Repr

structure Context where
  station : String
  command : String
  requestId : String
  title : Option Bytes := none
  outgoing : Outgoing := {}
  /-- Whether the call goes without handlers. -/
  simple : Bool := false
  phase : Phase := .idle
  outcome : Outcome := .unset
  /-- The name the peer gave the call. -/
  callee : Option String := none
  /-- The node that a reply named as its origin. -/
  origin : Option String := none
  payload : Option String := none
  lastReply : Option Wire.Decoded := none
  deriving DecidableEq, Repr

namespace Context

/-- Enter a phase; a finished call stays as it is. -/
def enter (ctx : Context) (phase : Phase) : Context :=
  if ctx.phase.isTerminal then ctx else { ctx with phase }

/-- Write the outcome, unless there is one, and enter the last phase. -/
def settle (ctx : Context) (outcome : Outcome) (phase : Phase) : Context :=
  { ctx with outcome := if ctx.outcome.isSet then ctx.outcome else outcome }.enter phase

/-- Take in a reply: it becomes the last one, and a name it carries replaces the one known. -/
def absorb (ctx : Context) (reply : Wire.Decoded) : Context :=
  { ctx with
    callee := (reply.text? .globalId).or ctx.callee
    origin := (reply.text? .responser).or ctx.origin
    lastReply := some reply }

/-- The values of the request's slots. -/
def values (ctx : Context) (config : Config) : List (Option Bytes) :=
  [ctx.title,
    some (Utf8.encode ctx.command),
    some (Utf8.encode ctx.requestId),
    ctx.outgoing.context.map Utf8.encode,
    ctx.outgoing.argument.map Utf8.encode,
    ctx.outgoing.extended.map Utf8.encode,
    some (Utf8.encode config.stationName),
    some (Utf8.encode config.routeName),
    ctx.outgoing.caller.map Utf8.encode,
    some (Utf8.encode config.serviceKey)]

def request (ctx : Context) (config : Config) : Wire.Message :=
  Wire.Descriptor.generalCall.fill (ctx.values config)

end Context

/-- The request id made from a number: its lower 128 bits in 32 hexadecimal digits. -/
def requestId (n : Nat) : String :=
  Bytes.hex (Bytes.ofNat 16 n)

end Switchboard.Call
