import Switchboard.Bytes

/-!
# Outcomes

The outcome of a call lies in one of three bands: a failure on this side, a state of the exchange,
or what the peer said of the finished call. A reply carries its state as one byte; `ofWire` reads
every byte, those without a name as an unknown remote status.
-/

namespace Switchboard

/-- What failed before or while talking to the peer. -/
inductive LocalFailure where
  | notReady | sendError | recvError | localException | frameInvalid
  deriving DecidableEq, Repr

/-- A state in the middle of an exchange. Only `running` announces a second reply. -/
inductive ProtocolState where
  | queued | running | voteBye | welcome | voteSend | voteWaiting | voteStart | voteEnd | voteClose
  deriving DecidableEq, Repr

/-- What the peer says of the call. -/
inductive RemoteStatus where
  | ok | notFound | notSupported | noWorkerAvailable | unavailable | denied | timedOut
  | argumentInvalid | paused | failed | bug | error | netError
  | unknown (code : UInt8)
  deriving DecidableEq, Repr

inductive Outcome where
  | unset
  | local (failure : LocalFailure)
  | protocol (state : ProtocolState)
  | remote (status : RemoteStatus)
  deriving DecidableEq, Repr

namespace Outcome

def ok : Outcome := .remote .ok

def running : Outcome := .protocol .running

/-- The state bytes that have a name. -/
def named : List (UInt8 × Outcome) :=
  [(0x01, .remote .ok),
    (0x02, .protocol .queued),
    (0x03, .protocol .running),
    (0x04, .protocol .voteBye),
    (0x05, .protocol .welcome),
    (0x06, .protocol .voteSend),
    (0x07, .protocol .voteWaiting),
    (0x08, .protocol .voteStart),
    (0x09, .protocol .voteEnd),
    (0x0A, .protocol .voteClose),
    (0x81, .remote .error),
    (0x82, .remote .failed),
    (0x83, .remote .notFound),
    (0x84, .remote .notSupported),
    (0x85, .local .frameInvalid),
    (0x86, .remote .argumentInvalid),
    (0x87, .remote .timedOut),
    (0x88, .remote .netError),
    (0x89, .remote .noWorkerAvailable),
    (0x8A, .remote .unavailable),
    (0x8B, .remote .paused),
    (0x8C, .remote .denied),
    (0x8D, .remote .bug)]

def ofWire (state : UInt8) : Outcome :=
  match named.lookup state with
  | some outcome => outcome
  | none => .remote (.unknown state)

/-- The byte a peer would send for the outcome; local failures but one have none. -/
def wire? : Outcome → Option UInt8
  | .remote (.unknown state) => some state
  | outcome => (named.find? (·.2 = outcome)).map Prod.fst

def isSuccess (outcome : Outcome) : Bool :=
  outcome = ok

def isSet (outcome : Outcome) : Bool :=
  outcome ≠ unset

/-- The name of the outcome, the same for every unknown status. -/
def name : Outcome → String
  | .unset => "Unset"
  | .local .notReady => "NotReady"
  | .local .sendError => "SendError"
  | .local .recvError => "RecvError"
  | .local .localException => "LocalException"
  | .local .frameInvalid => "FrameInvalid"
  | .protocol .queued => "Queued"
  | .protocol .running => "Running"
  | .protocol .voteBye => "VoteBye"
  | .protocol .welcome => "Welcome"
  | .protocol .voteSend => "VoteSend"
  | .protocol .voteWaiting => "VoteWaiting"
  | .protocol .voteStart => "VoteStart"
  | .protocol .voteEnd => "VoteEnd"
  | .protocol .voteClose => "VoteClose"
  | .remote .ok => "Ok"
  | .remote .notFound => "NotFound"
  | .remote .notSupported => "NotSupported"
  | .remote .noWorkerAvailable => "NoWorkerAvailable"
  | .remote .unavailable => "Unavailable"
  | .remote .denied => "Denied"
  | .remote .timedOut => "TimedOut"
  | .remote .argumentInvalid => "ArgumentInvalid"
  | .remote .paused => "Paused"
  | .remote .failed => "Failed"
  | .remote .bug => "Bug"
  | .remote .error => "Error"
  | .remote .netError => "NetError"
  | .remote (.unknown _) => "Unknown"

/-- The name with the state byte of an unknown status. -/
def shown : Outcome → String
  | .remote (.unknown state) => "Unknown(" ++ Bytes.shownByte state ++ ")"
  | outcome => outcome.name

end Outcome

end Switchboard
