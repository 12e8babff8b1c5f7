import Switchboard.Outcome
import Switchboard.Wire.Message

/-!
# Result envelopes

Whatever happens to a call, its caller gets one envelope: a result code, a message, the node the
result comes from, and the payload of a success. `Envelope.report` makes it from an outcome and the
last reply of the exchange.

A reply that only states how far the exchange got has the success code too, with the name of the
state as its message.
-/

namespace Switchboard

inductive ResultCode where
  | success | notReady | networkError | localException | remoteError | unavailable | notFound
  | argumentError | timedOut | logicalError | paused | denied | emptyRemoteResult
  deriving DecidableEq, Repr

namespace ResultCode

def all : List ResultCode :=
  [.success, .notReady, .networkError, .localException, .remoteError, .unavailable, .notFound,
    .argumentError, .timedOut, .logicalError, .paused, .denied, .emptyRemoteResult]

def number : ResultCode → Int
  | .success => 0
  | .notReady => -1
  | .networkError => -2
  | .localException => -3
  | .remoteError => -4
  | .unavailable => -5
  | .notFound => -6
  | .argumentError => -7
  | .timedOut => -8
  | .logicalError => -9
  | .paused => -10
  | .denied => -11
  | .emptyRemoteResult => -12

def ofNumber? (n : Int) : Option ResultCode :=
  all.find? (·.number = n)

def name : ResultCode → String
  | .success => "Success"
  | .notReady => "NotReady"
  | .networkError => "NetworkError"
  | .localException => "LocalException"
  | .remoteError => "RemoteError"
  | .unavailable => "Unavailable"
  | .notFound => "NotFound"
  | .argumentError => "ArgumentError"
  | .timedOut => "TimedOut"
  | .logicalError => "LogicalError"
  | .paused => "Paused"
  | .denied => "Denied"
  | .emptyRemoteResult => "EmptyRemoteResult"

/-- The message of a code when nothing better is known. -/
def message : ResultCode → String
  | .success => "success"
  | .notReady => "station not ready"
  | .networkError => "network error"
  | .localException => "local exception"
  | .remoteError => "remote internal error"
  | .unavailable => "station unavailable"
  | .notFound => "station or command not found"
  | .argumentError => "invalid argument"
  | .timedOut => "timed out"
  | .logicalError => "logical error"
  | .paused => "station paused"
  | .denied => "access denied"
  | .emptyRemoteResult => "empty remote result"

@[simp] theorem ofNumber?_number (code : ResultCode) : ofNumber? code.number = some code := by
  cases code <;> decide

theorem number_of_ofNumber? {n : Int} {code : ResultCode} (h : ofNumber? n = some code) :
    code.number = n := by
  simpa using List.find?_some h

end ResultCode

/-- The code of an outcome. -/
def Outcome.code : Outcome → ResultCode
  | .unset => .emptyRemoteResult
  | .local .notReady => .notReady
  | .local .localException => .localException
  | .local .sendError | .local .recvError | .local .frameInvalid => .networkError
  | .protocol _ => .success
  | .remote .ok => .success
  | .remote .error => .remoteError
  | .remote .unavailable => .unavailable
  | .remote .notFound | .remote .notSupported | .remote .noWorkerAvailable => .notFound
  | .remote .argumentInvalid => .argumentError
  | .remote .timedOut => .timedOut
  | .remote .netError => .networkError
  | .remote .failed | .remote .bug => .logicalError
  | .remote .paused => .paused
  | .remote .denied => .denied
  | .remote (.unknown _) => .emptyRemoteResult

structure Envelope where
  code : ResultCode
  message : String
  origin : String
  payload : Option String
  deriving DecidableEq, Repr

namespace Envelope

def success (payload : Option String) (origin : String) : Envelope :=
  ⟨.success, ResultCode.success.message, origin, payload⟩

def failure (code : ResultCode) (message origin : String) : Envelope :=
  ⟨code, message, origin, none⟩

def isSuccess (e : Envelope) : Bool :=
  e.code = .success

/-- The origin of a result whose reply names no responser. -/
def remoteOrigin : String := "zero_center"

/-- The node a result comes from: this one unless a peer replied. -/
def originOf (localOrigin : String) : Option Wire.Decoded → String
  | none => localOrigin
  | some reply => (reply.text? .responser).getD remoteOrigin

/-- The envelope of an outcome, given the last reply of the exchange. -/
def report (localOrigin : String) (outcome : Outcome) (last : Option Wire.Decoded) : Envelope :=
  let origin := originOf localOrigin last
  match outcome with
  | .remote .ok => success (last.bind (·.text? .jsonValue)) origin
  | .protocol _ => failure .success outcome.name origin
  | _ => failure outcome.code ((last.bind (·.text? .status)).getD outcome.code.message) origin

end Envelope

end Switchboard
