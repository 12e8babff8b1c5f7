import Switchboard.Envelope
import Switchboard.Fault
import Switchboard.Gateway.Failure

/-!
# Notices

What the library tells its operator about while it works. A notice has a level, a message and the
fields that place it.
-/

namespace Switchboard

inductive Level where
  | warn | error
  deriving DecidableEq, Repr

/-- The two hooks of a handler. -/
inductive Hook where
  | before | after
  deriving DecidableEq, Repr

def Hook.field : Hook → String
  | .before => "before_call"
  | .after => "after_call"

/-- A panic, with its text if it has one. -/
structure Panic where
  text : Option String
  deriving DecidableEq, Repr

def Panic.message (p : Panic) : String :=
  p.text.getD "non-string panic payload"

inductive Notice where
  | secondOutcome (current rejected : Outcome)
  | factoryPanicked (handler : String) (panic : Panic)
  | hookFailed (handler : String) (hook : Hook) (station : String) (fault : Fault)
  | hookPanicked (handler : String) (hook : Hook) (station : String) (panic : Panic)
  | callFailed (station command : String) (outcome : Outcome) (code : ResultCode)
  | argumentRefused (station command : String) (fault : Fault)
  | connectFailed (station endpoint : String) (fault : Fault)
  | socketCap (station : String) (cap : Nat)
  | connectTimedOut (station : String) (limit : Nat)
  | sendFailed (station endpoint : String) (fault : Fault)
  | receiveFailed (station endpoint : String) (fault : Fault)
  | receiveTimedOut (station endpoint : String) (limit : Nat)
  | replyRefused (station endpoint : String) (fault : Fault)
  | planConnectTimedOut (station : String)
  | planSendFailed (station : String) (fault : Fault)
  | planReceiveFailed (station : String) (fault : Fault)
  | planReplyRefused (station : String) (fault : Fault)
  | forwardFailed (failure : Gateway.NetworkFailure)
  | contextRefused (fault : Fault)
  | envelopeRefused (fault : Fault)
  deriving DecidableEq, Repr

namespace Notice

def level : Notice → Level
  | .factoryPanicked .. | .hookFailed .. | .hookPanicked .. | .contextRefused _
  | .envelopeRefused _ => .error
  | _ => .warn

def message : Notice → String
  | .secondOutcome .. => "outcome already written"
  | .factoryPanicked _ panic => "handler factory panicked: " ++ panic.message
  | .hookFailed _ _ _ fault => "handler failed: " ++ fault.message
  | .hookPanicked _ _ _ panic => "handler panicked: " ++ panic.message
  | .callFailed .. => "call did not succeed"
  | .argumentRefused _ _ fault => "argument not serializable: " ++ fault.message
  | .connectFailed _ _ fault => "connect failed: " ++ fault.message
  | .socketCap .. => "socket cap reached"
  | .connectTimedOut .. => "connect timed out"
  | .sendFailed _ _ fault => "send failed: " ++ fault.message
  | .receiveFailed _ _ fault => "receive failed: " ++ fault.message
  | .receiveTimedOut .. => "receive timed out"
  | .replyRefused _ _ fault => "reply decode failed: " ++ fault.message
  | .planConnectTimedOut _ => "plan connect timed out"
  | .planSendFailed _ fault => "plan send failed: " ++ fault.message
  | .planReceiveFailed _ fault => "plan receive failed: " ++ fault.message
  | .planReplyRefused _ fault => "plan reply decode failed: " ++ fault.message
  | .forwardFailed failure => "forwarded request failed: " ++ failure.message
  | .contextRefused fault => "context serialization failed: " ++ fault.message
  | .envelopeRefused fault => "envelope serialization failed: " ++ fault.message

def fields : Notice → List (String × String)
  | .secondOutcome current rejected =>
    [("current", current.shown), ("rejected", rejected.shown)]
  | .factoryPanicked handler _ => [("handler", handler)]
  | .hookFailed handler hook station _ | .hookPanicked handler hook station _ =>
    [("handler", handler), ("hook", hook.field), ("station", station)]
  | .callFailed station command outcome code =>
    [("station", station), ("command", command), ("outcome", outcome.shown),
      ("code", toString code.number)]
  | .argumentRefused station command _ => [("station", station), ("command", command)]
  | .connectFailed station endpoint _ | .sendFailed station endpoint _
  | .receiveFailed station endpoint _ | .replyRefused station endpoint _ =>
    [("station", station), ("endpoint", endpoint)]
  | .socketCap station cap => [("station", station), ("cap", toString cap)]
  | .connectTimedOut station limit => [("station", station), ("timeout_ms", toString limit)]
  | .receiveTimedOut station endpoint limit =>
    [("station", station), ("endpoint", endpoint), ("timeout_ms", toString limit)]
  | .planConnectTimedOut station | .planSendFailed station _ | .planReceiveFailed station _
  | .planReplyRefused station _ => [("station", station)]
  | .forwardFailed _ | .contextRefused _ | .envelopeRefused _ => []

end Notice

end Switchboard
