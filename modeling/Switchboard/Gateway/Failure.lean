import Switchboard.Envelope

/-!
# Failures of a forwarded request

When the gateway forwards a request over HTTP the hop itself can fail. Such a failure becomes an
envelope of the gateway's own.
-/

namespace Switchboard.Gateway

/-- The node named in results that no station answered for. -/
def origin : String := "web api gateway"

inductive NetworkFailure where
  | connectRefused | connectionClosed | nameResolution | timeout
  /-- The peer answered with a status that is no success. -/
  | status (code : UInt16)
  | sendFailure | receiveFailure | cancelled
  | other (text : String)
  deriving DecidableEq, Repr

namespace NetworkFailure

def message : NetworkFailure → String
  | .connectRefused => "remote endpoint refused the connection"
  | .connectionClosed => "connection closed before a response"
  | .nameResolution => "host name could not be resolved"
  | .timeout => "no response within the timeout"
  | .status code => s!"remote answered HTTP {code}"
  | .sendFailure => "request could not be sent completely"
  | .receiveFailure => "response was not received completely"
  | .cancelled => "request was cancelled"
  | .other text => "network error: " ++ text

def code : NetworkFailure → ResultCode
  | .status 404 | .nameResolution => .notFound
  | .status 503 | .cancelled => .unavailable
  | _ => .networkError

def envelope (failure : NetworkFailure) : Envelope :=
  .failure failure.code failure.message origin

end NetworkFailure

end Switchboard.Gateway
