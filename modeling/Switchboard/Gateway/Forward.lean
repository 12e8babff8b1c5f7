import Switchboard.Gateway.Body
import Switchboard.Text.Blank

/-!
# Forwarded requests

The answer to a request that the gateway forwarded over HTTP: what the peer answered, or an envelope
of the gateway's own.
-/

namespace Switchboard.Gateway

/-- The body of the answer to a forwarded request, which is the peer's own unless it is blank or the
hop failed, and what the operator is told. -/
def forwarded : Except NetworkFailure (Option String) → String × List Notice
  | .ok (some text) => if Text.isBlank text then emptyResult else (text, [])
  | .ok none => emptyResult
  | .error failure =>
    let (text, notices) := body failure.envelope
    (text, .forwardFailed failure :: notices)
where
  emptyResult : String × List Notice :=
    body (.failure .emptyRemoteResult ResultCode.emptyRemoteResult.message origin)

end Switchboard.Gateway
