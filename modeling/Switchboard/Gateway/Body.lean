import Switchboard.Envelope.Text
import Switchboard.Notice

/-!
# Bodies of the gateway's answers

The gateway answers with the text of an envelope. Should an envelope not be written, the answer is a
fixed text and the operator is told.
-/

namespace Switchboard.Gateway

/-- The answer in place of an envelope that cannot be written. -/
def fallbackBody : String :=
  "\x7b\"code\":-3,\"message\":\"local exception\",\"originPoint\":\"web api gateway\"\x7d"

/-- The body for an envelope, and what the operator is told of it. -/
def body (e : Envelope) : String × List Notice :=
  match e.toJson with
  | .ok text => (text, [])
  | .error fault => (fallbackBody, [.envelopeRefused fault])

end Switchboard.Gateway
