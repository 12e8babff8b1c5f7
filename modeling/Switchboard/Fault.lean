import Switchboard.Json.Flaw
import Switchboard.MsgPack.Marker
import Switchboard.Wire.Flaw

/-!
# Faults

Every way an operation of this library can fail. Callers of stations never meet them: there they
become outcomes and envelopes.
-/

namespace Switchboard

/-- What is wrong with a configuration. -/
inductive ConfigFlaw where
  | notPositive (setting : String)
  | stated (text : String)
  deriving DecidableEq, Repr

def ConfigFlaw.message : ConfigFlaw → String
  | .notPositive setting => setting ++ " must be greater than 0"
  | .stated text => text

inductive Fault where
  | io (text : String)
  | json (flaw : Json.Flaw)
  | pack (text : String)
  | unpack (flaw : MsgPack.Flaw)
  | frame (flaw : Wire.Flaw)
  | handler (text : String)
  | config (flaw : ConfigFlaw)
  | alreadyInstalled
  | endpoint (text : String)
  | closed
  deriving DecidableEq, Repr

def Fault.message : Fault → String
  | .io text => "I/O error: " ++ text
  | .json flaw => "JSON error: " ++ flaw.message
  | .pack text => "MsgPack encode error: " ++ text
  | .unpack flaw => "MsgPack decode error: " ++ flaw.message
  | .frame flaw => "Frame invalid: " ++ flaw.message
  | .handler text => "Handler error: " ++ text
  | .config flaw => "Config error: " ++ flaw.message
  | .alreadyInstalled => "Handler registry already installed"
  | .endpoint text => "Invalid endpoint: " ++ text
  | .closed => "Connection closed"

end Switchboard
