import Switchboard.Endpoint
import Switchboard.Gateway.Dispatch
import Switchboard.Gateway.Forward
import Switchboard.Plan.Submit
import Switchboard.Rehearsal.Stretch
import Switchboard.Rehearsal.World
import Switchboard.Proofs.Dialogue.Course
import Switchboard.Proofs.Wire.Streaming
import Switchboard.Proofs.Call.Conduct
import Switchboard.Proofs.Pool.Sockets
import Switchboard.Proofs.Pool.Usage
import Switchboard.Proofs.Pool.Accounting
import Switchboard.Proofs.Pool.Ownership
import Switchboard.Proofs.Plan.Course
import Switchboard.Proofs.Traffic.Attempts
import Switchboard.Proofs.Traffic.Fate
import Switchboard.Proofs.Rehearsal.Stages
import Switchboard.Proofs.Rehearsal.Conversation
import Switchboard.Proofs.Wire.Conservation
import Switchboard.Proofs.Wire.RoundTrip
import Switchboard.Proofs.Rehearsal.Reading
import Switchboard.Proofs.Rehearsal.Remains
import Switchboard.Proofs.Text.Utf8
import Switchboard.Proofs.Call.Request
import Switchboard.Proofs.Plan.Verdict
import Switchboard.Proofs.Rehearsal.Reception
import Switchboard.Proofs.Dialogue.Timing
import Switchboard.Proofs.Traffic.Resolution
import Switchboard.Proofs.Rehearsal.Clock
import Switchboard.Proofs.Wire.Grammar
import Switchboard.Proofs.Dialogue.Notes
import Switchboard.Proofs.Call.Hooks
import Switchboard.Proofs.Call.Mishaps
import Switchboard.Proofs.Rehearsal.Mishaps
import Switchboard.Proofs.Call.History
import Switchboard.Proofs.Wire.Tolerance
import Switchboard.Proofs.Pool.Independence
import Switchboard.Proofs.MsgPack.RoundTrip
import Switchboard.Proofs.Plan.Record
import Switchboard.Proofs.Plan.Delivery
import Switchboard.Proofs.Gateway.Answer
import Switchboard.Proofs.Wire.Lookup
import Switchboard.Proofs.Rehearsal.Truncation
import Switchboard.Proofs.Wire.Feeding
import Switchboard.Proofs.Wire.Emptiness
import Switchboard.Proofs.Pool.Decision
import Switchboard.Proofs.Pool.Pruning
import Switchboard.Proofs.Call.Report
import Switchboard.Proofs.Call.Typed
import Switchboard.Proofs.Traffic.Discards
import Switchboard.Proofs.Call.Records
import Switchboard.Proofs.Plan.Gate
import Switchboard.Proofs.MsgPack.Skipping
import Switchboard.Proofs.Plan.Entries
import Switchboard.Proofs.Text.Lowercase
import Switchboard.Proofs.Plan.Renormalizing
import Switchboard.Proofs.Gateway.DefaultContext
import Switchboard.Proofs.Config.Overlay
import Switchboard.Proofs.Config.Timeout
import Switchboard.Proofs.Wire.Overfilling
import Switchboard.Proofs.Wire.Overlong
import Switchboard.Proofs.Wire.Extraction
import Switchboard.Proofs.Wire.Holding
import Switchboard.Proofs.Rehearsal.Stretches
