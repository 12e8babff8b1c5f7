import Switchboard.Bytes
import Switchboard.Wire.Tag

/-!
# What can be wrong with frames

Each cause is a constructor; `Flaw.message` words it.
-/

namespace Switchboard.Wire

inductive Flaw where
  | emptyMessage
  | shortPreamble (size : Nat)
  | tooManyFrames (count : Nat)
  | noEndMarker (count : Nat)
  | frameCount (declared carried : Nat)
  | otherGroup (marker : UInt8) (group : Group)
  | slotOrder (group : Group)
  | unknownGroup (marker : UInt8)
  | valueCount (group : Group) (slots values : Nat)
  | tooManySlots (count : Nat)
  | frameFlag (flag : UInt8)
  | frameSize (size limit : Nat)
  /-- A cause in someone else's words. -/
  | stated (text : String)
  deriving DecidableEq, Repr

def Flaw.message : Flaw → String
  | .emptyMessage => "empty message"
  | .shortPreamble size => s!"preamble too short: {size} bytes"
  | .tooManyFrames count => s!"frame count {count} exceeds maximum {maxSlots}"
  | .noEndMarker count =>
    s!"preamble declares {count} tags but has no end marker at position {count + 2}"
  | .frameCount declared carried =>
    s!"preamble declares {declared} frames, message carries {carried}"
  | .otherGroup marker group =>
    "command group " ++ Bytes.shownByte marker ++ " does not match descriptor " ++ group.name
  | .slotOrder group => "slot order does not match descriptor " ++ group.name
  | .unknownGroup marker => "unknown command group " ++ Bytes.shownByte marker
  | .valueCount group slots values =>
    "descriptor " ++ group.name ++ s!" declares {slots} slots, got {values} values"
  | .tooManySlots count => s!"{count} slots exceeds maximum {maxSlots}"
  | .frameFlag flag => "invalid frame flag " ++ Bytes.shownByte flag
  | .frameSize size limit => s!"frame size {size} exceeds maximum {limit}"
  | .stated text => text

end Switchboard.Wire
