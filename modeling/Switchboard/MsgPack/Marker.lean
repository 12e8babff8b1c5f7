import Switchboard.Text.Utf8
import Switchboard.Shape.Flaw

/-!
# Markers of MessagePack

Every MessagePack value opens with a marker byte, which says what kind of value follows, and for
short values also how long it is or what it is. Sizes in a marker count bytes: of a number, or of the
length that follows.
-/

namespace Switchboard.MsgPack

inductive Marker where
  | fixPos (n : Nat)
  | fixNeg (n : Int)
  | fixMap (count : Nat)
  | fixArray (count : Nat)
  | fixStr (length : Nat)
  | nil
  | reserved
  | bool (b : Bool)
  | bin (size : Nat)
  | ext (size : Nat)
  | float (size : Nat)
  | unsigned (size : Nat)
  | signed (size : Nat)
  | fixExt (length : Nat)
  | str (size : Nat)
  | array (size : Nat)
  | map (size : Nat)
  deriving DecidableEq, Repr

namespace Marker

def ofByte (byte : UInt8) : Marker :=
  let code := byte.toNat
  if code < 0x80 then fixPos code
  else if code < 0x90 then fixMap (code - 0x80)
  else if code < 0xA0 then fixArray (code - 0x90)
  else if code < 0xC0 then fixStr (code - 0xA0)
  else if 0xE0 ≤ code then fixNeg ((code : Int) - 256)
  else if code = 0xC0 then nil
  else if code = 0xC1 then reserved
  else if code < 0xC4 then bool (code = 0xC3)
  else if code < 0xC7 then bin (1 <<< (code - 0xC4))
  else if code < 0xCA then ext (1 <<< (code - 0xC7))
  else if code < 0xCC then float (1 <<< (code - 0xC8))
  else if code < 0xD0 then unsigned (1 <<< (code - 0xCC))
  else if code < 0xD4 then signed (1 <<< (code - 0xD0))
  else if code < 0xD9 then fixExt (1 <<< (code - 0xD4))
  else if code < 0xDC then str (1 <<< (code - 0xD9))
  else if code < 0xDE then array (1 <<< (code - 0xDB))
  else map (1 <<< (code - 0xDD))

def shown : Marker → String
  | fixPos n => s!"FixPos({n})"
  | fixNeg n => s!"FixNeg({n})"
  | fixMap count => s!"FixMap({count})"
  | fixArray count => s!"FixArray({count})"
  | fixStr length => s!"FixStr({length})"
  | nil => "Null"
  | reserved => "Reserved"
  | bool true => "True"
  | bool false => "False"
  | bin size => s!"Bin{8 * size}"
  | ext size => s!"Ext{8 * size}"
  | float size => s!"F{8 * size}"
  | unsigned size => s!"U{8 * size}"
  | signed size => s!"I{8 * size}"
  | fixExt length => s!"FixExt{length}"
  | str size => s!"Str{8 * size}"
  | array size => s!"Array{8 * size}"
  | map size => s!"Map{8 * size}"

/-- Whether the marker opens a number, a boolean or the missing value. -/
def isPlain : Marker → Bool
  | fixPos _ | fixNeg _ | nil | bool _ | float _ | unsigned _ | signed _ => true
  | _ => false

end Marker

/-- What can be wrong with packed data. -/
inductive Flaw where
  | noMarker
  | cutNumber
  | cutBody
  | wrongMarker (marker : Marker)
  | wrongCount (expected : Nat)
  | notText (flaw : Utf8.Flaw)
  | nestedTooDeep
  | shape (flaw : Shape.Flaw)
  /-- A flaw in someone else's words. -/
  | stated (text : String)
  deriving DecidableEq, Repr

/-- Packed data has every double in plain form. -/
def wording : Shape.Wording where
  nothing := "unit value"
  float := .plain

def Flaw.message : Flaw → String
  | .noMarker => "IO error while reading marker: failed to fill whole buffer"
  | .cutNumber => "IO error while reading data: failed to fill whole buffer"
  | .cutBody => "IO error while reading data: unexpected end of file"
  | .wrongMarker marker => "wrong msgpack marker " ++ marker.shown
  | .wrongCount expected => s!"array had incorrect length, expected {expected}"
  | .notText flaw => "string found to be invalid utf8: " ++ flaw.message
  | .nestedTooDeep => "depth limit exceeded"
  | .shape flaw => flaw.message wording
  | .stated text => text

end Switchboard.MsgPack
