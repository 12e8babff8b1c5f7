import Switchboard.Text.Utf8
import Switchboard.Wire.Descriptor
import Switchboard.Wire.Flaw

/-!
# Messages

A message is a preamble frame and one frame for each tag the preamble lists. Requests follow a
descriptor; replies describe themselves, their marker being the state of the exchange. Decoding
keeps the frames whose tags it knows, in wire order, and the others by their raw tag byte.
-/

namespace Switchboard.Wire

abbrev Message := List Bytes

/-- The request with the given values in its slots; an absent value is an empty frame. -/
def Descriptor.fill (d : Descriptor) (values : List (Option Bytes)) : Message :=
  d.preamble :: values.map (·.getD [])

/-- The request with the given values, which have to be as many as the slots. -/
def encode (d : Descriptor) (values : List (Option Bytes)) : Except Flaw Message :=
  if values.length = d.slots.length then .ok (d.fill values)
  else .error (.valueCount d.group d.slots.length values.length)

/-- The self-describing message with the given marker and tagged values. -/
def encodeTagged (marker : UInt8) (values : List (UInt8 × Bytes)) : Except Flaw Message :=
  if values.length ≤ maxSlots then
    let preamble := UInt8.ofNat values.length :: marker :: values.map Prod.fst ++ [endByte]
    .ok (preamble :: values.map Prod.snd)
  else
    .error (.tooManySlots values.length)

/-- A message taken apart, its tags still raw bytes. -/
structure Parts where
  marker : UInt8
  tags : Bytes
  frames : List Bytes
  deriving DecidableEq, Repr

/-- Take a message apart. The preamble may go on after its end byte. -/
def Message.parts : Message → Except Flaw Parts
  | [] => .error .emptyMessage
  | (count :: marker :: t :: tail) :: frames =>
    if maxSlots < count.toNat then .error (.tooManyFrames count.toNat)
    else if (t :: tail)[count.toNat]? ≠ some endByte then .error (.noEndMarker count.toNat)
    else if frames.length ≠ count.toNat then .error (.frameCount count.toNat frames.length)
    else .ok ⟨marker, (t :: tail).take count.toNat, frames⟩
  | preamble :: _ => .error (.shortPreamble preamble.length)

/-- The frames of a message that are no values, in the order of their tag bytes; a later frame of the
same tag replaces an earlier one. -/
abbrev Extras := List (UInt8 × Bytes)

namespace Extras

def insert (extras : Extras) (tag : UInt8) (frame : Bytes) : Extras :=
  match extras with
  | [] => [(tag, frame)]
  | (t, f) :: rest =>
    if tag < t then (tag, frame) :: (t, f) :: rest
    else if tag = t then (tag, frame) :: rest
    else (t, f) :: insert rest tag frame

def get? (extras : Extras) (tag : UInt8) : Option Bytes :=
  (extras.find? (·.1 = tag)).map Prod.snd

def ofList (frames : List (UInt8 × Bytes)) : Extras :=
  frames.foldl (fun extras (tag, frame) => insert extras tag frame) []

end Extras

structure Decoded where
  marker : UInt8
  values : List (Tag × Bytes)
  extras : Extras
  deriving DecidableEq, Repr

namespace Decoded

def group? (m : Decoded) : Option Group :=
  Group.ofByte? m.marker

/-- The last value of a tag. -/
def get? (m : Decoded) (tag : Tag) : Option Bytes :=
  (m.values.reverse.find? (·.1 = tag)).map Prod.snd

/-- The last value of a tag as text; an empty frame is no text. -/
def text? (m : Decoded) (tag : Tag) : Option String :=
  match m.get? tag with
  | none | some [] => none
  | some (b :: rest) => some (Utf8.lossy (b :: rest))

/-- The title without the zero bytes that fill it up. -/
def title (m : Decoded) : String :=
  match m.get? .pubTitle with
  | none => ""
  | some raw => Utf8.lossy (raw.reverse.dropWhile (· = 0)).reverse

/-- The values in a descriptor's slots; a missing one reads as the empty frame. -/
def valuesFor (m : Decoded) (d : Descriptor) : List Bytes :=
  d.slots.map fun tag => (m.get? tag).getD []

end Decoded

/-- The tag a byte names, if its frame is a value: the end byte's is not. -/
def valueTag? (raw : UInt8) : Option Tag :=
  (Tag.ofByte? raw).filter (· ≠ .end)

/-- Decode the parts of a message, of which only the first `known` may be values. -/
def Parts.decoded (p : Parts) (known : Nat) : Decoded :=
  let tagged := p.tags.zip p.frames
  let head := tagged.take known
  { marker := p.marker
    values := head.filterMap fun (raw, frame) => (valueTag? raw).map (·, frame)
    extras := Extras.ofList
      (head.filter (fun (raw, _) => (valueTag? raw).isNone) ++ tagged.drop known) }

/-- Decode a message that has to follow a descriptor: its tags begin with the slots in order. -/
def decodeGoverned (d : Descriptor) (message : Message) : Except Flaw Decoded := do
  let p ← message.parts
  if p.marker ≠ d.group.byte then .error (.otherGroup p.marker d.group)
  else if (d.slots.map Tag.byte).isPrefixOf p.tags then .ok (p.decoded d.slots.length)
  else .error (.slotOrder d.group)

/-- Decode a reply, which describes itself. -/
def decodeReply (message : Message) : Except Flaw Decoded := do
  let p ← message.parts
  .ok (p.decoded p.tags.length)

/-- Decode a request by the descriptor of the group it names. -/
def decodeRequest (message : Message) : Except Flaw Decoded := do
  let p ← message.parts
  match Group.ofByte? p.marker with
  | none => .error (.unknownGroup p.marker)
  | some group => decodeGoverned (.ofGroup group) message

end Switchboard.Wire
