import Switchboard.Bytes
import Switchboard.Wire.Tag

/-!
# Descriptors

A descriptor fixes the slots of one kind of request: which value stands in which frame. Its
preamble counts the slots in one byte, so beyond 255 slots the count wraps.
-/

namespace Switchboard.Wire

structure Descriptor where
  group : Group
  slots : List Tag
  deriving DecidableEq, Repr

namespace Descriptor

def generalCall : Descriptor where
  group := .general
  slots := [.pubTitle, .command, .requestId, .context, .argument, .textContent, .requester,
    .responser, .callId, .serviceKey]

def planCall : Descriptor where
  group := .planCall
  slots := [.plan, .context, .command, .argument, .serviceKey]

def planPublish : Descriptor where
  group := .planPublish
  slots := [.plan, .context, .pubTitle, .textContent, .serviceKey]

def planCommand : Descriptor where
  group := .planCommand
  slots := [.plan, .command, .argument, .serviceKey]

/-- The descriptor that requests of a group follow. -/
def ofGroup : Group → Descriptor
  | .general => generalCall
  | .planCall => planCall
  | .planPublish => planPublish
  | .planCommand => planCommand

@[simp] theorem group_ofGroup (group : Group) : (ofGroup group).group = group := by
  cases group <;> rfl

/-- The number of slots as one byte. -/
def count (d : Descriptor) : UInt8 :=
  UInt8.ofNat d.slots.length

def position? (d : Descriptor) (tag : Tag) : Option Nat :=
  d.slots.findIdx? (· = tag)

/-- The first frame of a message: count, marker, tags and the end byte. -/
def preamble (d : Descriptor) : Bytes :=
  d.count :: d.group.byte :: d.slots.map Tag.byte ++ [endByte]

end Descriptor

end Switchboard.Wire
