import Switchboard.MsgPack.Marker
import Switchboard.Shape.Record

/-!
# Bytes as a list

Where the list of a record's fields may stand, bytes stand for the list of their numbers. Such a
number is a number and nothing else: it is no mark for a missing value, and it does not choose.
-/

namespace Switchboard.MsgPack

/-- Reads the numbers of bytes one after another. -/
def Octets : Type → Type := EStateM Flaw Bytes

namespace Octets

open Shape (Found Wanted)

variable {α : Type}

instance : Monad Octets :=
  inferInstanceAs (Monad (EStateM Flaw Bytes))

def fail (flaw : Shape.Flaw) : Octets α
  | rest => .error (.shape flaw) rest

/-- The next number; no bytes count as zero. -/
def next : Octets Int
  | [] => .ok 0 []
  | b :: rest => .ok b.toNat rest

def isMore : Octets Bool
  | rest => .ok (!rest.isEmpty) rest

/-- Refuse the next number because it is not of the wanted kind. -/
def mismatch (wanted : Wanted) : Octets α := do
  fail (.wrongType (.integer (← next)) wanted)

instance : Shape.Source Octets where
  integer kind := do
    let n ← next
    if kind.contains n then pure n else fail (.wrongValue (.integer n) (.integer kind))
  text := mismatch .text
  bool := mismatch .bool
  optional _ := mismatch .optional
  choice what _ := mismatch (.choice what)
  refuse := fail

end Octets

end Switchboard.MsgPack
