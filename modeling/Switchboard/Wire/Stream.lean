import Switchboard.Wire.Backlog
import Switchboard.Wire.Message

/-!
# Messages on a byte stream

On a stream each frame follows a header of five bytes: a flag, one when more frames of the message
follow, and the frame's length. `layout` writes a message so. A `Buffer` takes the stream in pieces
of any size and cuts the messages out again, keeping what is not complete yet.

A bad header stays where it is, so a buffer that has met one reports it again at every push until it
is cleared; the messages cut out in the failing push are not delivered.
-/

namespace Switchboard.Wire

/-- The header of a frame. The length field holds the length modulo 2^32. -/
def frameHeader (more : Bool) (size : Nat) : Bytes :=
  (if more then 1 else 0) :: Bytes.ofNat 4 size

/-- A message as it travels on a stream. -/
def Message.layout : Message → Bytes
  | [] => []
  | [frame] => frameHeader false frame.length ++ frame
  | frame :: next :: rest => frameHeader true frame.length ++ frame ++ layout (next :: rest)

/-- The largest frame accepted unless another limit is set. -/
def defaultFrameLimit : Nat := 16 * 1024 * 1024

structure Buffer where
  limit : Nat := defaultFrameLimit
  /-- Bytes not looked at yet. -/
  pending : Backlog := .ofBytes []
  /-- The header read last, while its frame is not complete: whether more frames follow, and the
  frame's length. -/
  opened : Option (Bool × Nat) := none
  /-- The frames of the message not complete yet, the latest first. -/
  held : List Bytes := []
  deriving DecidableEq, Repr

namespace Buffer

/-- What the buffer can do with the bytes it has. -/
inductive Step where
  | wait
  | refuse (flaw : Flaw)
  /-- A header or a frame was taken; the frame may have completed a message. -/
  | take (next : Buffer) (message : Option Message)
  deriving Repr

/-- What a header says: whether more frames follow, and the length of its frame. -/
def readHeader (limit : Nat) (flag : UInt8) (length : Bytes) : Except Flaw (Bool × Nat) :=
  let size := length.toNat
  if 1 < flag then .error (.frameFlag flag)
  else if limit < size then .error (.frameSize size limit)
  else .ok (flag = 1, size)

/-- The number of bytes in a header. -/
def headerSize : Nat := 5

def step (b : Buffer) : Step :=
  match b.opened with
  | none =>
    match b.pending.take? headerSize with
    | none | some ([], _) => .wait
    | some (flag :: length, pending) =>
      match readHeader b.limit flag length with
      | .error flaw => .refuse flaw
      | .ok header => .take { b with pending, opened := some header } none
  | some (more, size) =>
    match b.pending.take? size with
    | none => .wait
    | some (frame, pending) =>
      let held := frame :: b.held
      if more then .take { b with pending, opened := none, held } none
      else .take { b with pending, opened := none, held := [] } (some held.reverse)

/-- Twice the pending bytes, and one more while a frame is awaited: every step lowers it. -/
def measure (b : Buffer) : Nat :=
  2 * b.pending.size + if b.opened.isSome then 1 else 0

theorem measure_step {b next : Buffer} {message : Option Message}
    (h : b.step = .take next message) : next.measure < b.measure := by
  obtain ⟨limit, pending, opened, held⟩ := b
  cases opened with
  | none =>
    simp only [step] at h
    split at h
    · cases h
    · cases h
    · next taken =>
      have := (Backlog.take?_eq_some taken).2.2
      split at h
      · cases h
      · cases h
        simp only [measure, Option.isSome, headerSize] at this ⊢
        grind
  | some header =>
    simp only [step] at h
    split at h
    · cases h
    · next taken =>
      have := (Backlog.take?_eq_some taken).2.2
      split at h <;> (cases h; simp only [measure, Option.isSome]; grind)

/-- What a buffer gives up when it is drained, and how it is left. -/
structure Drained where
  messages : List Message
  flaw : Option Flaw
  rest : Buffer
  deriving Repr

/-- Take steps until the buffer waits for more bytes or refuses them. -/
def drain (b : Buffer) : Drained :=
  match _h : b.step with
  | .wait => ⟨[], none, b⟩
  | .refuse flaw => ⟨[], some flaw, b⟩
  | .take next message =>
    let d := drain next
    { d with messages := message.toList ++ d.messages }
termination_by b.measure
decreasing_by exact measure_step _h

/-- Add bytes and cut out every message they complete. -/
def push (b : Buffer) (bytes : Bytes) : Except Flaw (List Message) × Buffer :=
  let d := drain { b with pending := b.pending.add bytes }
  match d.flaw with
  | none => (.ok d.messages, d.rest)
  | some flaw => (.error flaw, d.rest)

/-- The number of bytes not looked at yet. -/
def length (b : Buffer) : Nat :=
  b.pending.size

/-- Whether there are neither bytes to look at nor frames of an unfinished message. A header already
read does not count. -/
def isEmpty (b : Buffer) : Bool :=
  b.pending.size = 0 && b.held.isEmpty

def clear (b : Buffer) : Buffer :=
  { limit := b.limit }

end Buffer

end Switchboard.Wire
