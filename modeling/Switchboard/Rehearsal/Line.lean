import Switchboard.Fault
import Switchboard.Rehearsal.Patience
import Switchboard.Wire.Stream

/-!
# Scripted lines

In a rehearsal the peer of a connection follows a script: what there is to read, piece by piece, and
how each message written to it fares. A `Line` puts messages on such a connection and takes them off.

One read gives the bytes of one piece, no more than a read buffer holds. A delay runs from the moment
a read first comes to it, whether or not that read is still waiting when it is over.
-/

namespace Switchboard.Rehearsal

inductive ReadItem where
  | bytes (b : Bytes)
  | delay (ms : Nat)
  | fail (text : String)
  | eof
  | stall
  deriving DecidableEq, Repr

/-- The most rounds that reading an item can take. -/
def ReadItem.rounds : ReadItem → Nat
  | .bytes b => b.length + 1
  | .delay _ => 2
  | _ => 1

/-- How a message fares that is written. -/
inductive WriteRule where
  | ok
  | fail
  /-- Nothing is accepted. -/
  | zero
  | stall
  /-- So many bytes are accepted at a time. -/
  | short (bytes : Nat)
  | flushFail
  | flushStall
  deriving DecidableEq, Repr

/-- What writing some bytes comes to. -/
inductive Written where
  | done
  | fault (f : Fault)
  | stuck
  deriving DecidableEq, Repr

/-- What a rule does to the bytes of a message: what comes of it, what the connection takes if it
takes a write at all, and whether the rule is used up. Without bytes there is only the flush. -/
def WriteRule.apply (rule : WriteRule) (bytes : Bytes) : Written × Option Bytes × Bool :=
  let all := if bytes.isEmpty then none else some bytes
  match rule, bytes with
  | .flushFail, _ => (.fault (.io "scripted flush failure"), all, true)
  | .flushStall, _ => (.stuck, all, false)
  | _, [] | .ok, _ => (.done, all, true)
  | .fail, _ => (.fault (.io "scripted write failure"), none, true)
  | .zero, _ => (.fault (.io "write zero"), none, true)
  | .stall, _ => (.stuck, none, false)
  | .short 0, _ => (.fault (.io "write zero"), some [], false)
  | .short _, _ => (.done, all, true)

def readBufferSize : Nat := 65536

structure Line where
  /-- The number of the connection. -/
  number : Nat
  /-- What no read has come to yet. -/
  reads : List ReadItem
  writes : List WriteRule
  /-- What is left of the piece being read. -/
  piece : Bytes := []
  /-- When the delay that a read has come to is over. -/
  due : Option Nat := none
  buffer : Wire.Buffer
  /-- Messages cut out of the stream and not received yet. -/
  ready : List Wire.Message := []
  deriving Repr

namespace Line

/-- The most rounds that reading all there is can take. -/
def measure (l : Line) : Nat :=
  scripted l.reads + l.piece.length + if l.due.isSome then 1 else 0
where
  scripted : List ReadItem → Nat
    | [] => 0
    | item :: rest => item.rounds + scripted rest

/-- What one look at the connection gives. -/
inductive Look where
  /-- Something was read, and there is more to look for. -/
  | more (next : Line)
  /-- There is more to look for once a delay is over. -/
  | delayed (due : Nat) (next : Line)
  /-- There will be nothing. -/
  | stalled
  | got (message : Wire.Message) (next : Line)
  | fault (f : Fault) (next : Line)

/-- Read as much of a piece as one read takes, and cut out the messages that are complete then. -/
def take (l : Line) : Look :=
  let (result, buffer) := l.buffer.push (l.piece.take readBufferSize)
  let l := { l with piece := l.piece.drop readBufferSize, buffer }
  match result with
  | .ok messages => .more { l with ready := messages }
  | .error flaw => .fault (.frame flaw) l

def look (l : Line) (now : Nat) : Look :=
  match l.ready with
  | message :: rest => .got message { l with ready := rest }
  | [] =>
    if !l.piece.isEmpty then l.take
    else
      match l.due, l.reads with
      | some due, _ => .delayed due { l with due := none }
      | none, [] | none, .stall :: _ => .stalled
      | none, .bytes b :: rest => .more { l with reads := rest, piece := b }
      | none, .delay ms :: rest => .more { l with reads := rest, due := some (now + ms) }
      | none, .fail text :: rest => .fault (.io text) { l with reads := rest }
      | none, .eof :: _ => .fault .closed l

theorem measure_take {l next : Line} (h : l.take = .more next) (piece : !l.piece.isEmpty) :
    next.measure < l.measure := by
  have : 0 < l.piece.length := by grind
  simp only [take] at h
  split at h <;> cases h
  simp only [measure, List.length_drop, readBufferSize]
  omega

theorem measure_more {l next : Line} {now : Nat} (h : l.look now = .more next) :
    next.measure < l.measure := by
  simp only [look] at h
  split at h
  · cases h
  · split at h
    · next piece => exact measure_take h piece
    · have : l.piece.length = 0 := by grind
      split at h <;> cases h <;>
        (simp only [measure, measure.scripted, ReadItem.rounds, Option.isSome, *]; grind)

theorem measure_delayed {l next : Line} {now due : Nat} (h : l.look now = .delayed due next) :
    next.measure < l.measure := by
  simp only [look] at h
  split at h
  · cases h
  · split at h
    · simp only [take] at h
      split at h <;> cases h
    · split at h <;> cases h
      simp only [measure, Option.isSome, *]
      grind

/-- Receive one message: the outcome, the line and the time afterwards. -/
def receive (p : Patience) (l : Line) (now : Nat) :
    Wait (Except Fault Wire.Message) × Line × Nat :=
  match _h : l.look now with
  | .more next => receive p next now
  | .delayed due next =>
    match p.await now (some due) with
    | (.done (), now) => receive p next now
    | (.late, now) => (.late, l, now)
    | (.abandoned, now) => (.abandoned, l, now)
  | .stalled =>
    match p.await now none with
    | (.late, now) => (.late, l, now)
    | (_, now) => (.abandoned, l, now)
  | .got message next => (.done (.ok message), next, now)
  | .fault f next => (.done (.error f), next, now)
termination_by l.measure
decreasing_by
  · exact measure_more _h
  · exact measure_delayed _h

/-- A message sent. -/
structure Sent where
  result : Wait (Option Fault)
  /-- What the connection took, if it took a write. -/
  taken : Option Bytes
  line : Line
  now : Nat

/-- Send one message. -/
def send (p : Patience) (l : Line) (message : Wire.Message) (now : Nat) : Sent :=
  let (written, taken, used) := (l.writes.headD .ok).apply message.layout
  let l := if used then { l with writes := l.writes.tail } else l
  match written with
  | .done => ⟨.done none, taken, l, now⟩
  | .fault f => ⟨.done (some f), taken, l, now⟩
  | .stuck =>
    match p.await now none with
    | (.late, now) => ⟨.late, taken, l, now⟩
    | (_, now) => ⟨.abandoned, taken, l, now⟩

end Line

end Switchboard.Rehearsal
