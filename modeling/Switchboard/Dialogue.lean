import Switchboard.Fault
import Switchboard.Wire.Message

/-!
# Dialogues with a station

What a client does to a station is a dialogue: it opens a line, sends and receives messages on it, and
comes to a result. A dialogue is a tree of requests, each with what follows for every answer, so that
it can be run on real sockets, on scripted ones, or just be looked at. The line is given up when the
dialogue ends, to be used again unless it was discarded.

A dialogue that is broken off is broken off at a request; `state` is what is known at that point.
-/

namespace Switchboard

/-- What a dialogue asks of the network. Limits are in milliseconds. -/
inductive Request where
  /-- Get a line to a station; calls of one affinity prefer one endpoint. -/
  | open (station affinity : String) (limit : Nat)
  | send (message : Wire.Message)
  | receive (limit : Nat)
  deriving DecidableEq, Repr

/-- The answer to a request for a line. -/
inductive Opened where
  | line (endpoint : String)
  | unavailable
  | late
  deriving DecidableEq, Repr

/-- The answer to a request for a message. -/
inductive Received where
  | message (m : Wire.Message)
  | fault (f : Fault)
  | late
  deriving DecidableEq, Repr

abbrev Request.Answer : Request → Type
  | .open .. => Opened
  | .send _ => Option Fault
  | .receive _ => Received

/-- A dialogue that writes down notes `ν`, is in a state `τ` at each request, and gives an `α`. -/
inductive Dialogue (ν τ α : Type) where
  | finish (result : α)
  | note (entry : ν) (next : Dialogue ν τ α)
  /-- The line is not to be used again. -/
  | discard (next : Dialogue ν τ α)
  | ask (state : τ) (request : Request) (next : request.Answer → Dialogue ν τ α)

namespace Dialogue

variable {ν τ α β : Type}

def bind : Dialogue ν τ α → (α → Dialogue ν τ β) → Dialogue ν τ β
  | .finish a, f => f a
  | .note entry next, f => .note entry (next.bind f)
  | .discard next, f => .discard (next.bind f)
  | .ask state request next, f => .ask state request fun answer => (next answer).bind f

instance : Monad (Dialogue ν τ) where
  pure := .finish
  bind := .bind

def tell (entry : ν) : Dialogue ν τ Unit :=
  .note entry (.finish ())

def tellAll (entries : List ν) : Dialogue ν τ Unit :=
  entries.forM tell

def discardLine : Dialogue ν τ Unit :=
  .discard (.finish ())

def openLine (state : τ) (station affinity : String) (limit : Nat) : Dialogue ν τ Opened :=
  .ask state (.open station affinity limit) .finish

def send (state : τ) (message : Wire.Message) : Dialogue ν τ (Option Fault) :=
  .ask state (.send message) .finish

def receive (state : τ) (limit : Nat) : Dialogue ν τ Received :=
  .ask state (.receive limit) .finish

end Dialogue

end Switchboard
