import Mathlib.Data.Multiset.Count
import Mathlib.Logic.Relation
import Switchboard.Proofs.Pool.Sockets

/-!
# Clients of a pool

Any number of clients use one pool, each at its own pace, while the directory changes. What a client
has of the pool at a moment is its hold; `Hold.Move` says what it can do next, all of it between two
moments at which the others may act. `Usage.Step` is the move of some client, or a change around them.
-/

namespace Switchboard

namespace Pool

variable {α : Type}

/-- What a client has of a pool at a moment. -/
inductive Hold (α : Type) where
  | nothing
  /-- It has looked a station up and is about to ask the pool. -/
  | inquiry (directory : Directory) (station affinity : String)
  /-- It is connecting, with a slot reserved. -/
  | dial (station endpoint : String)
  | lease (l : Lease α)

namespace Hold

/-- Give up what is held: a reserved slot is free again, and a lease ends. -/
def drop (p : Pool α) : Hold α → Pool α
  | nothing | inquiry .. => p
  | dial station _ => p.freeSlot station
  | lease l => (p.release l).1

@[simp] theorem drop_nothing (p : Pool α) : nothing.drop p = p := rfl

@[simp] theorem drop_dial (p : Pool α) (station endpoint : String) :
    (dial station endpoint).drop p = p.freeSlot station := rfl

@[simp] theorem drop_lease (p : Pool α) (l : Lease α) : (lease l).drop p = (p.release l).1 := rfl

theorem drop_unfit (p : Pool α) {l : Lease α} (unfit : l.isUnfit = true) :
    (lease l).drop p = p.freeSlot l.station := by
  simp [release, unfit]

theorem drop_fit (p : Pool α) {l : Lease α} (fit : l.isUnfit = false) :
    (lease l).drop p = p.update l.station (·.giveBack l.toIdle) := by
  simp [release, fit]

def isDial (station : String) : Hold α → Bool
  | dial name _ => name = station
  | _ => false

def isLease (station : String) : Hold α → Bool
  | lease l => l.station = station
  | _ => false

/-- Whether the hold is a lease of the socket with a number. -/
def isOf (n : Nat) : Hold α → Bool
  | lease l => l.id = n
  | _ => false

end Hold

/-- What the answer to a request gives a client to hold. -/
def Admission.hold (a : Admission α) (station : String) : Hold α :=
  match a.grant with
  | .reuse i => .lease (.ofIdle station i)
  | .connect => .dial station a.preferred
  | .refuse => .nothing

/-- What a client can do at once, and what it makes of the pool. -/
inductive Hold.Move (d : Directory) (p : Pool α) : Hold α → Pool α → Hold α → Prop
  | inquire (station affinity : String) : Move d p .nothing p (.inquiry d station affinity)
  | unserved {directory : Directory} {station affinity : String}
      (h : p.admission directory station affinity = none) :
      Move d p (.inquiry directory station affinity) p .nothing
  | admitted {directory : Directory} {station affinity : String} {a : Admission α}
      (h : p.admission directory station affinity = some a) :
      Move d p (.inquiry directory station affinity) a.pool (a.hold station)
  | connected (station endpoint : String) (socket : α) :
      Move d p (.dial station endpoint) (p.connected station endpoint socket).1
        (.lease (p.connected station endpoint socket).2)
  /-- A leased socket is used: nothing is known of the socket and the lease's marks afterwards. -/
  | used (l : Lease α) (socket : α) (unhealthy inFlight : Bool) :
      Move d p (.lease l) p (.lease { l with socket, unhealthy, inFlight })
  | dropped (hold : Hold α) : Move d p hold (hold.drop p) .nothing

/-- A directory, a pool, and what the clients of the pool hold. -/
structure Usage (α : Type) where
  directory : Directory := []
  pool : Pool α
  holds : Multiset (Hold α) := 0

namespace Usage

inductive Step : Usage α → Usage α → Prop
  | redirect (u : Usage α) (directory : Directory) : Step u { u with directory }
  | join (u : Usage α) : Step u { u with holds := .nothing ::ₘ u.holds }
  | leave (d : Directory) (p : Pool α) (rest : Multiset (Hold α)) :
      Step ⟨d, p, .nothing ::ₘ rest⟩ ⟨d, p, rest⟩
  | move {d : Directory} {p p' : Pool α} {hold hold' : Hold α} (rest : Multiset (Hold α))
      (h : hold.Move d p p' hold') : Step ⟨d, p, hold ::ₘ rest⟩ ⟨d, p', hold' ::ₘ rest⟩

/-- The usage comes about from an empty pool. -/
def Reachable (cap : Nat) (u : Usage α) : Prop :=
  Relation.ReflTransGen Step { pool := { cap } } u

/-- The sockets of a station that are leased. -/
def leased (u : Usage α) (station : String) : Nat :=
  u.holds.countP fun hold => hold.isLease station

/-- The sockets of a station that are being connected. -/
def dialled (u : Usage α) (station : String) : Nat :=
  u.holds.countP fun hold => hold.isDial station

end Usage

end Pool

end Switchboard
