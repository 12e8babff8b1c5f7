import Switchboard.Pool.Basic
import Switchboard.Pool.Directory

/-!
# Admission

An attempt at a station names the station and an affinity. The directory answers the endpoints that
serve the station, the affinity prefers one of them, and the pool grants a socket, a slot or nothing.
All of it is one step on the pool; connecting comes after it.
-/

namespace Switchboard.Pool

variable {α : Type}

structure Admission (α : Type) extends Requested α where
  /-- The endpoint that a new socket goes to. -/
  preferred : String
  deriving DecidableEq, Repr

/-- What the pool does at once for an attempt; nothing when no endpoint serves the station. -/
def admission (p : Pool α) (d : Directory) (station affinity : String) : Option (Admission α) := do
  let endpoints ← d.resolve station
  let preferred ← endpoints[affinityIndex affinity endpoints.length]?
  return { p.request station endpoints preferred with preferred }

end Switchboard.Pool
