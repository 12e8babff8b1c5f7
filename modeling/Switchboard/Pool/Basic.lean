import Switchboard.Text.Quoted

/-!
# Pools of sockets

For each station a pool holds the sockets that are idle and counts those that are live: idle, leased
or being connected. A request for a socket takes an idle one, reserves a slot to connect a new one, or
is refused at the cap. A leased socket comes back to the idle ones, unless it is unfit: then it is
closed and its slot is free again.

Everything here is bookkeeping; connecting happens between `request` and `connected` or `freeSlot`.
-/

namespace Switchboard.Pool

variable {α : Type}

structure Idle (α : Type) where
  id : Nat
  endpoint : String
  socket : α
  deriving DecidableEq, Repr

/-- The sockets of one station. -/
structure Sockets (α : Type) where
  idle : List (Idle α) := []
  live : Nat := 0
  deriving DecidableEq, Repr

/-- The answer to a request for a socket. -/
inductive Grant (α : Type) where
  | reuse (socket : Idle α)
  | connect
  | refuse
  deriving DecidableEq, Repr

/-- Take an element out of a list and put the last one into its place. -/
def swapErase {β : Type} (l : List β) (i : Nat) : List β :=
  match l.getLast? with
  | none => []
  | some last => (l.set i last).dropLast

namespace Sockets

/-- The idle sockets whose endpoint has left the directory. -/
def stale (s : Sockets α) (endpoints : List String) : List (Idle α) :=
  s.idle.filter fun i => !endpoints.contains i.endpoint

/-- Give up the stale sockets. -/
def prune (s : Sockets α) (endpoints : List String) : Sockets α where
  idle := s.idle.filter fun i => endpoints.contains i.endpoint
  live := s.live - (s.stale endpoints).length

/-- The last idle socket to an endpoint. -/
def lastTo? (s : Sockets α) (endpoint : String) : Option Nat :=
  (s.idle.reverse.findIdx? (·.endpoint = endpoint)).map (s.idle.length - 1 - ·)

/-- Answer a request: the socket that came back last to the preferred endpoint, a new one, or at the
cap the one that came back last. -/
def grant (s : Sockets α) (cap : Nat) (preferred : String) : Grant α × Sockets α :=
  match (s.lastTo? preferred).bind fun i => (s.idle[i]?).map (i, ·) with
  | some (i, socket) => (.reuse socket, { s with idle := swapErase s.idle i })
  | none =>
    if s.live < cap then (.connect, { s with live := s.live + 1 })
    else
      match s.idle.getLast? with
      | some socket => (.reuse socket, { s with idle := s.idle.dropLast })
      | none => (.refuse, s)

def freeSlot (s : Sockets α) : Sockets α :=
  { s with live := s.live - 1 }

def giveBack (s : Sockets α) (socket : Idle α) : Sockets α :=
  { s with idle := s.idle ++ [socket] }

end Sockets

/-- A socket in use by one attempt. -/
structure Lease (α : Type) where
  station : String
  id : Nat
  endpoint : String
  socket : α
  /-- Whether an attempt found the socket wanting. -/
  unhealthy : Bool := false
  /-- Whether something was begun on it and not finished. -/
  inFlight : Bool := false
  deriving DecidableEq, Repr

namespace Lease

def ofIdle (station : String) (i : Idle α) : Lease α where
  station
  id := i.id
  endpoint := i.endpoint
  socket := i.socket

def toIdle (l : Lease α) : Idle α where
  id := l.id
  endpoint := l.endpoint
  socket := l.socket

/-- An unfit socket is not used again. -/
def isUnfit (l : Lease α) : Bool :=
  l.unhealthy || l.inFlight

/-- The lease as logs show it. -/
def shown (l : Lease α) : String :=
  "PooledSocket \x7b station: " ++ Text.quote l.station ++ ", endpoint: " ++ Text.quote l.endpoint ++
    s!", id: {l.id}, unhealthy: {l.unhealthy}, in_flight: {l.inFlight} \x7d"

end Lease

end Pool

open Pool in
structure Pool (α : Type) where
  cap : Nat
  /-- The number of the next socket. Numbers have no end here: it is taken that no pool opens 2^64
  sockets, after which a counter of 64 bits would start over. -/
  nextId : Nat := 1
  stations : List (String × Sockets α) := []
  deriving DecidableEq, Repr

namespace Pool

variable {α : Type}

def sockets (p : Pool α) (station : String) : Sockets α :=
  (p.stations.lookup station).getD {}

def idleCount (p : Pool α) (station : String) : Nat :=
  (p.sockets station).idle.length

def liveCount (p : Pool α) (station : String) : Nat :=
  (p.sockets station).live

def setSockets (stations : List (String × Sockets α)) (station : String) (s : Sockets α) :
    List (String × Sockets α) :=
  match stations with
  | [] => [(station, s)]
  | (name, old) :: rest =>
    if name = station then (station, s) :: rest else (name, old) :: setSockets rest station s

def update (p : Pool α) (station : String) (f : Sockets α → Sockets α) : Pool α :=
  { p with stations := setSockets p.stations station (f (p.sockets station)) }

/-- What a request for a socket does at once. -/
structure Requested (α : Type) where
  grant : Grant α
  /-- The sockets given up because their endpoints left the directory. -/
  stale : List (Idle α)
  pool : Pool α
  deriving DecidableEq, Repr

/-- Ask for a socket of a station that is served at the given endpoints. -/
def request (p : Pool α) (station : String) (endpoints : List String) (preferred : String) :
    Requested α :=
  let s := p.sockets station
  let (grant, next) := (s.prune endpoints).grant p.cap preferred
  ⟨grant, s.stale endpoints, p.update station fun _ => next⟩

/-- A reserved slot has got its socket, which is leased. It has a number that no socket had before it. -/
def connected (p : Pool α) (station endpoint : String) (socket : α) : Pool α × Lease α :=
  ({ p with nextId := p.nextId + 1 }, { station, id := p.nextId, endpoint, socket })

/-- A slot is free again. -/
def freeSlot (p : Pool α) (station : String) : Pool α :=
  p.update station Sockets.freeSlot

/-- End a lease; an unfit socket is given up. -/
def release (p : Pool α) (l : Lease α) : Pool α × Option α :=
  if l.isUnfit then (p.freeSlot l.station, some l.socket)
  else (p.update l.station (·.giveBack l.toIdle), none)

end Pool

end Switchboard
