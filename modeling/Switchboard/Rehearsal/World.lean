import Switchboard.Call.Handler
import Switchboard.Dialogue
import Switchboard.Pool.Admission
import Switchboard.Rehearsal.Line

/-!
# Rehearsals

A rehearsal runs dialogues in a world of its own: a directory, a pool, a clock, and a script for every
connection that is made. What happens is written into a journal.
-/

namespace Switchboard.Rehearsal

variable {σ τ α : Type}

/-- How an attempt to connect fares. -/
inductive ConnectRule where
  | ok | refuse | closed | badEndpoint | stall
  | delay (ms : Nat)
  deriving DecidableEq, Repr

structure Script where
  connect : ConnectRule := .ok
  reads : List ReadItem := []
  writes : List WriteRule := []
  deriving Repr

inductive Entry (σ : Type) where
  | dialled (endpoint : String)
  | closed (connection : Nat)
  | wrote (connection : Nat) (bytes : Bytes)
  | note (n : Call.Note σ)

structure World (σ : Type) where
  now : Nat := 0
  frameLimit : Nat
  directory : Pool.Directory := []
  pool : Pool Line
  /-- The scripts of the connections to come. -/
  scripts : List Script
  /-- How many connections were tried. -/
  tried : Nat := 0
  /-- What happened, the latest first. -/
  journal : List (Entry σ) := []

/-- What is done in a world. -/
abbrev Stage (σ : Type) := StateM (World σ)

def enter (entry : Entry σ) : Stage σ Unit :=
  modify fun w => { w with journal := entry :: w.journal }

def log (n : Notice) : Stage σ Unit :=
  enter (.note (.notice n))

def sleep (ms : Nat) : Stage σ Unit :=
  modify fun w => { w with now := w.now + ms }

/-- Wait for something that is ready after some milliseconds, or never. -/
def await (p : Patience) (ms : Option Nat) : Stage σ (Wait Unit) :=
  modifyGet fun w =>
    let (wait, now) := p.await w.now (ms.map (w.now + ·))
    (wait, { w with now })

/-- Connect as the next script says. -/
def connect (p : Patience) (endpoint : String) : Stage σ (Wait (Except Fault Line)) := do
  enter (.dialled endpoint)
  let w ← get
  let script := w.scripts.headD { connect := .closed }
  set { w with scripts := w.scripts.tail, tried := w.tried + 1 }
  let line : Line :=
    { number := w.tried, reads := script.reads, writes := script.writes
      buffer := { limit := w.frameLimit } }
  let after (ms : Option Nat) : Stage σ (Wait (Except Fault Line)) := do
    match ← await p ms with
    | .done () => pure (.done (.ok line))
    | .late => pure .late
    | .abandoned => pure .abandoned
  match script.connect with
  | .ok => pure (.done (.ok line))
  | .refuse => pure (.done (.error (.io "scripted refusal")))
  | .closed => pure (.done (.error .closed))
  | .badEndpoint => pure (.done (.error (.endpoint endpoint)))
  | .stall => after none
  | .delay ms => after (some ms)

/-- Get a socket of a station, if there is one to be had. -/
def lease (p : Patience) (station affinity : String) :
    Stage σ (Wait (Option (Pool.Lease Line))) := do
  let w ← get
  let some admission := w.pool.admission w.directory station affinity | return .done none
  set { w with pool := admission.pool }
  admission.stale.forM fun i => enter (.closed i.socket.number)
  let free : Stage σ Unit := modify fun w => { w with pool := w.pool.freeSlot station }
  match admission.grant with
  | .reuse socket => return .done (some (.ofIdle station socket))
  | .refuse =>
    log (.socketCap station w.pool.cap)
    return .done none
  | .connect =>
    match ← connect p admission.preferred with
    | .done (.ok line) =>
      modifyGet fun w =>
        let (pool, lease) := w.pool.connected station admission.preferred line
        (.done (some lease), { w with pool })
    | .done (.error fault) =>
      free
      log (.connectFailed station admission.preferred fault)
      return .done none
    | .late =>
      free
      return .late
    | .abandoned =>
      free
      return .abandoned

def release (l : Pool.Lease Line) : Stage σ Unit := do
  let w ← get
  let (pool, given) := w.pool.release l
  set { w with pool }
  if let some line := given then enter (.closed line.number)

/-- Send on a leased line. A send that does not succeed leaves the lease in flight. -/
def send (p : Patience) (l : Pool.Lease Line) (message : Wire.Message) :
    Stage σ (Wait (Option Fault) × Pool.Lease Line) := do
  let w ← get
  let sent := l.socket.send p message w.now
  set { w with now := sent.now }
  if let some bytes := sent.taken then enter (.wrote sent.line.number bytes)
  let inFlight := match sent.result with
    | .done none => false
    | _ => true
  return (sent.result, { l with socket := sent.line, inFlight })

/-- Receive on a leased line. A receive that does not succeed leaves the lease in flight. -/
def receive (p : Patience) (l : Pool.Lease Line) :
    Stage σ (Wait (Except Fault Wire.Message) × Pool.Lease Line) := do
  let w ← get
  let (result, line, now) := l.socket.receive p w.now
  set { w with now }
  let inFlight := match result with
    | .done (.ok _) => false
    | _ => true
  return (result, { l with socket := line, inFlight })

/-- Serve one request of a dialogue that holds a line, or not yet. Nothing is answered to a dialogue
that is given up. -/
def serve (giveUp : Option Nat) (held : Option (Pool.Lease Line)) :
    (request : Request) → Stage σ (Option request.Answer × Option (Pool.Lease Line))
  | .open station affinity limit => do
    held.forM release
    let now := (← get).now
    match ← lease ⟨some (now + limit), giveUp⟩ station affinity with
    | .done (some l) => return (some (.line l.endpoint), some l)
    | .done none => return (some .unavailable, none)
    | .late => return (some .late, none)
    | .abandoned => return (none, none)
  | .send message => do
    let some l := held | return (some (some .closed), none)
    let (result, l) ← send ⟨none, giveUp⟩ l message
    match result with
    | .done answer => return (some answer, some l)
    | .late | .abandoned => return (none, some l)
  | .receive limit => do
    let some l := held | return (some (.fault .closed), none)
    let now := (← get).now
    let (result, l) ← receive ⟨some (now + limit), giveUp⟩ l
    match result with
    | .done (.ok message) => return (some (.message message), some l)
    | .done (.error fault) => return (some (.fault fault), some l)
    | .late => return (some .late, some l)
    | .abandoned => return (none, some l)

/-- How a dialogue ended: with its result, or given up in some state. -/
inductive Ended (τ α : Type) where
  | finished (result : α)
  | abandoned (state : τ)

/-- Run a dialogue that holds a line, or not yet, up to the moment it is given up. -/
def converseOn (giveUp : Option Nat) (held : Option (Pool.Lease Line)) :
    Dialogue (Call.Note σ) τ α → Stage σ (Ended τ α)
  | .finish result => do
    held.forM release
    return .finished result
  | .note entry next => do
    enter (.note entry)
    converseOn giveUp held next
  | .discard next => converseOn giveUp (held.map ({ · with unhealthy := true })) next
  | .ask state request next => do
    match ← serve giveUp held request with
    | (some answer, held) => converseOn giveUp held (next answer)
    | (none, held) =>
      held.forM release
      return .abandoned state

/-- Run a dialogue, giving it up after some milliseconds if it has not ended by then. -/
def converse (abandon : Option Nat) (d : Dialogue (Call.Note σ) τ α) :
    Stage σ (Ended τ α) := do
  let now := (← get).now
  converseOn (abandon.map (now + ·)) none d

end Switchboard.Rehearsal
