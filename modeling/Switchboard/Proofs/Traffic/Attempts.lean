import Mathlib.Data.Multiset.MapFold
import Switchboard.Call.Engine
import Switchboard.Plan.Submit
import Switchboard.Proofs.Dialogue.Runs
import Switchboard.Proofs.Pool.Usage

/-!
# Attempts that share a pool

An attempt is a call or a submitted plan in progress: what is left of its dialogue, what it holds of
the pool, and what has happened in it. It moves between the moments at which it waits, and the moves of
all attempts interleave in any way. An attempt is over when its dialogue has come to an end, or when it
is abandoned while it waits: for a connection, or in the middle of a send or a receive. Either way it
gives up what it holds.
-/

namespace Switchboard

open Pool

namespace Traffic

variable {σ α : Type}

/-- What a client sets out to do. -/
inductive Task (σ : Type) where
  | call (e : Call.Engine σ) (ctx : Call.Context)
  | submit (config : Config) (r : Plan.PlanRequest)

namespace Task

/-- What is known of a task at each request. -/
abbrev State : Task σ → Type
  | call .. => Call.Context
  | submit .. => Unit

abbrev Result : Task σ → Type
  | call .. => Envelope × Call.Context
  | submit .. => Envelope

def dialogue : (t : Task σ) → Dialogue (Call.Note σ) t.State t.Result
  | call e ctx => e.call ctx
  | submit config r => Plan.submit config r

end Task

/-- A task in progress. -/
structure Attempt (σ α : Type) where
  task : Task σ
  /-- What is left to do. -/
  rest : Dialogue (Call.Note σ) task.State task.Result
  hold : Hold α := .nothing
  /-- What has happened so far. -/
  events : List (Event (Call.Note σ) task.State) := []

namespace Attempt

/-- A task that has not begun. -/
def start (task : Task σ) : Attempt σ α where
  task
  rest := task.dialogue

/-- The dialogue goes on after something that happened. -/
def advance (a : Attempt σ α) (event : Event (Call.Note σ) a.task.State)
    (rest : Dialogue (Call.Note σ) a.task.State a.task.Result) (hold : Hold α) : Attempt σ α :=
  { a with rest, hold, events := a.events ++ [event] }

/-- The attempt waits for the answer to a request. -/
structure Asks (a : Attempt σ α) (request : Request) where
  state : a.task.State
  next : request.Answer → Dialogue (Call.Note σ) a.task.State a.task.Result
  waits : a.rest = .ask state request next

/-- The answer has come. -/
def Asks.answer {a : Attempt σ α} {request : Request} (asks : a.Asks request)
    (answer : request.Answer) (hold : Hold α) : Attempt σ α :=
  a.advance (.asked asks.state request answer) (asks.next answer) hold

/-- The result is known. -/
def IsFinished (a : Attempt σ α) : Prop :=
  ∃ result, a.rest = .finish result

/-- The attempt is connecting, or in the middle of a send or a receive. -/
def IsSuspended (a : Attempt σ α) : Prop :=
  (∃ station endpoint, a.hold = .dial station endpoint) ∨
    ∃ l request, a.hold = .lease l ∧ l.inFlight = true ∧ Nonempty (a.Asks request)

/-- The attempt may be at its end now: it ran to its end, or it is abandoned here. -/
def IsOver (a : Attempt σ α) : Prop :=
  a.IsFinished ∨ a.IsSuspended

end Attempt

/-- The hold after the line was discarded. -/
def discarded : Hold α → Hold α
  | .lease l => .lease { l with unhealthy := true }
  | hold => hold

/-- What an attempt does next, and what that makes of the pool. A send or a receive that was begun and
does not bring what it should leaves its mark on the lease. -/
inductive Move (d : Directory) (p : Pool α) (a : Attempt σ α) : Pool α → Attempt σ α → Prop
  | note {entry : Call.Note σ} {next : Dialogue (Call.Note σ) a.task.State a.task.Result}
      (h : a.rest = .note entry next) : Move d p a p (a.advance (.noted entry) next a.hold)
  | discard {next : Dialogue (Call.Note σ) a.task.State a.task.Result}
      (h : a.rest = .discard next) : Move d p a p (a.advance .discarded next (discarded a.hold))
  | inquire {station affinity : String} {limit : Nat}
      (asks : a.Asks (.open station affinity limit)) (empty : a.hold = .nothing) :
      Move d p a p { a with hold := .inquiry d station affinity }
  | unserved {station affinity : String} {limit : Nat} {known : Directory}
      (asks : a.Asks (.open station affinity limit))
      (inquiry : a.hold = .inquiry known station affinity)
      (nobody : p.admission known station affinity = none) :
      Move d p a p (asks.answer .unavailable .nothing)
  | refused {station affinity : String} {limit : Nat} {known : Directory}
      {admission : Admission α} (asks : a.Asks (.open station affinity limit))
      (inquiry : a.hold = .inquiry known station affinity)
      (admitted : p.admission known station affinity = some admission)
      (grant : admission.grant = .refuse) :
      Move d p a admission.pool (asks.answer .unavailable .nothing)
  | reused {station affinity : String} {limit : Nat} {known : Directory}
      {admission : Admission α} {i : Idle α} (asks : a.Asks (.open station affinity limit))
      (inquiry : a.hold = .inquiry known station affinity)
      (admitted : p.admission known station affinity = some admission)
      (grant : admission.grant = .reuse i) :
      Move d p a admission.pool (asks.answer (.line i.endpoint) (.lease (.ofIdle station i)))
  | dialled {station affinity : String} {limit : Nat} {known : Directory}
      {admission : Admission α} (asks : a.Asks (.open station affinity limit))
      (inquiry : a.hold = .inquiry known station affinity)
      (admitted : p.admission known station affinity = some admission)
      (grant : admission.grant = .connect) :
      Move d p a admission.pool { a with hold := .dial station admission.preferred }
  | connected {station affinity endpoint : String} {limit : Nat} (socket : α)
      (asks : a.Asks (.open station affinity limit)) (dial : a.hold = .dial station endpoint) :
      Move d p a (p.connected station endpoint socket).1
        (asks.answer (.line endpoint) (.lease (p.connected station endpoint socket).2))
  /-- Connecting has failed, or takes too long. -/
  | unconnected {station affinity endpoint : String} {limit : Nat} (opened : Opened)
      (asks : a.Asks (.open station affinity limit)) (dial : a.hold = .dial station endpoint)
      (failed : opened = .unavailable ∨ opened = .late) :
      Move d p a (p.freeSlot station) (asks.answer opened .nothing)
  | begun {request : Request} {l : Lease α} (socket : α) (asks : a.Asks request)
      (leased : a.hold = .lease l) :
      Move d p a p { a with hold := .lease { l with socket, inFlight := true } }
  | sent {message : Wire.Message} {l : Lease α} (socket : α) (fault? : Option Fault)
      (asks : a.Asks (.send message)) (leased : a.hold = .lease l) (sending : l.inFlight = true) :
      Move d p a p
        (asks.answer fault? (.lease { l with socket, inFlight := fault?.isSome }))
  | received {limit : Nat} {l : Lease α} (socket : α) (received : Received)
      (asks : a.Asks (.receive limit)) (leased : a.hold = .lease l)
      (receiving : l.inFlight = true) :
      Move d p a p
        (asks.answer received
          (.lease { l with socket, inFlight := received matches .fault _ | .late }))

end Traffic

open Traffic in
/-- A directory, a pool, and the attempts in progress. -/
structure Traffic (σ α : Type) where
  directory : Directory := []
  pool : Pool α
  attempts : Multiset (Attempt σ α) := 0

namespace Traffic

variable {σ α : Type}

/-- An attempt is over and gives up what it holds. -/
inductive Ends (a : Attempt σ α) : Traffic σ α → Traffic σ α → Prop
  | ended (d : Directory) (p : Pool α) (others : Multiset (Attempt σ α)) (h : a.IsOver) :
      Ends a ⟨d, p, a ::ₘ others⟩ ⟨d, a.hold.drop p, others⟩

/-- One thing that happens: the directory changes, a client sets out on a task, an attempt moves, or
one ends. -/
inductive Step : Traffic σ α → Traffic σ α → Prop
  | redirect (t : Traffic σ α) (directory : Directory) : Step t { t with directory }
  | arrive (t : Traffic σ α) (task : Task σ) : Step t { t with attempts := .start task ::ₘ t.attempts }
  | move {d : Directory} {p p' : Pool α} {a a' : Attempt σ α} (others : Multiset (Attempt σ α))
      (h : Move d p a p' a') : Step ⟨d, p, a ::ₘ others⟩ ⟨d, p', a' ::ₘ others⟩
  | leave {t t' : Traffic σ α} (a : Attempt σ α) (h : Ends a t t') : Step t t'

/-- The traffic comes about from an empty pool. -/
def Reachable (cap : Nat) (t : Traffic σ α) : Prop :=
  Relation.ReflTransGen Step { pool := { cap } } t

/-- What the attempts are to the pool: clients that hold something of it. -/
def usage (t : Traffic σ α) : Usage α where
  directory := t.directory
  pool := t.pool
  holds := t.attempts.map Attempt.hold

theorem discarded_move (d : Directory) (p : Pool α) (hold : Hold α) :
    discarded hold = hold ∨ hold.Move d p p (discarded hold) := by
  cases hold with
  | nothing | inquiry directory station affinity | dial station endpoint => exact .inl rfl
  | lease l => exact .inr (.used l l.socket true l.inFlight)

/-- An attempt deals with the pool as any client does, or not at all. -/
theorem Move.hold {d : Directory} {p p' : Pool α} {a a' : Attempt σ α} (move : Move d p a p' a') :
    (p' = p ∧ a'.hold = a.hold) ∨ a.hold.Move d p p' a'.hold := by
  cases move with
  | note h => exact .inl ⟨rfl, rfl⟩
  | discard h =>
    rcases discarded_move d p a.hold with same | used
    · exact .inl ⟨rfl, same⟩
    · exact .inr used
  | @inquire station affinity limit asks empty =>
    rw [empty]
    exact .inr (.inquire station affinity)
  | unserved asks inquiry nobody =>
    rw [inquiry]
    exact .inr (.unserved nobody)
  | @refused station affinity limit known admission asks inquiry admitted grant =>
    have hold : admission.hold station = .nothing := by simp [Admission.hold, grant]
    rw [inquiry]
    exact .inr (hold ▸ .admitted admitted)
  | @reused station affinity limit known admission i asks inquiry admitted grant =>
    have hold : admission.hold station = .lease (.ofIdle station i) := by
      simp [Admission.hold, grant]
    rw [inquiry]
    exact .inr (hold ▸ .admitted admitted)
  | @dialled station affinity limit known admission asks inquiry admitted grant =>
    have hold : admission.hold station = .dial station admission.preferred := by
      simp [Admission.hold, grant]
    rw [inquiry]
    exact .inr (hold ▸ .admitted admitted)
  | connected socket asks dial =>
    rw [dial]
    exact .inr (.connected _ _ socket)
  | unconnected opened asks dial failed =>
    rw [dial]
    exact .inr (.dropped _)
  | begun socket asks leased =>
    rw [leased]
    exact .inr (.used _ socket _ true)
  | sent socket fault? asks leased sending =>
    rw [leased]
    exact .inr (.used _ socket _ _)
  | received socket received asks leased receiving =>
    rw [leased]
    exact .inr (.used _ socket _ _)

theorem Step.usage {t t' : Traffic σ α} (step : Step t t') :
    Relation.ReflTransGen Usage.Step t.usage t'.usage := by
  cases step with
  | redirect _ d => exact .single (.redirect _ d)
  | arrive task =>
    simp only [Traffic.usage, Multiset.map_cons]
    exact .single (.join _)
  | @move d p p' a a' others move =>
    simp only [Traffic.usage, Multiset.map_cons]
    rcases move.hold with ⟨rfl, same⟩ | held
    · rw [same]
    · exact .single (.move _ held)
  | leave a ends =>
    obtain ⟨d, p, others, -⟩ := ends
    simp only [Traffic.usage, Multiset.map_cons]
    exact .tail (.single (.move _ (.dropped _))) (.leave ..)

theorem Reachable.usage {cap : Nat} {t : Traffic σ α} (reachable : Reachable cap t) :
    t.usage.Reachable cap := by
  induction reachable with
  | refl => exact .refl
  | tail _ step ih => exact ih.trans step.usage

end Traffic

end Switchboard
