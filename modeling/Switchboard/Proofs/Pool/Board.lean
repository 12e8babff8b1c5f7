import Switchboard.Proofs.Pool.Usage

/-!
# Boards

A board is a usage of a pool whose clients have numbers, so that one can say whose turn it is. A turn
concerns one station: the directory names it anew, or a client acts on what it holds there. What does
not depend on client, pool and directory is part of the turn, so that a board and a list of turns
determine a run. What a client can do in its turn is just what a client can do at all
(`Hold.move_iff_act`).
-/

namespace Switchboard.Pool

variable {α : Type}

/-- What a request for a socket comes to. -/
inductive Decision (α : Type) where
  | unserved
  | reuse (endpoint : String) (socket : α)
  | connect (endpoint : String)
  | refuse
  deriving DecidableEq, Repr

def Grant.decision (preferred : String) : Grant α → Decision α
  | .reuse i => .reuse i.endpoint i.socket
  | .connect => .connect preferred
  | .refuse => .refuse

/-- What a client does next. The socket that it gets connected, and what becomes of a leased one while
it is used, come from outside. -/
inductive Act (α : Type) where
  | inquire (affinity : String)
  | ask
  | connected (socket : α)
  | use (socket : α) (unhealthy inFlight : Bool)
  /-- Give up what is held, be it because connecting has failed. -/
  | drop

/-- What an act comes to. -/
structure Effect (α : Type) where
  decision : Option (Decision α) := none
  pool : Pool α
  hold : Hold α

/-- What asking a pool comes to, given what the pool does for it. -/
def Effect.asked (p : Pool α) (station : String) : Option (Admission α) → Effect α
  | none => { decision := some .unserved, pool := p, hold := .nothing }
  | some a =>
    { decision := some (a.grant.decision a.preferred), pool := a.pool, hold := a.hold station }

/-- The act of a client on what it holds, if this can be acted on in that way. -/
def Act.effect? (d : Directory) (p : Pool α) (station : String) : Act α → Hold α → Option (Effect α)
  | .inquire affinity, .nothing => some { pool := p, hold := .inquiry d station affinity }
  | .ask, .inquiry directory name affinity =>
    some (.asked p name (p.admission directory name affinity))
  | .connected socket, .dial name endpoint =>
    let (pool, lease) := p.connected name endpoint socket
    some { pool, hold := .lease lease }
  | .use socket unhealthy inFlight, .lease l =>
    some { pool := p, hold := .lease { l with socket, unhealthy, inFlight } }
  | .drop, hold => some { pool := hold.drop p, hold := .nothing }
  | _, _ => none

/-- All that acts come to. -/
inductive Act.Does (d : Directory) (p : Pool α) (station : String) :
    Act α → Hold α → Effect α → Prop
  | inquire (affinity : String) :
      Does d p station (.inquire affinity) .nothing
        { pool := p, hold := .inquiry d station affinity }
  | ask (directory : Directory) (name affinity : String) :
      Does d p station .ask (.inquiry directory name affinity)
        (.asked p name (p.admission directory name affinity))
  | connected (name endpoint : String) (socket : α) :
      Does d p station (.connected socket) (.dial name endpoint)
        { pool := (p.connected name endpoint socket).1
          hold := .lease (p.connected name endpoint socket).2 }
  | use (l : Lease α) (socket : α) (unhealthy inFlight : Bool) :
      Does d p station (.use socket unhealthy inFlight) (.lease l)
        { pool := p, hold := .lease { l with socket, unhealthy, inFlight } }
  | drop (hold : Hold α) : Does d p station .drop hold { pool := hold.drop p, hold := .nothing }

theorem Act.does_iff {act : Act α} {d : Directory} {p : Pool α} {station : String} {hold : Hold α}
    {e : Effect α} : act.Does d p station hold e ↔ act.effect? d p station hold = some e := by
  constructor
  · intro does
    cases does with
    | drop => simp [effect?]
    | inquire | ask | connected | use => rfl
  · intro done
    cases act with
    | drop =>
      obtain rfl := Option.some.inj done
      exact .drop hold
    | inquire affinity =>
      cases hold <;> cases done
      exact .inquire affinity
    | ask =>
      cases hold <;> cases done
      exact .ask ..
    | connected socket =>
      cases hold <;> cases done
      exact .connected ..
    | use socket unhealthy inFlight =>
      cases hold <;> cases done
      exact .use ..

/-- Whether nothing is held, or something of a station. -/
def Hold.isAt (station : String) : Hold α → Bool
  | nothing => true
  | inquiry _ name _ | dial name _ => name = station
  | lease l => l.station = station

/-- A client can do no more in its turn than it can do at all, and no less. -/
theorem Hold.move_iff_act {d : Directory} {p p' : Pool α} {hold hold' : Hold α} :
    hold.Move d p p' hold' ↔ ∃ (station : String) (act : Act α) (decision : Option (Decision α)),
      hold.isAt station ∧ act.effect? d p station hold = some ⟨decision, p', hold'⟩ := by
  constructor
  · intro move
    cases move with
    | inquire station affinity => exact ⟨station, .inquire affinity, none, rfl, rfl⟩
    | @unserved directory station affinity h =>
      exact ⟨station, .ask, some .unserved, by simp [isAt],
        by simp only [Act.effect?, h, Effect.asked]⟩
    | @admitted directory station affinity a h =>
      exact ⟨station, .ask, some (a.grant.decision a.preferred), by simp [isAt],
        by simp only [Act.effect?, h, Effect.asked]⟩
    | connected station endpoint socket =>
      exact ⟨station, .connected socket, none, by simp [isAt], rfl⟩
    | used l socket unhealthy inFlight =>
      exact ⟨l.station, .use socket unhealthy inFlight, none, by simp [isAt], rfl⟩
    | dropped =>
      have somewhere : ∃ station, hold.isAt station := by
        cases hold with
        | nothing => exact ⟨"", rfl⟩
        | inquiry directory name affinity => exact ⟨name, by simp [isAt]⟩
        | dial name endpoint => exact ⟨name, by simp [isAt]⟩
        | lease l => exact ⟨l.station, by simp [isAt]⟩
      obtain ⟨station, here⟩ := somewhere
      exact ⟨station, .drop, none, here, Act.does_iff.mp (.drop hold)⟩
  · rintro ⟨station, act, decision, here, done⟩
    generalize same : (⟨decision, p', hold'⟩ : Effect α) = e at done
    cases Act.does_iff.mpr done with
    | inquire affinity =>
      cases same
      exact .inquire station affinity
    | ask directory name affinity =>
      cases admitted : p.admission directory name affinity with
      | none =>
        cases admitted ▸ same
        exact .unserved admitted
      | some a =>
        cases admitted ▸ same
        exact .admitted admitted
    | connected name endpoint socket =>
      cases same
      exact .connected ..
    | use l socket unhealthy inFlight =>
      cases same
      exact .used ..
    | drop =>
      cases same
      exact .dropped hold

/-- A directory, a pool, and what each of the numbered clients holds. -/
structure Board (α : Type) where
  directory : Directory
  pool : Pool α
  hold : Nat → Hold α

/-- What is done next, and at which station. -/
inductive Turn (α : Type) where
  | insert (station : String) (endpoints : List String)
  | erase (station : String)
  | act (station : String) (client : Nat) (act : Act α)

def Turn.station : Turn α → String
  | insert station _ | erase station | act station _ _ => station

/-- A turn that was taken, what was decided in it, and the board it has left. -/
structure Entry (α : Type) where
  turn : Turn α
  decision : Option (Decision α)
  board : Board α

namespace Board

/-- The board before any turn. -/
def opened (cap : Nat) (directory : Directory) : Board α where
  directory
  pool := { cap }
  hold _ := .nothing

/-- Take a turn, if it can be taken: a client that holds something acts at the station of that. -/
def take? (b : Board α) : Turn α → Option (Option (Decision α) × Board α)
  | .insert station endpoints =>
    some (none, { b with directory := b.directory.insert station endpoints })
  | .erase station => some (none, { b with directory := b.directory.erase station })
  | .act station client act =>
    if (b.hold client).isAt station then
      (act.effect? b.directory b.pool station (b.hold client)).map fun effect =>
        (effect.decision,
          { b with pool := effect.pool, hold := Function.update b.hold client effect.hold })
    else none

/-- Take one turn after the other, if all can be taken. -/
def run : Board α → List (Turn α) → Option (List (Entry α))
  | _, [] => some []
  | b, turn :: rest => do
    let (decision, next) ← b.take? turn
    let later ← next.run rest
    return ⟨turn, decision, next⟩ :: later

end Board

end Switchboard.Pool
