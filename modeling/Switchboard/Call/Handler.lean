import Switchboard.Call.Context
import Switchboard.Notice

/-!
# Handlers

A handler runs one hook before a call and one after it. Every call makes its handlers anew, so that a
handler may keep something between its hooks (`σ`). The first hook may change what is sent, the second
only looks. Whatever goes wrong in a handler is told and otherwise without effect; a handler that
cannot be made is left out.
-/

namespace Switchboard.Call

variable {σ : Type}

/-- How a hook can go wrong. -/
inductive Mishap where
  | fault (f : Fault)
  | panic (p : Panic)
  deriving DecidableEq, Repr

/-- What a hook leaves behind. -/
structure Ran (σ α : Type) where
  state : σ
  result : α
  mishap : Option Mishap := none

structure Handler (σ : Type) where
  name : String
  create : Except Panic σ
  before : σ → Context → Ran σ Outgoing
  after : σ → Context → Ran σ Unit

/-- The handlers of every call, in the order their hooks run. -/
abbrev Registry (σ : Type) := List (Handler σ)

namespace Registry

def names (r : Registry σ) : List String :=
  r.map Handler.name

/-- Install a registry where there may be one already. -/
def install (installed : Option (Registry σ)) (r : Registry σ) : Except Fault (Registry σ) :=
  match installed with
  | none => .ok r
  | some _ => .error .alreadyInstalled

end Registry

/-- A hook that was run: what it saw of the call, and the state it left its handler in. -/
structure HookRun (σ : Type) where
  handler : String
  hook : Hook
  seen : Context
  state : σ

/-- What is written down in the course of a call. -/
inductive Note (σ : Type) where
  | notice (n : Notice)
  | hook (run : HookRun σ)

/-- A handler made for one call. -/
structure Link (σ : Type) where
  handler : Handler σ
  state : σ

abbrev Chain (σ : Type) := List (Link σ)

/-- Make the handlers of one call. -/
def Registry.instantiate (r : Registry σ) : Chain σ × List (Note σ) :=
  (r.filterMap fun h =>
      match h.create with
      | .ok state => some ⟨h, state⟩
      | .error _ => none,
    r.filterMap fun h =>
      match h.create with
      | .ok _ => none
      | .error panic => some (.notice (.factoryPanicked h.name panic)))

namespace Link

/-- What there is to tell about a hook that went wrong. -/
def told (name : String) (hook : Hook) (station : String) : Option Mishap → List (Note σ)
  | none => []
  | some (.fault fault) => [.notice (.hookFailed name hook station fault)]
  | some (.panic panic) => [.notice (.hookPanicked name hook station panic)]

def before (l : Link σ) (ctx : Context) : Link σ × Context × List (Note σ) :=
  let ran := l.handler.before l.state ctx
  ({ l with state := ran.state }, { ctx with outgoing := ran.result },
    .hook ⟨l.handler.name, .before, ctx, ran.state⟩ ::
      told l.handler.name .before ctx.station ran.mishap)

def after (l : Link σ) (ctx : Context) : Link σ × List (Note σ) :=
  let ran := l.handler.after l.state ctx
  ({ l with state := ran.state },
    .hook ⟨l.handler.name, .after, ctx, ran.state⟩ ::
      told l.handler.name .after ctx.station ran.mishap)

end Link

namespace Chain

/-- Run the first hooks in order, each on what the one before has left. -/
def before (chain : Chain σ) (ctx : Context) : Chain σ × Context × List (Note σ) :=
  match chain with
  | [] => ([], ctx, [])
  | l :: rest =>
    let (l, ctx, notes) := l.before ctx
    let (rest, ctx, more) := before rest ctx
    (l :: rest, ctx, notes ++ more)

/-- Run the second hooks in order. -/
def after (chain : Chain σ) (ctx : Context) : Chain σ × List (Note σ) :=
  let ran := chain.map (·.after ctx)
  (ran.map Prod.fst, ran.flatMap Prod.snd)

end Chain

end Switchboard.Call
