import Switchboard.Proofs.Call.Hooks

/-!
# Handlers that go wrong

To tame a registry is to leave out the handlers that cannot be made, and to let the hooks of the others
do what they do without going wrong. A call with the tamed registry is the call itself, only that
nothing is told of handlers that went wrong (`call_mute`).
-/

namespace Switchboard.Call

open Dialogue Event

variable {σ : Type}

/-- The note does not tell that a handler has gone wrong. -/
def Note.isKept (entry : Note σ) : Bool :=
  !entry.isMishap

@[simp] theorem Note.isKept_hook (run : HookRun σ) : (Note.hook run).isKept = true := rfl

theorem Note.filter_isKept {entries : List (Note σ)} (mishaps : ∀ entry ∈ entries, entry.isMishap) :
    entries.filter Note.isKept = [] :=
  List.filter_eq_nil_iff.mpr fun entry mem => by simp [isKept, mishaps entry mem]

/-- The handler with hooks that do the same and do not go wrong. -/
def Handler.tamed (h : Handler σ) : Handler σ :=
  { h with
    before := fun state ctx => { h.before state ctx with mishap := none }
    after := fun state ctx => { h.after state ctx with mishap := none } }

/-- The registry of the handlers that can be made, all tamed. -/
def Registry.tamed (r : Registry σ) : Registry σ :=
  (r.filter (·.create.isOk)).map Handler.tamed

def Engine.tamed (e : Engine σ) : Engine σ :=
  { e with handlers := e.handlers.tamed }

def Link.tamed (l : Link σ) : Link σ :=
  { l with handler := l.handler.tamed }

def Chain.tamed (chain : Chain σ) : Chain σ :=
  chain.map Link.tamed

namespace Link

@[simp] theorem told_none (name : String) (hook : Hook) (station : String) :
    (told name hook station none : List (Note σ)) = [] := rfl

@[simp] theorem filter_told (name : String) (hook : Hook) (station : String)
    (mishap : Option Mishap) :
    (told name hook station mishap : List (Note σ)).filter Note.isKept = [] :=
  Note.filter_isKept fun _ => isMishap_of_mem_told

theorem before_tamed (l : Link σ) (ctx : Context) :
    l.tamed.before ctx =
      ((l.before ctx).1.tamed, (l.before ctx).2.1, (l.before ctx).2.2.filter Note.isKept) := by
  simp [before, tamed, Handler.tamed, List.filter_cons]

theorem after_tamed (l : Link σ) (ctx : Context) :
    l.tamed.after ctx = ((l.after ctx).1.tamed, (l.after ctx).2.filter Note.isKept) := by
  simp [after, tamed, Handler.tamed, List.filter_cons]

end Link

/-- A tamed registry makes the same handlers, tamed, and all of them. -/
theorem Registry.instantiate_tamed (r : Registry σ) :
    r.tamed.instantiate = (Chain.tamed r.instantiate.1, []) := by
  refine Prod.ext ?_ ?_
  · simp only [instantiate, Registry.tamed, Chain.tamed, List.filterMap_map, List.filterMap_filter,
      List.map_filterMap]
    refine congrArg (List.filterMap · r) (funext fun h => ?_)
    cases created : h.create <;>
      simp [created, Handler.tamed, Link.tamed, Except.isOk, Except.toBool]
  · refine List.filterMap_eq_nil_iff.mpr fun h mem => ?_
    obtain ⟨wild, wild_mem, rfl⟩ := List.mem_map.mp mem
    have made := (List.mem_filter.mp wild_mem).2
    cases created : wild.create with
    | ok state => simp [Handler.tamed, created]
    | error panic => simp [created, Except.isOk, Except.toBool] at made

namespace Chain

theorem before_tamed (chain : Chain σ) (ctx : Context) :
    before chain.tamed ctx = ((before chain ctx).1.tamed, (before chain ctx).2.1,
      (before chain ctx).2.2.filter Note.isKept) := by
  induction chain generalizing ctx with
  | nil => rfl
  | cons l rest ih =>
    simp only [tamed, List.map_cons, before, Link.before_tamed, List.filter_append] at ih ⊢
    rw [ih]

theorem after_tamed (chain : Chain σ) (ctx : Context) :
    (after chain.tamed ctx).2 = (after chain ctx).2.filter Note.isKept := by
  induction chain with
  | nil => rfl
  | cons l rest ih =>
    have cons : (after (tamed (l :: rest)) ctx).2 =
        (l.tamed.after ctx).2 ++ (after (tamed rest) ctx).2 := rfl
    rw [cons, ih, Link.after_tamed, after_cons, List.filter_append]

end Chain

namespace Engine

theorem links_tamed (e : Engine σ) (ctx : Context) :
    e.tamed.links ctx = ((e.links ctx).1.tamed, []) := by
  unfold links
  split
  · rfl
  · exact Registry.instantiate_tamed _

theorem filter_links (e : Engine σ) (ctx : Context) : (e.links ctx).2.filter Note.isKept = [] := by
  unfold links
  split
  · rfl
  · exact Note.filter_isKept fun _ => Registry.isMishap_of_mem_instantiate

theorem filter_closingNotes (e : Engine σ) (chain : Chain σ) (done : Context) :
    (e.closingNotes chain done).filter Note.isKept = e.tamed.closingNotes chain.tamed done := by
  have told : e.tamed.closingNotes chain.tamed done =
      (if (e.envelope done).isSuccess then [] else
        [.notice (.callFailed (e.rewarded done).station (e.rewarded done).command
          (e.rewarded done).outcome (e.envelope done).code)]) ++
        (Chain.after chain.tamed (e.rewarded done)).2 := rfl
  rw [told, Chain.after_tamed]
  unfold closingNotes
  rw [List.filter_append]
  split <;> rfl

/-- Nothing is told of a handler in an exchange. -/
theorem exchange_mute (e : Engine σ) (ctx : Context) :
    (e.exchange ctx).mute Note.isKept = e.exchange ctx := by
  refine mute_eq_self ((e.exchange_always ctx).mono fun event businesslike => ?_)
  cases event with
  | noted entry =>
    cases entry with
    | notice n =>
      have calm : n.isMishap = false := businesslike
      simp [Note.isKept, Note.isMishap, calm]
    | hook run => rfl
  | discarded | asked state request answer => rfl

/-- Without what is told of handlers that went wrong, a call is the call with tamed handlers. -/
theorem call_mute (e : Engine σ) (ctx : Context) :
    (e.call ctx).mute Note.isKept = e.tamed.call ctx := by
  have briefed : e.tamed.briefed ctx = e.briefed ctx := by
    unfold Engine.briefed
    rw [links_tamed, Chain.before_tamed]
  simp only [call_eq, bind_eq, pure_eq, mute_bind, mute_tellAll, exchange_mute, filter_links,
    filter_closingNotes, links_tamed, Chain.before_tamed, briefed]
  rfl

end Engine

end Switchboard.Call
