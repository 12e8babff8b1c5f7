import Switchboard.Proofs.Call.Conduct
import Switchboard.Proofs.Dialogue.Notes

/-!
# The hooks of a call

A call runs the first hook of each of its handlers, then makes its exchange, then runs the second
hook of each. One instance serves a handler from its first hook to its second, and nothing that goes
wrong in a handler stands in the way of another (`call_attended`). The exchange itself has nothing to
do with handlers (`exchange_always`).
-/

namespace Switchboard.Call

open Dialogue Event

variable {σ : Type}

/-- The run of a hook that a note is about. -/
def Note.hook? : Note σ → Option (HookRun σ)
  | .hook run => some run
  | .notice _ => none

/-- To tell of mishaps is to run no hook. -/
theorem Note.filterMap_hook? {entries : List (Note σ)} (mishaps : ∀ entry ∈ entries, entry.isMishap) :
    entries.filterMap Note.hook? = [] := by
  refine List.filterMap_eq_nil_iff.mpr fun entry mem => ?_
  cases entry with
  | notice n => rfl
  | hook run => cases mishaps _ mem

/-- The hooks that were run, in order. -/
def hooks (events : List (Event (Note σ) Context)) : List (HookRun σ) :=
  events.filterMap fun
    | .noted entry => entry.hook?
    | .discarded | .asked .. => none

@[simp] theorem hooks_append (first later : List (Event (Note σ) Context)) :
    hooks (first ++ later) = hooks first ++ hooks later :=
  List.filterMap_append

@[simp] theorem hooks_map_noted (entries : List (Note σ)) :
    hooks (entries.map .noted) = entries.filterMap Note.hook? :=
  List.filterMap_map

/-- The event has nothing to do with handlers, and a call that asks something has this outcome. -/
def Businesslike (outcome : Outcome) : Event (Note σ) Context → Prop
  | .noted (.hook _) => False
  | .noted (.notice n) => n.isMishap = false
  | .asked ctx _ _ => ctx.outcome = outcome
  | .discarded => True

theorem hooks_of_businesslike {outcome : Outcome} {events : List (Event (Note σ) Context)}
    (businesslike : ∀ event ∈ events, Businesslike outcome event) : hooks events = [] := by
  refine List.filterMap_eq_nil_iff.mpr fun event mem => ?_
  have mine := businesslike event mem
  cases event with
  | noted entry =>
    cases entry with
    | notice n => rfl
    | hook run => exact mine.elim
  | discarded | asked state request answer => rfl

theorem settle_always (ctx : Context) (outcome : Outcome) (phase : Phase) (known : Outcome) :
    (settle ctx outcome phase : Attempt σ Context).Always (Businesslike known) := by
  unfold settle
  cases ctx.outcome.isSet with
  | false => trivial
  | true => exact ⟨rfl, trivial⟩

namespace Engine

theorem receiveReply_always (e : Engine σ) (ctx : Context) (endpoint : String) :
    (e.receiveReply ctx endpoint).Always (Businesslike ctx.outcome) := by
  have failed (outcome : Outcome) :
      (do return .error (← fail ctx outcome) : Attempt σ (Except Context Wire.Decoded)).Always
        (Businesslike ctx.outcome) :=
    (settle_always ctx outcome .failed _).bind fun _ => trivial
  intro received
  refine ⟨rfl, ?_⟩
  cases received with
  | late => exact ⟨rfl, trivial, failed (.remote .timedOut)⟩
  | fault fault => exact ⟨rfl, trivial, failed (.local .recvError)⟩
  | message m =>
    simp only [finish_bind]
    cases Wire.decodeReply m with
    | ok reply => trivial
    | error flaw => exact ⟨rfl, trivial, failed (.local .localException)⟩

theorem awaitResult_always (e : Engine σ) (ctx : Context) (endpoint : String) :
    (e.awaitResult ctx endpoint).Always (Businesslike ctx.outcome) := by
  refine (e.receiveReply_always ctx endpoint).bind fun first => ?_
  cases first with
  | error ctx => trivial
  | ok ack =>
    dsimp only
    split
    · exact settle_always _ _ _ _
    · have known : ((ctx.absorb ack).enter .running).outcome = ctx.outcome :=
        Context.enter_outcome _ _
      refine (known ▸ e.receiveReply_always _ endpoint).bind fun second => ?_
      cases second with
      | error ctx => trivial
      | ok result => exact settle_always _ _ _ _

/-- In an exchange no hook is run and nothing is told of a handler, and while something is asked the
outcome is still the one there was before. -/
theorem exchange_always (e : Engine σ) (ctx : Context) :
    (e.exchange ctx).Always (Businesslike ctx.outcome) := by
  intro opened
  refine ⟨rfl, ?_⟩
  cases opened with
  | unavailable => exact settle_always _ _ _ _
  | late => exact ⟨rfl, settle_always _ _ _ _⟩
  | line endpoint =>
    intro fault?
    refine ⟨rfl, ?_⟩
    cases fault? with
    | some fault => exact ⟨rfl, trivial, settle_always _ _ _ _⟩
    | none =>
      have known : ((ctx.enter .sent).enter .awaitingAck).outcome = ctx.outcome := by simp
      exact known ▸ e.awaitResult_always _ endpoint

end Engine

@[simp] theorem Link.filterMap_told (name : String) (hook : Hook) (station : String)
    (mishap : Option Mishap) :
    (told name hook station mishap : List (Note σ)).filterMap Note.hook? = [] :=
  Note.filterMap_hook? fun _ => isMishap_of_mem_told

namespace Registry

theorem instantiate_handlers (r : Registry σ) :
    r.instantiate.1.map (·.handler) = r.filter (·.create.isOk) := by
  induction r with
  | nil => rfl
  | cons h r ih =>
    unfold instantiate at ih ⊢
    cases created : h.create with
    | ok state => simpa [created, Except.isOk, Except.toBool] using ih
    | error panic => simpa [created, Except.isOk, Except.toBool] using ih

theorem create_of_mem_instantiate {r : Registry σ} {l : Link σ} (mem : l ∈ r.instantiate.1) :
    l.handler.create = .ok l.state := by
  obtain ⟨h, -, made⟩ := List.mem_filterMap.mp mem
  cases created : h.create with
  | ok state =>
    simp only [created, Option.some.injEq] at made
    subst made
    exact created
  | error panic => simp [created] at made

end Registry

/-- A handler in the service of one call: the instance made of it, and the runs of its two hooks. -/
structure Service (σ : Type) where
  handler : Handler σ
  created : σ
  before : HookRun σ
  after : HookRun σ

/-- The first hook was run on the instance as it was made, the second on the same instance as the
first has left it. -/
structure Service.Lawful (s : Service σ) : Prop where
  created : s.handler.create = .ok s.created
  before : s.before = ⟨s.handler.name, .before, s.before.seen,
    (s.handler.before s.created s.before.seen).state⟩
  after : s.after = ⟨s.handler.name, .after, s.after.seen,
    (s.handler.after s.before.state s.after.seen).state⟩

namespace Chain

/-- What the handlers of a call do if it is made with one context and leaves another. -/
def services (chain : Chain σ) (ctx final : Context) : List (Service σ) :=
  match chain with
  | [] => []
  | l :: rest =>
    let ran := l.handler.before l.state ctx
    { handler := l.handler
      created := l.state
      before := ⟨l.handler.name, .before, ctx, ran.state⟩
      after := ⟨l.handler.name, .after, final, (l.handler.after ran.state final).state⟩ } ::
      services rest { ctx with outgoing := ran.result } final

theorem services_handlers (chain : Chain σ) (ctx final : Context) :
    (chain.services ctx final).map (·.handler) = chain.map (·.handler) := by
  induction chain generalizing ctx with
  | nil => rfl
  | cons l rest ih => exact congrArg (l.handler :: ·) (ih _)

theorem services_before (chain : Chain σ) (ctx final : Context) :
    (chain.services ctx final).map (·.before) = (before chain ctx).2.2.filterMap Note.hook? := by
  induction chain generalizing ctx with
  | nil => rfl
  | cons l rest ih => simp [services, before, Link.before, Note.hook?, ih]

theorem after_cons (l : Link σ) (rest : Chain σ) (ctx : Context) :
    (after (l :: rest) ctx).2 = (l.after ctx).2 ++ (after rest ctx).2 := rfl

theorem services_after (chain : Chain σ) (ctx final : Context) :
    (chain.services ctx final).map (·.after) =
      (after (before chain ctx).1 final).2.filterMap Note.hook? := by
  induction chain generalizing ctx with
  | nil => rfl
  | cons l rest ih =>
    -- The second hooks of the others do not see what the second hook of this one does.
    have ran : (before (l :: rest) ctx).1 =
        (l.before ctx).1 :: (before rest (l.before ctx).2.1).1 := rfl
    rw [ran, after_cons, List.filterMap_append, ← ih]
    simp [services, Link.before, Link.after, Note.hook?]

/-- The first hooks see the context as it was but for what is to be sent, the second ones what the
call leaves. -/
theorem lawful_of_mem_services {chain : Chain σ} {ctx final : Context}
    (created : ∀ l ∈ chain, l.handler.create = .ok l.state) {s : Service σ}
    (mem : s ∈ chain.services ctx final) :
    s.Lawful ∧ (∃ outgoing, s.before.seen = { ctx with outgoing }) ∧ s.after.seen = final := by
  induction chain generalizing ctx with
  | nil => cases mem
  | cons l rest ih =>
    obtain ⟨mine, others⟩ := List.forall_mem_cons.mp created
    rcases List.mem_cons.mp mem with rfl | later
    · exact ⟨⟨mine, rfl, rfl⟩, ⟨ctx.outgoing, rfl⟩, rfl⟩
    · obtain ⟨lawful, ⟨outgoing, seen⟩, left⟩ := ih others later
      exact ⟨lawful, ⟨outgoing, seen⟩, left⟩

end Chain

namespace Engine

/-- The handlers of a call have served it, in the order in which they are registered. -/
structure Attended (e : Engine σ) (events : List (Event (Note σ) Context)) (envelope : Envelope)
    (services : List (Service σ)) : Prop where
  /-- All have that could be made. -/
  handlers : services.map (·.handler) = e.handlers.filter (·.create.isOk)
  lawful : ∀ s ∈ services, s.Lawful
  /-- Each has run its first hook before anything was done, and its second one after that. -/
  order : ∃ opening exchange closing, events = opening ++ exchange ++ closing ∧
    hooks opening = services.map (·.before) ∧ deeds opening = [] ∧
    hooks exchange = [] ∧
    hooks closing = services.map (·.after) ∧ deeds closing = []
  early : ∀ s ∈ services, s.before.seen.phase = .idle ∧ s.before.seen.outcome = .unset
  late : ∀ s ∈ services, s.after.seen.phase.isTerminal ∧
    envelope = .report e.config.stationName s.after.seen.outcome s.after.seen.lastReply

theorem links_of_simple {e : Engine σ} {ctx : Context} (simple : ctx.simple = true) :
    e.links ctx = ([], []) :=
  if_pos simple

theorem links_of_not_simple {e : Engine σ} {ctx : Context} (full : ctx.simple = false) :
    e.links ctx = e.handlers.instantiate :=
  if_neg (by simp [full])

theorem rewarded_lastReply (e : Engine σ) (done : Context) :
    (e.rewarded done).lastReply = done.lastReply := by
  unfold rewarded
  split <;> rfl

theorem filterMap_closingNotes (e : Engine σ) (chain : Chain σ) (done : Context) :
    (e.closingNotes chain done).filterMap Note.hook? =
      (Chain.after chain (e.rewarded done)).2.filterMap Note.hook? := by
  unfold closingNotes
  cases (e.envelope done).isSuccess <;> rfl

/-- What the handlers do in a call on a fresh context, if it runs to its end. -/
theorem attended_of_runs {e : Engine σ} {ctx final : Context} {envelope : Envelope}
    {events : List (Event (Note σ) Context)} (fresh : ctx.IsFresh) (full : ctx.simple = false)
    (run : Runs (e.call ctx) events (envelope, final)) :
    e.Attended events envelope ((e.links ctx).1.services ctx final) := by
  obtain ⟨exchanged, done, exchange, rfl, rfl, rfl⟩ := runs_call.mp run
  have links := links_of_not_simple (e := e) full
  have created : ∀ l ∈ (e.links ctx).1, l.handler.create = .ok l.state := fun l mem =>
    Registry.create_of_mem_instantiate (links ▸ mem)
  have finished : (e.rewarded done).phase.isTerminal := by
    obtain ⟨-, replies, failure, -, rfl⟩ := exchange_course exchange
    rw [Context.concluded_enter _ rfl, rewarded_phase,
      (briefed_isOpen fresh.isOpen).concluded_phase]
    split <;> rfl
  have silent : hooks exchanged = [] :=
    hooks_of_businesslike ((e.exchange_always _).of_leads exchange).1
  exact {
    handlers := by rw [Chain.services_handlers, links, Registry.instantiate_handlers]
    lawful := fun s mem => (Chain.lawful_of_mem_services created mem).1
    order := by
      refine ⟨_, exchanged, _, rfl, ?_, by simp, silent, ?_, by simp⟩
      · rw [hooks_map_noted, List.filterMap_append, Chain.services_before, links,
          Note.filterMap_hook? fun _ => Registry.isMishap_of_mem_instantiate, List.nil_append]
      · rw [hooks_map_noted, filterMap_closingNotes, Chain.services_after]
    early := fun s mem => by
      obtain ⟨-, ⟨outgoing, seen⟩, -⟩ := Chain.lawful_of_mem_services created mem
      exact seen ▸ ⟨fresh.phase, fresh.outcome⟩
    late := fun s mem => by
      obtain ⟨-, -, seen⟩ := Chain.lawful_of_mem_services created mem
      rw [seen, rewarded_outcome, rewarded_lastReply]
      exact ⟨finished, rfl⟩ }

/-- A simple call makes no handlers: there may be any, and its course is the same. -/
theorem call_of_simple (e : Engine σ) {ctx : Context} (simple : ctx.simple = true)
    (handlers : Registry σ) : { e with handlers }.call ctx = e.call ctx := by
  unfold call
  rw [simple]
  rfl

theorem hooks_of_simple {e : Engine σ} {ctx final : Context} {envelope : Envelope}
    {events : List (Event (Note σ) Context)} (simple : ctx.simple = true)
    (run : Runs (e.call ctx) events (envelope, final)) : hooks events = [] := by
  obtain ⟨exchanged, done, exchange, rfl, -, -⟩ := runs_call.mp run
  have silent : hooks exchanged = [] :=
    hooks_of_businesslike ((e.exchange_always _).of_leads exchange).1
  simp [silent, links_of_simple simple, filterMap_closingNotes, Chain.before, Chain.after]

/-- Whatever is answered to a call on a fresh context, all handlers that could be made serve it,
however their hooks end. A simple call has none. -/
theorem call_attended (e : Engine σ) (ctx : Context) (fresh : ctx.IsFresh)
    (respond : List (Event (Note σ) Context) → (request : Request) → request.Answer) :
    let (events, envelope, _) := play respond [] (e.call ctx)
    (ctx.simple = false → ∃ services, e.Attended events envelope services) ∧
    (ctx.simple = true → hooks events = [] ∧
      ∀ handlers, { e with handlers }.call ctx = e.call ctx) := by
  have run := runs_play respond [] (e.call ctx)
  exact ⟨fun full => ⟨_, attended_of_runs fresh full run⟩,
    fun simple => ⟨hooks_of_simple simple run, e.call_of_simple simple⟩⟩

/-- A handler that counts its hooks, which both go wrong. -/
def grumbler : Handler Nat where
  name := "grumbler"
  create := .ok 0
  before n ctx := ⟨n + 1, ctx.outgoing, some (.fault (.handler "refused"))⟩
  after n _ := ⟨n + 1, (), some (.panic ⟨none⟩)⟩

/-- A handler that goes wrong both times serves its call, next to one that cannot be made. -/
theorem call_attended_grumbler :
    let unborn := { grumbler with name := "unborn", create := .error ⟨none⟩ }
    let e : Engine Nat := { config := {}, handlers := [unborn, grumbler] }
    let ctx : Context := { station := "orders", command := "get", requestId := "1" }
    let (events, envelope, _) := play agreeable [] (e.call ctx)
    (∃ services, e.Attended events envelope services) ∧
      (hooks events).map (fun run => (run.hook, run.state)) = [(.before, 1), (.after, 2)] := by
  intro unborn e ctx
  refine ⟨(call_attended e ctx ⟨rfl, rfl⟩ agreeable).1 rfl, ?_⟩
  decide

end Engine

end Switchboard.Call
