import Mathlib.Logic.Function.Basic
import Mathlib.Logic.Relation
import Switchboard.Proofs.Call.Hooks
import Switchboard.Proofs.Plan.Verdict
import Switchboard.Rehearsal.World

/-!
# The envelopes of many calls

A caller may keep its contexts, change what they send, copy them, and call with them again. A `Desk` has
these contexts, each with the invocation that has finished it, and all the invocations there were. The
outcome of a context is that of the exchange that has finished it, and every later envelope on it has
the code of that outcome too (`Desk.invocation_reports`).
-/

namespace Switchboard

theorem Outcome.code_eq_success {outcome : Outcome} :
    outcome.code = .success ↔ outcome = .ok ∨ ∃ state, outcome = .protocol state := by
  rcases outcome with _ | ⟨_ | _⟩ | state | ⟨_ | _⟩ <;> simp [code, ok]

namespace Deed

/-- The outcome of what was done: that of the step that failed, or else the state that the last reply
gave. -/
def verdict? (deeds : List Deed) : Option Outcome :=
  (failures deeds).head?.or
    (((receipts deeds).getLast?.bind Received.reply?).map fun reply => .ofWire reply.marker)

end Deed

/-- Every course has an outcome. -/
theorem Errand.Course.verdict {a : Errand} {deeds : List Deed} {replies : List Wire.Decoded}
    {failure : Option Outcome} (course : a.Course deeds replies failure) :
    ∃ outcome, Deed.verdict? deeds = some outcome ∧ outcome ≠ .unset ∧
      failure.or (replies.getLast?.map fun reply => .ofWire reply.marker) = some outcome := by
  unfold Deed.verdict?
  rw [course.failures_eq]
  obtain ⟨rfl, reply, last, read⟩ | ⟨⟨outcome, rfl⟩, -⟩ := course.last_receipt
  · exact ⟨.ofWire reply.marker, by simp [read], Outcome.ofWire_ne_unset _, by simp [last]⟩
  · exact ⟨outcome, rfl, fun unset => course.failure_ne_unset (congrArg some unset), rfl⟩

namespace Call

open Dialogue Event

variable {σ κ : Type}

/-- A call that asks something has this outcome. -/
def AsksWith (outcome : Outcome) : Event (Note σ) Context → Prop
  | .asked ctx _ _ => ctx.outcome = outcome
  | .noted _ | .discarded => True

namespace Engine

theorem briefed_outcome (e : Engine σ) (ctx : Context) : (e.briefed ctx).outcome = ctx.outcome := by
  obtain ⟨outgoing, briefed⟩ := e.briefed_eq ctx
  rw [briefed]

/-- Whenever a call asks something, its outcome is the one it was made with. -/
theorem call_always (e : Engine σ) (ctx : Context) :
    (e.call ctx).Always (AsksWith ctx.outcome) := by
  have told (entries : List (Note σ)) :
      (tellAll entries : Attempt σ Unit).Always (AsksWith ctx.outcome) :=
    always_tellAll fun _ _ => trivial
  have known : ((e.briefed ctx).enter .prepared).outcome = ctx.outcome := by
    rw [Context.enter_outcome, briefed_outcome]
  have exchange := e.exchange_always ((e.briefed ctx).enter .prepared)
  rw [known] at exchange
  have exchange := exchange.mono (Q := AsksWith ctx.outcome) fun event businesslike => by
    cases event with
    | noted entry | discarded => trivial
    | asked state request answer => exact businesslike
  rw [call_eq]
  exact (told _).bind fun _ => (told _).bind fun _ =>
    exchange.bind fun _ => (told _).bind fun _ => trivial

/-- An abandoned call leaves the outcome as it was. -/
theorem outcome_of_abandoned {e : Engine σ} {ctx state : Context} {request : Request}
    {events : List (Event (Note σ) Context)}
    {next : request.Answer → Attempt σ (Envelope × Context)}
    (led : (e.call ctx).Leads events (.ask state request next)) : state.outcome = ctx.outcome := by
  obtain ⟨answer⟩ := exists_answer request
  exact (((e.call_always ctx).of_leads led).2 answer).1

/-- A call decides the outcome unless there is one already, and its envelope has the code of the
outcome. -/
theorem call_outcome {e : Engine σ} {ctx final : Context} {envelope : Envelope}
    {events : List (Event (Note σ) Context)} (run : Runs (e.call ctx) events (envelope, final)) :
    ∃ outcome, Deed.verdict? (deeds events) = some outcome ∧ outcome ≠ .unset ∧
      final.outcome = (if ctx.outcome.isSet then ctx.outcome else outcome) ∧
      envelope.code = final.outcome.code := by
  obtain ⟨-, replies, failure, course, rfl, rfl⟩ := call_course run
  obtain ⟨outcome, verdict, decided, concluded⟩ := course.verdict
  refine ⟨outcome, verdict, decided, ?_, ?_⟩
  · rw [rewarded_outcome, Context.concluded_outcome, concluded, briefed_outcome, Option.getD_some]
  · rw [rewarded_outcome, envelope, Envelope.code_report]

end Engine

/-- What an invocation comes to: what it did to its line, and its envelope. -/
structure Answer where
  deeds : List Deed
  envelope : Envelope

/-- A context that a caller holds, and the invocation that has finished it, if one has. -/
structure Held where
  context : Context
  finishedBy : Option Answer := none

/-- An invocation on a context that another one may have finished before. -/
structure Invocation where
  earlier : Option Answer
  answer : Answer

/-- The invocation that has decided the outcome: the one that had finished the context, if there was
one, or else this one. -/
def Invocation.deciding (i : Invocation) : Answer :=
  i.earlier.getD i.answer

/-- The contexts that a caller holds, and all the invocations there were. -/
structure Desk (κ : Type) where
  held : κ → Held
  invocations : List Invocation := []

/-- The outcome is still open, or it is that of the invocation that has finished the context. -/
def Held.Sound (h : Held) : Prop :=
  match h.finishedBy with
  | none => h.context.outcome = .unset
  | some answer => h.context.outcome ≠ .unset ∧
      Deed.verdict? answer.deeds = some h.context.outcome

/-- The envelope has the code of the outcome of the exchange that has decided. It is a success just if
that said "ok", or how far it got. -/
def Invocation.Reports (i : Invocation) : Prop :=
  ∃ outcome, Deed.verdict? i.deciding.deeds = some outcome ∧
    i.answer.envelope.code = outcome.code ∧
    (i.answer.envelope.code = .success ↔ outcome = .ok ∨ ∃ state, outcome = .protocol state)

/-- A call finishes its context, unless it was finished, and gives the envelope accordingly. -/
theorem Held.Sound.call {h : Held} (sound : h.Sound) {e : Engine σ} {final : Context}
    {envelope : Envelope} {events : List (Event (Note σ) Context)}
    (run : Runs (e.call h.context) events (envelope, final)) :
    let invocation : Invocation := ⟨h.finishedBy, ⟨deeds events, envelope⟩⟩
    Held.Sound ⟨final, some invocation.deciding⟩ ∧ invocation.Reports := by
  intro invocation
  obtain ⟨outcome, verdict, decided, outcome_eq, code⟩ := Engine.call_outcome run
  obtain ⟨ctx, finishedBy⟩ := h
  have deciding : final.outcome ≠ .unset ∧
      Deed.verdict? invocation.deciding.deeds = some final.outcome := by
    cases finishedBy with
    | none =>
      -- Its own exchange decides, and it is the one that has finished the context.
      have isOpen : ctx.outcome = .unset := sound
      rw [outcome_eq, isOpen]
      exact ⟨decided, verdict⟩
    | some first =>
      -- There is an outcome, which its exchange cannot change.
      have isSet : ctx.outcome.isSet := decide_eq_true sound.1
      rw [outcome_eq, if_pos isSet]
      exact sound
  exact ⟨deciding, final.outcome, deciding.2, code, code ▸ Outcome.code_eq_success⟩

namespace Desk

/-- A desk with contexts that no call has been made with. -/
def opened (contexts : κ → Context) : Desk κ where
  held i := { context := contexts i }

/-- All contexts and all envelopes are as they should be. -/
structure Sound (d : Desk κ) : Prop where
  held : ∀ i, (d.held i).Sound
  invocations : ∀ invocation ∈ d.invocations, invocation.Reports

theorem sound_opened {contexts : κ → Context} (fresh : ∀ i, (contexts i).IsFresh) :
    (opened contexts).Sound where
  held i := (fresh i).outcome
  invocations := by simp [opened]

variable [DecidableEq κ]

def put (d : Desk κ) (i : κ) (h : Held) : Desk κ :=
  { d with held := Function.update d.held i h }

/-- An invocation on a context has given its answer, and leaves the context so. -/
def conclude (d : Desk κ) (i : κ) (answer : Answer) (final : Context) : Desk κ :=
  let invocation : Invocation := ⟨(d.held i).finishedBy, answer⟩
  { d.put i ⟨final, some invocation.deciding⟩ with
    invocations := d.invocations ++ [invocation] }

/-- What a caller can do with its contexts. -/
inductive Move : Desk κ → Desk κ → Prop
  | renew (d : Desk κ) (i : κ) {ctx : Context} (fresh : ctx.IsFresh) : Move d (d.put i ⟨ctx, none⟩)
  | copy (d : Desk κ) (i j : κ) : Move d (d.put j (d.held i))
  | adjust (d : Desk κ) (i : κ) (outgoing : Outgoing) (title : Option Bytes) (simple : Bool) :
      Move d (d.put i
        ⟨{ (d.held i).context with outgoing, title, simple }, (d.held i).finishedBy⟩)
  | call (d : Desk κ) (i : κ) {σ : Type} (e : Engine σ) {events : List (Event (Note σ) Context)}
      {envelope : Envelope} {final : Context}
      (run : Runs (e.call (d.held i).context) events (envelope, final)) :
      Move d (d.conclude i ⟨deeds events, envelope⟩ final)
  | abandon (d : Desk κ) (i : κ) {σ : Type} (e : Engine σ) {events : List (Event (Note σ) Context)}
      {state : Context} {request : Request}
      {next : request.Answer → Attempt σ (Envelope × Context)}
      (led : (e.call (d.held i).context).Leads events (.ask state request next)) :
      Move d (d.put i ⟨state, (d.held i).finishedBy⟩)

theorem Sound.put {d : Desk κ} (sound : d.Sound) (i : κ) {h : Held} (held : h.Sound) :
    (d.put i h).Sound where
  held := (Function.forall_update_iff d.held fun _ => Held.Sound).mpr
    ⟨held, fun j _ => sound.held j⟩
  invocations := sound.invocations

/-- No move makes an unsound desk of a sound one. -/
theorem Sound.move {d d' : Desk κ} (sound : d.Sound) (move : Move d d') : d'.Sound := by
  cases move with
  | renew i fresh => exact sound.put i fresh.outcome
  | copy i j => exact sound.put j (sound.held i)
  | adjust i outgoing title simple => exact sound.put i (sound.held i)
  | call i e run =>
    obtain ⟨held, reports⟩ := (sound.held i).call run
    exact {
      held := (sound.put i held).held
      invocations := by
        intro invocation mem
        rcases List.mem_append.mp mem with old | new
        · exact sound.invocations invocation old
        · exact List.mem_singleton.mp new ▸ reports }
  | abandon i e led =>
    refine sound.put i ?_
    have same := Engine.outcome_of_abandoned led
    have held := sound.held i
    unfold Held.Sound at held ⊢
    rw [same]
    exact held

/-- Whatever a caller does with its contexts, and whatever is answered, every envelope has the code of
the exchange that has finished its context, which is its own one if none had before. -/
theorem invocation_reports (contexts : κ → Context) (fresh : ∀ i, (contexts i).IsFresh) {d : Desk κ}
    (history : Relation.ReflTransGen Move (opened contexts) d) :
    ∀ invocation ∈ d.invocations, invocation.Reports := by
  suffices sound : d.Sound from sound.invocations
  induction history with
  | refl => exact sound_opened fresh
  | tail _ move sound => exact sound.move move

/-- Call with a context and a peer that answers so. -/
def callWith (d : Desk κ) (i : κ) (e : Engine σ)
    (respond : List (Event (Note σ) Context) → (request : Request) → request.Answer) : Desk κ :=
  let (events, envelope, final) := play respond [] (e.call (d.held i).context)
  d.conclude i ⟨deeds events, envelope⟩ final

theorem move_callWith (d : Desk κ) (i : κ) (e : Engine σ)
    (respond : List (Event (Note σ) Context) → (request : Request) → request.Answer) :
    Move d (d.callWith i e respond) :=
  .call d i e (runs_play respond [] (e.call (d.held i).context))

/-- A peer whose every reply has that state. -/
def saying (state : UInt8) (_ : List (Event (Note σ) Context)) :
    (request : Request) → request.Answer
  | .open .. => .line "10.0.0.1:9000"
  | .send _ => none
  | .receive _ => .message [[0, state, Wire.endByte]]

def plainEngine : Engine Unit where
  config := {}
  handlers := []

def inquiry : Context where
  station := "orders"
  command := "get"
  requestId := "1"

/-- A call that was denied is still denied when it is repeated with the same context. -/
theorem invocation_reports_denied :
    let d := opened fun _ : Unit => inquiry
    let d := d.callWith () plainEngine (saying 0x8C)
    let d := d.callWith () plainEngine (saying 0x01)
    (∀ invocation ∈ d.invocations, invocation.Reports) ∧
      d.invocations.map (·.answer.envelope.code) = [.denied, .denied] := by
  refine ⟨invocation_reports (fun _ => inquiry) (fun _ => ⟨rfl, rfl⟩) ?_, rfl⟩
  exact (Relation.ReflTransGen.single (move_callWith _ _ _ _)).tail (move_callWith _ _ _ _)

end Desk

end Call

namespace Rehearsal

open Call

/-- The code of the envelope of a call that was not given up. -/
def Ended.code? {τ : Type} : Ended τ (Envelope × Context) → Option ResultCode
  | .finished (envelope, _) => some envelope.code
  | .abandoned _ => none

/-- A world in which a station says "queued" and then "ok", and denies what is asked next. -/
def hasty : World Unit where
  frameLimit := 100
  directory := [("orders", ["10.0.0.1:9000"])]
  pool := { cap := 1 }
  scripts :=
    let saying (state : UInt8) := Wire.Message.layout [[0, state, Wire.endByte]]
    [{ reads := [.bytes (saying 0x02 ++ saying 0x01), .bytes (saying 0x8C)] }]

/-- Not every envelope reports its own exchange. A call that was denied is a success if one with the same
context was. And with a fresh context it is a success if an "ok" was left over from the call before, while
it is still to be read that it is denied. -/
theorem success_of_denied :
    (let d := Desk.opened fun _ : Unit => Desk.inquiry
      let d := d.callWith () Desk.plainEngine (Desk.saying 0x01)
      let d := d.callWith () Desk.plainEngine (Desk.saying 0x8C)
      ∃ first second, d.invocations = [first, second] ∧
        Deed.verdict? second.answer.deeds = some (.remote .denied) ∧
        second.answer.envelope.code = .success) ∧
    (let again : Context := { Desk.inquiry with requestId := "2" }
      let first := (converse none (Desk.plainEngine.call Desk.inquiry)).run hasty
      let second := (converse none (Desk.plainEngine.call again)).run first.2
      second.1.code? = some .success ∧
        (second.2.pool.sockets "orders").idle.map (·.socket.reads) =
          [[.bytes (Wire.Message.layout [[0, 0x8C, Wire.endByte]])]]) := by
  refine ⟨⟨_, _, rfl, rfl, rfl⟩, ?_⟩
  decide +kernel

end Rehearsal

end Switchboard
