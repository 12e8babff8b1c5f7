import Switchboard.Call.Engine
import Switchboard.Proofs.Dialogue.Course

/-!
# The course of a call

A call takes one of the courses that an attempt can take, between the two hooks of its handlers, and
waits for a second reply after "running". Its context ends as the replies and the failure decide. As
long as the context is open, nothing is said about a second outcome.
-/

namespace Switchboard

namespace Outcome

theorem ofWire_eq {state : UInt8} {outcome : Outcome} (h : ofWire state = outcome) :
    (state, outcome) ∈ named ∨ outcome = .remote (.unknown state) := by
  unfold ofWire at h
  split at h
  · next found =>
    obtain ⟨before, after, split, -⟩ := List.lookup_eq_some_iff.mp found
    exact .inl (by rw [← h, split]; simp)
  · exact .inr h.symm

/-- An outcome that has a state byte is read from this byte only. -/
theorem ofWire_eq_iff {state byte : UInt8} {outcome : Outcome} (listed : (byte, outcome) ∈ named) :
    ofWire state = outcome ↔ state = byte := by
  have once : ∀ x ∈ named, ∀ y ∈ named, x.2 = y.2 → x.1 = y.1 := by decide
  have read : ∀ x ∈ named, ofWire x.1 = x.2 := by decide
  have known : ∀ x ∈ named, ∀ code, x.2 ≠ .remote (.unknown code) := by simp [named]
  constructor
  · intro h
    rcases ofWire_eq h with found | other
    · exact once _ found _ listed rfl
    · exact absurd other (known _ listed state)
  · rintro rfl
    exact read _ listed

/-- Only one state byte says that a second reply follows. -/
theorem ofWire_eq_running {state : UInt8} : ofWire state = running ↔ state = 0x03 :=
  ofWire_eq_iff (by decide)

/-- A reply always decides the outcome. -/
theorem ofWire_ne_unset (state : UInt8) : ofWire state ≠ unset := by
  intro h
  rcases ofWire_eq h with found | other
  · simp [named] at found
  · cases other

end Outcome

/-- The notice tells that a handler has gone wrong. -/
def Notice.isMishap : Notice → Bool
  | .factoryPanicked .. | .hookFailed .. | .hookPanicked .. => true
  | _ => false

namespace Call

open Dialogue Event

variable {σ : Type}

/-- The context of a call in progress: it has not finished, and its outcome is open. -/
structure Context.IsOpen (ctx : Context) : Prop where
  phase : ctx.phase.isTerminal = false
  outcome : ctx.outcome = .unset

/-- No outcome has been written when something is asked, and none is refused because there was one. -/
def Untroubled : Event (Note σ) Context → Prop
  | .noted (.notice (.secondOutcome ..)) => False
  | .asked ctx _ _ => ctx.outcome = .unset
  | _ => True

/-- The note tells that a handler has gone wrong. -/
def Note.isMishap : Note σ → Bool
  | .hook _ => false
  | .notice n => n.isMishap

/-- What is told of an outcome that comes second. -/
def objections (ctx : Context) (outcome : Outcome) : List (Note σ) :=
  if ctx.outcome.isSet then [.notice (.secondOutcome ctx.outcome outcome)] else []

@[simp] theorem runs_settle {ctx final : Context} {outcome : Outcome} {phase : Phase}
    {events : List (Event (Note σ) Context)} :
    Runs (settle ctx outcome phase) events final ↔
      events = (objections ctx outcome).map .noted ∧ final = ctx.settle outcome phase := by
  unfold settle objections
  cases ctx.outcome.isSet with
  | false => simp
  | true =>
    simp only [notice, if_true, bind_eq, tell_bind, pure_eq, runs_note, runs_finish]
    constructor
    · rintro ⟨_, rfl, rfl, rfl⟩
      exact ⟨rfl, rfl⟩
    · rintro ⟨rfl, rfl⟩
      exact ⟨[], rfl, rfl, rfl⟩

@[simp] theorem runs_fail {ctx final : Context} {outcome : Outcome}
    {events : List (Event (Note σ) Context)} :
    Runs (fail ctx outcome) events final ↔
      events = (objections ctx outcome).map .noted ∧ final = ctx.settle outcome .failed :=
  runs_settle

namespace Context

/-- The context of a call that has come to an end: the replies were absorbed, and a failure, or else
the last reply, decided. -/
def concluded (ctx : Context) (replies : List Wire.Decoded) (failure : Option Outcome) : Context :=
  let decided := failure.or (replies.getLast?.map fun reply => .ofWire reply.marker)
  (replies.foldl Context.absorb ctx).settle (decided.getD .unset)
    (if failure.isSome then .failed else .completed)

theorem absorb_enter (ctx : Context) (phase : Phase) (reply : Wire.Decoded) :
    (ctx.enter phase).absorb reply = (ctx.absorb reply).enter phase := by
  unfold enter absorb
  split <;> rfl

theorem foldl_absorb_enter (replies : List Wire.Decoded) (ctx : Context) (phase : Phase) :
    replies.foldl absorb (ctx.enter phase) = (replies.foldl absorb ctx).enter phase := by
  induction replies generalizing ctx with
  | nil => rfl
  | cons reply replies ih => rw [List.foldl_cons, List.foldl_cons, absorb_enter, ih]

/-- A phase that is not the last leaves no trace once the call is settled. -/
theorem settle_enter (ctx : Context) {early : Phase} (going : early.isTerminal = false)
    (outcome : Outcome) (phase : Phase) :
    (ctx.enter early).settle outcome phase = ctx.settle outcome phase := by
  unfold settle enter
  cases finished : ctx.phase.isTerminal with
  | true => simp [finished]
  | false => simp [going]

theorem concluded_enter (ctx : Context) {early : Phase} (going : early.isTerminal = false)
    (replies : List Wire.Decoded) (failure : Option Outcome) :
    (ctx.enter early).concluded replies failure = ctx.concluded replies failure := by
  unfold concluded
  rw [foldl_absorb_enter, settle_enter _ going]

@[simp] theorem enter_outcome (ctx : Context) (phase : Phase) :
    (ctx.enter phase).outcome = ctx.outcome := by
  unfold enter
  split <;> rfl

theorem foldl_absorb_outcome (replies : List Wire.Decoded) (ctx : Context) :
    (replies.foldl absorb ctx).outcome = ctx.outcome := by
  induction replies generalizing ctx with
  | nil => rfl
  | cons reply replies ih => exact ih _

/-- An outcome that there is stays. -/
theorem concluded_outcome (ctx : Context) (replies : List Wire.Decoded)
    (failure : Option Outcome) :
    (ctx.concluded replies failure).outcome =
      if ctx.outcome.isSet then ctx.outcome
      else (failure.or (replies.getLast?.map fun reply => .ofWire reply.marker)).getD .unset := by
  unfold concluded settle
  rw [enter_outcome, foldl_absorb_outcome]

namespace IsOpen

variable {ctx : Context}

theorem absorb (h : ctx.IsOpen) (reply : Wire.Decoded) : (ctx.absorb reply).IsOpen :=
  ⟨h.phase, h.outcome⟩

theorem foldl_absorb (h : ctx.IsOpen) (replies : List Wire.Decoded) :
    (replies.foldl Context.absorb ctx).IsOpen := by
  induction replies generalizing ctx with
  | nil => exact h
  | cons reply replies ih => exact ih (h.absorb reply)

theorem enter (h : ctx.IsOpen) (phase : Phase) (going : phase.isTerminal = false) :
    (ctx.enter phase).IsOpen := by
  unfold Context.enter
  split
  · exact h
  · exact ⟨going, h.outcome⟩

/-- Settling leaves nothing of an open context's phase and outcome. -/
theorem settle (h : ctx.IsOpen) (outcome : Outcome) (phase : Phase) :
    ctx.settle outcome phase = { ctx with outcome, phase } := by
  simp [Context.settle, Context.enter, h.phase, h.outcome, Outcome.isSet]

theorem concluded_phase (h : ctx.IsOpen) (replies : List Wire.Decoded)
    (failure : Option Outcome) :
    (ctx.concluded replies failure).phase = if failure.isSome then .failed else .completed := by
  unfold concluded
  rw [(h.foldl_absorb replies).settle]

theorem concluded_outcome (h : ctx.IsOpen) (replies : List Wire.Decoded)
    (failure : Option Outcome) :
    (ctx.concluded replies failure).outcome =
      (failure.or (replies.getLast?.map fun reply => .ofWire reply.marker)).getD .unset := by
  rw [Context.concluded_outcome, h.outcome]
  rfl

/-- An open context takes its outcome without a word. -/
theorem objections_eq (h : ctx.IsOpen) (outcome : Outcome) :
    (objections ctx outcome : List (Note σ)) = [] := by
  simp [objections, h.outcome, Outcome.isSet]

end IsOpen

end Context

namespace Engine

/-- A receive brings a reply, or discards the line and fails the call. -/
theorem receiveReply_runs {e : Engine σ} {ctx : Context} {endpoint : String}
    {events : List (Event (Note σ) Context)} {result : Except Context Wire.Decoded}
    (run : Runs (e.receiveReply ctx endpoint) events result) :
    (ctx.IsOpen → ∀ event ∈ events, Untroubled event) ∧
      ∃ received : Received,
        (∃ reply, received.reply? = some reply ∧ result = .ok reply ∧
          deeds events = [.ask (.receive e.limit) received]) ∨
        (∃ outcome, received.failure? = some outcome ∧
          result = .error (ctx.settle outcome .failed) ∧
          deeds events = [.ask (.receive e.limit) received, .discard]) := by
  simp only [receiveReply, notice, bind_eq, pure_eq, receive_bind, tell_bind, discardLine_bind,
    runs_ask] at run
  obtain ⟨received, later, rfl, run⟩ := run
  cases received with
  | late =>
    simp only [runs_note, runs_discard, runs_bind, runs_fail, runs_finish] at run
    obtain ⟨_, rfl, _, rfl, _, _, _, rfl, ⟨rfl, rfl⟩, rfl, rfl⟩ := run
    refine ⟨fun unfinished => ?_, .late, .inr ⟨_, rfl, rfl, by simp⟩⟩
    simp [Untroubled, unfinished.outcome, unfinished.objections_eq]
  | fault fault =>
    simp only [runs_note, runs_discard, runs_bind, runs_fail, runs_finish] at run
    obtain ⟨_, rfl, _, rfl, _, _, _, rfl, ⟨rfl, rfl⟩, rfl, rfl⟩ := run
    refine ⟨fun unfinished => ?_, .fault fault, .inr ⟨_, rfl, rfl, by simp⟩⟩
    simp [Untroubled, unfinished.outcome, unfinished.objections_eq]
  | message m =>
    cases decoded : Wire.decodeReply m with
    | ok reply =>
      simp only [decoded, runs_finish] at run
      obtain ⟨rfl, rfl⟩ := run
      refine ⟨fun unfinished => ?_, .message m, .inl ⟨reply, ?_, rfl, rfl⟩⟩
      · simp [Untroubled, unfinished.outcome]
      · exact Received.reply?_message decoded
    | error flaw =>
      simp only [decoded, runs_note, runs_discard, runs_bind, runs_fail, runs_finish] at run
      obtain ⟨_, rfl, _, rfl, _, _, _, rfl, ⟨rfl, rfl⟩, rfl, rfl⟩ := run
      refine ⟨fun unfinished => ?_, .message m, .inr ⟨_, ?_, rfl, by simp⟩⟩
      · simp [Untroubled, unfinished.outcome, unfinished.objections_eq]
      · exact Received.failure?_message decoded

/-- What a call asks for: a line, and a second reply after "running". -/
def errand (e : Engine σ) (ctx : Context) : Errand where
  station := ctx.station
  affinity := ctx.requestId
  limit := e.limit
  message := ctx.request e.config
  goesOn reply := Outcome.ofWire reply.marker = .running

/-- Once the request is sent, the replies decide how the call goes on and ends. -/
theorem awaitResult_course {e : Engine σ} {ctx final : Context} {endpoint : String} {a : Errand}
    {events : List (Event (Note σ) Context)} (limit : a.limit = e.limit)
    (goesOn : ∀ reply, a.goesOn reply ↔ Outcome.ofWire reply.marker = .running)
    (run : Runs (e.awaitResult ctx endpoint) events final) :
    (ctx.IsOpen → ∀ event ∈ events, Untroubled event) ∧
      ∃ replies failure,
        a.Course (a.opening (.line endpoint) :: a.sending none :: deeds events) replies failure ∧
        final = ctx.concluded replies failure := by
  simp only [awaitResult, bind_eq, runs_bind] at run
  obtain ⟨first, result, later, rfl, receive, run⟩ := run
  obtain ⟨untroubled, received, ⟨ack, acked, rfl, deeds⟩ | ⟨outcome, failed, rfl, deeds⟩⟩ :=
    receiveReply_runs receive
  · dsimp only at run
    split at run
    · next last =>
      obtain ⟨rfl, rfl⟩ := runs_settle.mp run
      refine ⟨fun unfinished => ?_, [ack], none, ?_, rfl⟩
      · simpa [(unfinished.absorb ack).objections_eq] using untroubled unfinished
      · rw [deeds_append, deeds_map_noted, List.append_nil, deeds, ← limit]
        exact .answered endpoint acked (mt (goesOn ack).mp last)
    · next more =>
      have more : a.goesOn ack := (goesOn ack).mpr (Decidable.not_not.mp more)
      simp only [runs_bind] at run
      obtain ⟨second, result, later, rfl, receive, run⟩ := run
      obtain ⟨untroubled', received', ⟨reply, replied, rfl, deeds'⟩ |
        ⟨outcome, failed, rfl, deeds'⟩⟩ := receiveReply_runs receive
      · obtain ⟨rfl, rfl⟩ := runs_settle.mp run
        refine ⟨fun unfinished => ?_, [ack, reply], none, ?_, ?_⟩
        · have running := (unfinished.absorb ack).enter .running rfl
          simpa [or_imp, forall_and, (running.absorb reply).objections_eq]
            using ⟨untroubled unfinished, untroubled' running⟩
        · rw [deeds_append, deeds_append, deeds_map_noted, List.append_nil, deeds, deeds', ← limit]
          exact .concluded endpoint acked more replied
        · rw [Context.absorb_enter, Context.settle_enter _ rfl]
          rfl
      · obtain ⟨rfl, rfl⟩ := runs_finish.mp run
        refine ⟨fun unfinished => ?_, [ack], some outcome, ?_, ?_⟩
        · have running := (unfinished.absorb ack).enter .running rfl
          simpa [or_imp, forall_and] using ⟨untroubled unfinished, untroubled' running⟩
        · rw [List.append_nil, deeds_append, deeds, deeds', ← limit]
          exact .cutShort endpoint acked more failed
        · rw [Context.settle_enter _ rfl]
          rfl
  · obtain ⟨rfl, rfl⟩ := runs_finish.mp run
    refine ⟨by simpa using untroubled, [], some outcome, ?_, rfl⟩
    rw [List.append_nil, deeds, ← limit]
    exact .unanswered endpoint failed

/-- An exchange takes one of the courses, and concludes the context accordingly. -/
theorem exchange_course {e : Engine σ} {ctx final : Context}
    {events : List (Event (Note σ) Context)} (run : Runs (e.exchange ctx) events final) :
    (ctx.IsOpen → ∀ event ∈ events, Untroubled event) ∧
      ∃ replies failure, (e.errand ctx).Course (deeds events) replies failure ∧
        final = ctx.concluded replies failure := by
  simp only [exchange, notice, bind_eq, openLine_bind, send_bind, tell_bind, discardLine_bind,
    runs_ask] at run
  obtain ⟨opened, later, rfl, run⟩ := run
  cases opened with
  | unavailable =>
    simp only [runs_fail] at run
    obtain ⟨rfl, rfl⟩ := run
    refine ⟨fun unfinished => ?_, [], some (.local .notReady), ?_, rfl⟩
    · simp [Untroubled, unfinished.outcome, unfinished.objections_eq]
    · simpa using .unopened .unavailable rfl
  | late =>
    simp only [runs_note, runs_fail] at run
    obtain ⟨_, rfl, rfl, rfl⟩ := run
    refine ⟨fun unfinished => ?_, [], some (.remote .timedOut), ?_, rfl⟩
    · simp [Untroubled, unfinished.outcome, unfinished.objections_eq]
    · simpa using .unopened .late rfl
  | line endpoint =>
    simp only [runs_ask] at run
    obtain ⟨fault?, later, rfl, run⟩ := run
    cases fault? with
    | some fault =>
      simp only [runs_note, runs_discard, runs_fail] at run
      obtain ⟨_, rfl, _, rfl, rfl, rfl⟩ := run
      refine ⟨fun unfinished => ?_, [], some (.local .sendError), ?_, rfl⟩
      · simp [Untroubled, unfinished.outcome, unfinished.objections_eq]
      · simpa using .unsent endpoint fault
    | none =>
      obtain ⟨untroubled, replies, failure, course, rfl⟩ :=
        awaitResult_course (a := e.errand ctx) rfl (fun _ => Iff.rfl) run
      refine ⟨fun unfinished => ?_, replies, failure, course, ?_⟩
      · have waiting := (unfinished.enter .sent rfl).enter .awaitingAck rfl
        simpa [Untroubled, unfinished.outcome] using untroubled waiting
      · rw [Context.concluded_enter _ rfl, Context.concluded_enter _ rfl]

end Engine

/-- To tell of a handler is not to refuse an outcome. -/
theorem untroubled_of_isMishap {entry : Note σ} (mishap : entry.isMishap) :
    Untroubled (.noted entry) := by
  cases entry with
  | hook run => trivial
  | notice n =>
    cases n with
    | secondOutcome current rejected => cases mishap
    | _ => trivial

theorem Link.isMishap_of_mem_told {name : String} {hook : Hook} {station : String}
    {mishap : Option Mishap} {entry : Note σ} (mem : entry ∈ told name hook station mishap) :
    entry.isMishap := by
  cases mishap with
  | none => cases mem
  | some mishap =>
    cases mishap <;>
    · obtain rfl := List.mem_singleton.mp mem
      rfl

theorem Registry.isMishap_of_mem_instantiate {r : Registry σ} {entry : Note σ}
    (mem : entry ∈ r.instantiate.2) : entry.isMishap := by
  obtain ⟨h, -, told⟩ := List.mem_filterMap.mp mem
  cases created : h.create with
  | ok state => simp [created] at told
  | error panic =>
    simp only [created, Option.some.injEq] at told
    subst told
    rfl

namespace Chain

/-- The first hooks change only what is to be sent. -/
theorem before_context (chain : Chain σ) (ctx : Context) :
    ∃ outgoing, (before chain ctx).2.1 = { ctx with outgoing } := by
  induction chain generalizing ctx with
  | nil => exact ⟨ctx.outgoing, rfl⟩
  | cons l rest ih =>
    obtain ⟨outgoing, rest_eq⟩ := ih (l.before ctx).2.1
    exact ⟨outgoing, rest_eq⟩

theorem untroubled_before {chain : Chain σ} {ctx : Context} {entry : Note σ}
    (mem : entry ∈ (before chain ctx).2.2) : Untroubled (.noted entry) := by
  induction chain generalizing ctx with
  | nil => cases mem
  | cons l rest ih =>
    rcases List.mem_append.mp mem with mine | later
    · rcases List.mem_cons.mp mine with rfl | told
      · trivial
      · exact untroubled_of_isMishap (Link.isMishap_of_mem_told told)
    · exact ih later

theorem untroubled_after {chain : Chain σ} {ctx : Context} {entry : Note σ}
    (mem : entry ∈ (after chain ctx).2) : Untroubled (.noted entry) := by
  obtain ⟨ran, ran_mem, mem⟩ := List.mem_flatMap.mp mem
  obtain ⟨l, -, rfl⟩ := List.mem_map.mp ran_mem
  rcases List.mem_cons.mp mem with rfl | told
  · trivial
  · exact untroubled_of_isMishap (Link.isMishap_of_mem_told told)

end Chain

namespace Engine

/-- The handlers of one call, and what there is to tell about making them. -/
def links (e : Engine σ) (ctx : Context) : Chain σ × List (Note σ) :=
  if ctx.simple then ([], []) else e.handlers.instantiate

/-- The context as the first hooks leave it. -/
def briefed (e : Engine σ) (ctx : Context) : Context :=
  (Chain.before (e.links ctx).1 ctx).2.1

theorem briefed_eq (e : Engine σ) (ctx : Context) :
    ∃ outgoing, e.briefed ctx = { ctx with outgoing } :=
  Chain.before_context _ ctx

theorem untroubled_links {e : Engine σ} {ctx : Context} {entry : Note σ}
    (mem : entry ∈ (e.links ctx).2) : Untroubled (.noted entry) := by
  unfold links at mem
  split at mem
  · cases mem
  · exact untroubled_of_isMishap (Registry.isMishap_of_mem_instantiate mem)

theorem errand_enter (e : Engine σ) (ctx : Context) (phase : Phase) :
    e.errand (ctx.enter phase) = e.errand ctx := by
  unfold Context.enter
  split <;> rfl

/-- The envelope of a call that has come to an end. -/
def envelope (e : Engine σ) (done : Context) : Envelope :=
  .report e.config.stationName done.outcome done.lastReply

/-- The context with the payload of a success. -/
def rewarded (e : Engine σ) (done : Context) : Context :=
  if (e.envelope done).isSuccess then { done with payload := (e.envelope done).payload } else done

/-- What a call tells once it has come to an end. -/
def closingNotes (e : Engine σ) (chain : Chain σ) (done : Context) : List (Note σ) :=
  let ctx := e.rewarded done
  let failed := .notice (.callFailed ctx.station ctx.command ctx.outcome (e.envelope done).code)
  (if (e.envelope done).isSuccess then [] else [failed]) ++ (Chain.after chain ctx).2

theorem rewarded_phase (e : Engine σ) (done : Context) : (e.rewarded done).phase = done.phase := by
  unfold rewarded
  split <;> rfl

theorem rewarded_outcome (e : Engine σ) (done : Context) :
    (e.rewarded done).outcome = done.outcome := by
  unfold rewarded
  split <;> rfl

theorem untroubled_closingNotes {e : Engine σ} {chain : Chain σ} {done : Context}
    {entry : Note σ} (mem : entry ∈ e.closingNotes chain done) : Untroubled (.noted entry) := by
  rcases List.mem_append.mp mem with failed | after
  · split at failed
    · cases failed
    · obtain rfl := List.mem_singleton.mp failed
      trivial
  · exact Chain.untroubled_after after

/-- A call is its exchange between the two hooks of its handlers. -/
theorem call_eq (e : Engine σ) (ctx : Context) :
    e.call ctx = (do
      tellAll (e.links ctx).2
      tellAll (Chain.before (e.links ctx).1 ctx).2.2
      let done ← e.exchange ((e.briefed ctx).enter .prepared)
      tellAll (e.closingNotes (Chain.before (e.links ctx).1 ctx).1 done)
      pure (e.envelope done, e.rewarded done)) := by
  have closing (chain : Chain σ) (done : Context) :
      (do
        let ctx := e.rewarded done
        if !(e.envelope done).isSuccess then
          notice (.callFailed ctx.station ctx.command ctx.outcome (e.envelope done).code)
        tellAll (Chain.after chain ctx).2
        pure (e.envelope done, ctx) : Attempt σ (Envelope × Context)) =
      (do
        tellAll (e.closingNotes chain done)
        pure (e.envelope done, e.rewarded done)) := by
    unfold closingNotes
    cases (e.envelope done).isSuccess <;> rfl
  simp only [← closing]
  rfl

/-- Before its first hooks have run, a context is as open as after them. -/
theorem briefed_isOpen {e : Engine σ} {ctx : Context} (unfinished : ctx.IsOpen) :
    (e.briefed ctx).IsOpen := by
  obtain ⟨outgoing, briefed⟩ := e.briefed_eq ctx
  exact briefed ▸ ⟨unfinished.phase, unfinished.outcome⟩

/-- A call runs from the notes of its first hooks over its exchange to the notes of its second ones. -/
theorem runs_call {e : Engine σ} {ctx final : Context} {envelope : Envelope}
    {events : List (Event (Note σ) Context)} :
    Runs (e.call ctx) events (envelope, final) ↔
      ∃ exchanged done, Runs (e.exchange ((e.briefed ctx).enter .prepared)) exchanged done ∧
        events = ((e.links ctx).2 ++ (Chain.before (e.links ctx).1 ctx).2.2).map .noted ++
          exchanged ++ (e.closingNotes (Chain.before (e.links ctx).1 ctx).1 done).map .noted ∧
        envelope = e.envelope done ∧ final = e.rewarded done := by
  simp only [call_eq, bind_eq, pure_eq, runs_bind, runs_tellAll, runs_finish]
  constructor
  · rintro ⟨_, -, _, rfl, rfl, _, -, _, rfl, rfl, exchanged, done, _, rfl, run, _, -, _, rfl, rfl,
      rfl, ended⟩
    obtain ⟨rfl, rfl⟩ := Prod.mk.inj ended
    exact ⟨exchanged, done, run, by simp, rfl, rfl⟩
  · rintro ⟨exchanged, done, run, rfl, rfl, rfl⟩
    exact ⟨_, (), _, by rw [List.map_append, List.append_assoc, List.append_assoc], rfl, _, (), _,
      rfl, rfl, exchanged, done, _, rfl, run, _, (), [], (List.append_nil _).symm, rfl, rfl, rfl⟩

/-- A call takes one of the courses, and its context and envelope tell which. -/
theorem call_course {e : Engine σ} {ctx final : Context} {envelope : Envelope}
    {events : List (Event (Note σ) Context)} (run : Runs (e.call ctx) events (envelope, final)) :
    (ctx.IsOpen → ∀ event ∈ events, Untroubled event) ∧
      ∃ replies failure,
        (e.errand (e.briefed ctx)).Course (deeds events) replies failure ∧
        envelope = e.envelope ((e.briefed ctx).concluded replies failure) ∧
        final = e.rewarded ((e.briefed ctx).concluded replies failure) := by
  obtain ⟨exchanged, done, exchange, rfl, rfl, rfl⟩ := runs_call.mp run
  obtain ⟨untroubled, replies, failure, course, rfl⟩ := exchange_course exchange
  rw [Context.concluded_enter _ rfl]
  rw [errand_enter] at course
  refine ⟨fun unfinished event mem => ?_, replies, failure, by simpa using course, rfl, rfl⟩
  simp only [List.map_append, List.append_assoc, List.mem_append, List.mem_map] at mem
  obtain ⟨entry, told, rfl⟩ | ⟨entry, told, rfl⟩ | exchanged | ⟨entry, told, rfl⟩ := mem
  · exact untroubled_links told
  · exact Chain.untroubled_before told
  · exact untroubled ((briefed_isOpen unfinished).enter .prepared rfl) event exchanged
  · exact untroubled_closingNotes told

end Engine

end Call

end Switchboard
