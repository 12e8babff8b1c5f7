import Switchboard.Proofs.Call.Report
import Switchboard.Proofs.Wire.Lookup

/-!
# What a call leaves on record

A caller has two records of a call: the context collects what the replies bring, and the envelope is made
of the last one. The context keeps a name that the acknowledgement gave until another reply gives one,
while the envelope names nobody if the result does not, so that the origins may differ (`call_origin`).
The payload is that of the result in both (`call_payload`).
-/

namespace Switchboard

namespace Errand.Course

variable {a : Errand} {deeds : List Deed} {replies : List Wire.Decoded} {failure : Option Outcome}

/-- There are two replies at most, and two only if the first one goes on. -/
theorem replies_cases (course : a.Course deeds replies failure) :
    replies = [] ∨ (∃ reply, replies = [reply]) ∨
      ∃ ack reply, replies = [ack, reply] ∧ a.goesOn ack := by
  cases course with
  | unopened opened h | unsent endpoint fault | unanswered endpoint h => exact .inl rfl
  | answered endpoint h last | cutShort endpoint h more g => exact .inr (.inl ⟨_, rfl⟩)
  | concluded endpoint h more g => exact .inr (.inr ⟨_, _, rfl, more⟩)

/-- No step fails with an "ok". -/
theorem failure_ne_ok {outcome : Outcome} (course : a.Course deeds replies (some outcome)) :
    outcome ≠ .ok := by
  rintro rfl
  exact course.code_ne_success rfl

end Errand.Course

@[simp] theorem Envelope.origin_report (origin : String) (outcome : Outcome)
    (last : Option Wire.Decoded) : (report origin outcome last).origin = originOf origin last := by
  unfold report
  split <;> rfl

namespace Call

open Dialogue Event

variable {σ : Type}

namespace Context

/-- The context is as it was made: no call has left anything in it. -/
structure IsNew (ctx : Context) : Prop extends ctx.IsFresh where
  callee : ctx.callee = none
  origin : ctx.origin = none
  payload : ctx.payload = none
  lastReply : ctx.lastReply = none

/-- A name stays until a reply gives another one. -/
theorem foldl_absorb_origin (replies : List Wire.Decoded) (ctx : Context) :
    (replies.foldl absorb ctx).origin =
      (replies.filterMap (·.text? .responser)).getLast?.or ctx.origin := by
  induction replies generalizing ctx with
  | nil => rfl
  | cons reply replies ih =>
    rw [List.foldl_cons, ih, List.filterMap_cons]
    cases named : reply.text? .responser with
    | none => simp [absorb, named]
    | some name => simp [absorb, named, List.getLast?_cons]

theorem foldl_absorb_payload (replies : List Wire.Decoded) (ctx : Context) :
    (replies.foldl absorb ctx).payload = ctx.payload := by
  induction replies generalizing ctx with
  | nil => rfl
  | cons reply replies ih => exact ih _

theorem enter_eq (ctx : Context) (phase : Phase) :
    ∃ entered, ctx.enter phase = { ctx with phase := entered } := by
  unfold enter
  split <;> exact ⟨_, rfl⟩

/-- Beyond what the replies bring, concluding a call changes only its phase and its outcome. -/
theorem concluded_eq (ctx : Context) (replies : List Wire.Decoded) (failure : Option Outcome) :
    ∃ phase outcome, ctx.concluded replies failure =
      { replies.foldl absorb ctx with phase, outcome } := by
  obtain ⟨phase, entered⟩ := enter_eq _ _
  exact ⟨phase, _, entered⟩

end Context

namespace Engine

theorem rewarded_origin (e : Engine σ) (done : Context) :
    (e.rewarded done).origin = done.origin := by
  unfold rewarded
  split <;> rfl

/-- Only a success is rewarded, and nothing else has a payload. -/
theorem rewarded_payload (e : Engine σ) {done : Context} (none : done.payload = none) :
    (e.rewarded done).payload = (e.envelope done).payload := by
  unfold rewarded
  split
  · rfl
  · next failed =>
    have other : done.outcome ≠ .ok := by
      intro ok
      simp [envelope, Envelope.isSuccess, Envelope.code_report, ok, Outcome.ok, Outcome.code] at failed
    rw [none, envelope, Envelope.payload_report other]

variable {e : Engine σ} {ctx final : Context} {envelope : Envelope}
  {events : List (Event (Note σ) Context)}

/-- The origin of a context is the last name that a reply gave. -/
theorem call_origin_eq (run : Runs (e.call ctx) events (envelope, final)) :
    final.origin =
      ((Deed.replies (deeds events)).filterMap (·.text? .responser)).getLast?.or ctx.origin := by
  obtain ⟨-, replies, failure, course, -, rfl⟩ := call_course run
  obtain ⟨phase, outcome, concluded⟩ := (e.briefed ctx).concluded_eq replies failure
  obtain ⟨outgoing, briefed⟩ := e.briefed_eq ctx
  rw [rewarded_origin, concluded, course.replies_eq, Context.foldl_absorb_origin, briefed]

theorem call_payload_eq (new : ctx.payload = none)
    (run : Runs (e.call ctx) events (envelope, final)) : final.payload = envelope.payload := by
  obtain ⟨-, replies, failure, course, rfl, rfl⟩ := call_course run
  obtain ⟨phase, outcome, concluded⟩ := (e.briefed ctx).concluded_eq replies failure
  obtain ⟨outgoing, briefed⟩ := e.briefed_eq ctx
  refine e.rewarded_payload ?_
  rw [concluded, Context.foldl_absorb_payload, briefed, new]

/-- Whatever is answered to a call on a new context: if its context has come to know an origin, the
envelope has the same one, unless the acknowledgement named it and the result names none. If the context
knows of none, the envelope names this node if there was no reply, and the peer by default if there was
one. -/
theorem call_origin (e : Engine σ) (ctx : Context) (new : ctx.IsNew)
    (respond : List (Event (Note σ) Context) → (request : Request) → request.Answer) :
    let (events, envelope, final) := play respond [] (e.call ctx)
    let replies := Deed.replies (deeds events)
    (∀ name, final.origin = some name →
      envelope.origin = name ∨
      ∃ ack result, replies = [ack, result] ∧ ack.marker = 0x03 ∧
        ack.text? .responser = some name ∧ result.text? .responser = none ∧
        envelope.origin = Envelope.remoteOrigin) ∧
    (final.origin = none →
      envelope.origin = if replies = [] then e.config.stationName else Envelope.remoteOrigin) ∧
    ∀ ack result name, replies = [ack, result] → ack.text? .responser = some name →
      result.text? .responser = none →
      final.origin = some name ∧ envelope.origin = Envelope.remoteOrigin := by
  have run := runs_play respond [] (e.call ctx)
  generalize play respond [] (e.call ctx) = played at run ⊢
  obtain ⟨events, envelope, final⟩ := played
  have known := call_origin_eq run
  have told := congrArg Envelope.origin (call_report run)
  obtain ⟨-, replies, failure, course, -⟩ := call_course run
  rw [new.origin, Option.or_none, course.replies_eq] at known
  rw [new.lastReply, Option.or_none, course.replies_eq, Envelope.origin_report] at told
  simp only [course.replies_eq, known, told]
  obtain rfl | ⟨reply, rfl⟩ | ⟨ack, result, rfl, more⟩ := course.replies_cases
  · simp [Envelope.originOf]
  · cases named : reply.text? .responser <;> simp [Envelope.originOf, named]
  · have running : ack.marker = 0x03 := Outcome.ofWire_eq_running.mp more
    refine ⟨?_, ?_, ?_⟩
    · cases first : ack.text? .responser <;> cases second : result.text? .responser <;>
        simp [Envelope.originOf, first, second, running]
    · cases second : result.text? .responser <;> simp [Envelope.originOf, second]
    · rintro _ _ name ⟨⟩ first second
      simp [Envelope.originOf, first, second]

/-- The node that the result names takes the place of the one that has acknowledged the call. -/
theorem call_origin_named :
    let (_, envelope, final) :=
      play (answering (worded 0x03 .responser "orders-1") (worded 0x01 .responser "orders-2")) []
        (Desk.plainEngine.call Desk.inquiry)
    Desk.inquiry.IsNew ∧ final.origin = some "orders-2" ∧ envelope.origin = "orders-2" := by
  have new : Desk.inquiry.IsNew := ⟨⟨rfl, rfl⟩, rfl, rfl, rfl, rfl⟩
  obtain ⟨same, -⟩ := call_origin Desk.plainEngine Desk.inquiry new
    (answering (worded 0x03 .responser "orders-1") (worded 0x01 .responser "orders-2"))
  obtain same | ⟨_, _, replies, -, -, unnamed, -⟩ := same "orders-2" rfl
  · exact ⟨new, rfl, same⟩
  · cases replies
    cases unnamed

/-- A node that only the acknowledgement names is the origin in the context, and not in the envelope. -/
theorem origin_of_acknowledged :
    let (_, envelope, final) :=
      play (answering (worded 0x03 .responser "orders-2") (bare 0x01)) []
        (Desk.plainEngine.call Desk.inquiry)
    Desk.inquiry.IsNew ∧ final.origin = some "orders-2" ∧ envelope.origin = "zero_center" ∧
      envelope.origin ≠ "orders-2" := by
  refine ⟨⟨⟨rfl, rfl⟩, rfl, rfl, rfl, rfl⟩, rfl, rfl, ?_⟩
  decide

/-- The payload is that of the reply which the last receive has brought, if this says that the call is
done. -/
theorem call_payload_of_result (unfinished : ctx.IsOpen)
    (run : Runs (e.call ctx) events (envelope, final)) :
    envelope.payload =
      ((Deed.result? (deeds events)).filter (·.marker = 0x01)).bind (·.text? .jsonValue) := by
  have report := congrArg Envelope.payload (call_report run)
  cases call_ending unfinished run with
  | @completed replies reply course result phase outcome tells =>
    by_cases done : reply.marker = 0x01
    · simp [result, Option.filter, done, tells.payload done]
    · have other : final.outcome ≠ .ok := outcome ▸ mt Outcome.ofWire_eq_ok.mp done
      rw [Envelope.payload_report other] at report
      simp [result, Option.filter, done, report]
  | failed course unread phase code =>
    rw [report, Envelope.payload_report course.failure_ne_ok, unread]
    rfl

theorem call_lastReply_eq (run : Runs (e.call ctx) events (envelope, final)) :
    final.lastReply = (Deed.replies (deeds events)).getLast?.or ctx.lastReply := by
  obtain ⟨-, replies, failure, course, -, rfl⟩ := call_course run
  obtain ⟨outgoing, briefed⟩ := e.briefed_eq ctx
  rw [rewarded_lastReply, Context.concluded_lastReply, course.replies_eq, briefed]

/-- Whatever is answered to a call on a new context, its envelope has a payload just if the outcome is
"ok" and the last value frame of the last reply has a text, which is the payload then, and the context has
the same payload. If there was a second receive, the payload is that of the reply it has brought, and none
if it has brought no reply or another state. -/
theorem call_payload (e : Engine σ) (ctx : Context) (new : ctx.IsNew)
    (respond : List (Event (Note σ) Context) → (request : Request) → request.Answer) :
    let (events, envelope, final) := play respond [] (e.call ctx)
    (∀ text, envelope.payload = some text ↔
      final.outcome = .ok ∧ ∃ m reply, .message m ∈ Deed.receipts (deeds events) ∧
        Wire.decodeReply m = .ok reply ∧ final.lastReply = some reply ∧
        Wire.Message.Says m .jsonValue text) ∧
    final.lastReply = (Deed.replies (deeds events)).getLast? ∧
    final.payload = envelope.payload ∧
    ∀ first second, Deed.receipts (deeds events) = [first, second] →
      envelope.payload = (second.reply?.filter (·.marker = 0x01)).bind (·.text? .jsonValue) := by
  have run := runs_play respond [] (e.call ctx)
  generalize play respond [] (e.call ctx) = played at run ⊢
  obtain ⟨events, envelope, final⟩ := played
  have payload := call_payload_of_result new.isOpen run
  have last := call_lastReply_eq run
  rw [new.lastReply, Option.or_none] at last
  refine ⟨fun text => ?_, last, call_payload_eq new.payload run, fun first second pair => ?_⟩
  · cases call_ending new.isOpen run with
    | @completed replies reply course result phase outcome tells =>
      obtain ⟨received, latest, read⟩ := Option.bind_eq_some_iff.mp result
      obtain ⟨m, rfl, decoded⟩ := Received.message_of_reply? read
      have known : final.lastReply = some reply := by
        obtain ⟨-, reply', there, result'⟩ | ⟨⟨_, impossible⟩, -⟩ := course.last_receipt
        · rw [last, course.replies_eq, there]
          exact result'.symm.trans result
        · cases impossible
      have ok : final.outcome = .ok ↔ reply.marker = 0x01 := outcome ▸ Outcome.ofWire_eq_ok
      rw [payload, result, ok]
      constructor
      · intro told
        obtain ⟨reply, kept, told⟩ := Option.bind_eq_some_iff.mp told
        obtain ⟨rfl, done⟩ : _ = reply ∧ reply.marker = 0x01 := by
          simpa [Option.filter_eq_some_iff] using kept
        exact ⟨done, m, _, List.mem_of_getLast? latest, decoded, known,
          (Wire.text?_eq_some_iff_says decoded (by decide)).mp told⟩
      · rintro ⟨done, m', reply', -, decoded', known', said⟩
        obtain rfl := Option.some.inj (known.symm.trans known')
        have told := (Wire.text?_eq_some_iff_says decoded' (by decide)).mpr said
        simpa [Option.filter, done] using told
    | failed course unread phase code =>
      simp [payload, unread, course.failure_ne_ok]
  · have result : Deed.result? (deeds events) = second.reply? := by simp [Deed.result?, pair]
    rw [payload, result]

/-- The value that came with the acknowledgement gives way to that of the result. -/
theorem call_payload_latest :
    let first := worded 0x03 .jsonValue "1"
    let second := worded 0x01 .jsonValue "7"
    let (events, envelope, final) :=
      play (answering first second) [] (Desk.plainEngine.call Desk.inquiry)
    Desk.inquiry.IsNew ∧ Deed.receipts (deeds events) = [first, second] ∧
      envelope.payload = some "7" ∧ final.payload = some "7" := by
  intro first second
  have new : Desk.inquiry.IsNew := ⟨⟨rfl, rfl⟩, rfl, rfl, rfl, rfl⟩
  obtain ⟨-, -, same, last⟩ :=
    call_payload Desk.plainEngine Desk.inquiry new (answering first second)
  have payload := last first second rfl
  exact ⟨new, rfl, payload, same.trans payload⟩

end Engine

end Call

end Switchboard
