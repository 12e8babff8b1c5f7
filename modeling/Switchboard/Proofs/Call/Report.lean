import Mathlib.Tactic.IntervalCases
import Switchboard.Proofs.Call.History

/-!
# What the envelope of a call says

An envelope is made of the outcome and of the last reply that was decoded. If it was the last receive
that brought this reply, the outcome is the reply's own: that the call is done, how far it got, or what
went wrong (`call_second_reply`). If a step has failed, there is no reply or only the acknowledgement,
and then the failure is told in the words of the acknowledgement (`call_failure_message`).
-/

namespace Switchboard

namespace Outcome

/-- Only one state byte says that the call is done. -/
theorem ofWire_eq_ok {state : UInt8} : ofWire state = ok ↔ state = 0x01 :=
  ofWire_eq_iff (by decide)

/-- The state bytes that say how far the exchange got. -/
theorem ofWire_eq_protocol {state : UInt8} :
    (∃ p, ofWire state = .protocol p) ↔ 0x02 ≤ state ∧ state ≤ 0x0A := by
  constructor
  · rintro ⟨p, h⟩
    rcases ofWire_eq h with found | other
    · simp only [named, List.mem_cons, Prod.mk.injEq, reduceCtorEq, and_false, false_or, or_false,
        List.not_mem_nil, ← UInt8.toNat_inj, UInt8.reduceToNat] at found
      simp only [UInt8.le_iff_toNat_le, UInt8.reduceToNat]
      omega
    · cases other
  · rintro ⟨low, high⟩
    have within (n : Nat) (low : 2 ≤ n) (high : n ≤ 10) : ∃ p, ofWire (.ofNat n) = .protocol p := by
      interval_cases n <;> exact ⟨_, rfl⟩
    simpa using within state.toNat low high

/-- The first ten state bytes are the one of a call that is done and those of the exchange. -/
theorem first_ten {state : UInt8} :
    0x01 ≤ state ∧ state ≤ 0x0A ↔ state = 0x01 ∨ 0x02 ≤ state ∧ state ≤ 0x0A := by
  simp only [UInt8.le_iff_toNat_le, ← UInt8.toNat_inj, UInt8.reduceToNat]
  omega

/-- The state bytes that make a success of an envelope. -/
theorem code_ofWire_eq_success {state : UInt8} :
    (ofWire state).code = .success ↔ 0x01 ≤ state ∧ state ≤ 0x0A := by
  rw [code_eq_success, ofWire_eq_ok, ofWire_eq_protocol, first_ten]

/-- No state of the exchange goes by the name of a success. -/
theorem name_protocol_ne_success (p : ProtocolState) :
    (Outcome.protocol p).name ≠ ResultCode.success.message := by
  cases p <;> decide

end Outcome

namespace Deed

/-- The replies that were received, in order. -/
def replies (deeds : List Deed) : List Wire.Decoded :=
  (receipts deeds).filterMap Received.reply?

/-- The reply that the last receive has brought. -/
def result? (deeds : List Deed) : Option Wire.Decoded :=
  (receipts deeds).getLast?.bind Received.reply?

end Deed

namespace Errand.Course

variable {a : Errand} {deeds : List Deed} {replies : List Wire.Decoded} {failure : Option Outcome}

theorem replies_eq (course : a.Course deeds replies failure) : Deed.replies deeds = replies := by
  cases course with
  | unopened opened h | unsent endpoint fault => rfl
  | unanswered endpoint h =>
    simp [Deed.replies, Deed.receipts, opening, sending, receiving, Received.reply?_eq_none h]
  | answered endpoint h last => simp [Deed.replies, Deed.receipts, opening, sending, receiving, h]
  | cutShort endpoint h more g =>
    simp [Deed.replies, Deed.receipts, opening, sending, receiving, h, Received.reply?_eq_none g]
  | concluded endpoint h more g =>
    simp [Deed.replies, Deed.receipts, opening, sending, receiving, h, g]

/-- A failure comes before any reply, or in the place of a second one. -/
theorem receipts_of_failure {outcome : Outcome} (course : a.Course deeds replies (some outcome)) :
    replies = [] ∨ ∃ first second ack, Deed.receipts deeds = [first, second] ∧
      first.reply? = some ack ∧ a.goesOn ack ∧ second.reply? = none ∧ replies = [ack] := by
  cases course with
  | unopened opened h | unsent endpoint fault | unanswered endpoint h => exact .inl rfl
  | cutShort endpoint h more g =>
    exact .inr ⟨_, _, _, rfl, h, more, Received.reply?_eq_none g, rfl⟩

end Errand.Course

namespace Envelope

/-- What is no success is told in the words of the last reply, if it has any. -/
theorem message_report {outcome : Outcome} (failed : outcome.code ≠ .success) (origin : String)
    (last : Option Wire.Decoded) :
    (report origin outcome last).message =
      (last.bind (·.text? .status)).getD outcome.code.message := by
  unfold report
  split
  · exact absurd rfl failed
  · exact absurd rfl failed
  · rfl

/-- How the envelope tells of the reply that has ended a call. -/
structure Tells (envelope : Envelope) (reply : Wire.Decoded) : Prop where
  success : envelope.code = .success ↔ 0x01 ≤ reply.marker ∧ reply.marker ≤ 0x0A
  /-- A call that is done is told from one that has only got so far. -/
  done : envelope.code = .success ∧ envelope.message = ResultCode.success.message ↔
    reply.marker = 0x01
  payload : reply.marker = 0x01 → envelope.payload = reply.text? .jsonValue
  /-- Of a call that has only got so far there is the name of the state, and no payload. -/
  state : 0x02 ≤ reply.marker → reply.marker ≤ 0x0A →
    envelope.message = (Outcome.ofWire reply.marker).name ∧ envelope.payload = none

theorem tells_report (origin : String) (reply : Wire.Decoded) :
    (report origin (.ofWire reply.marker) (some reply)).Tells reply where
  success := by rw [code_report, Outcome.code_ofWire_eq_success]
  done := by
    rw [code_report, Outcome.code_eq_success, ← Outcome.ofWire_eq_ok]
    constructor
    · rintro ⟨ok | ⟨p, queued⟩, message⟩
      · exact ok
      · rw [queued] at message
        exact absurd message (Outcome.name_protocol_ne_success p)
    · intro ok
      exact ⟨.inl ok, by rw [ok]; rfl⟩
  payload marker := by
    rw [Outcome.ofWire_eq_ok.mpr marker]
    rfl
  state low high := by
    obtain ⟨p, queued⟩ := Outcome.ofWire_eq_protocol.mpr ⟨low, high⟩
    rw [queued]
    exact ⟨rfl, rfl⟩

end Envelope

namespace Call

open Dialogue Event

variable {σ : Type}

namespace Context

theorem foldl_absorb_lastReply (replies : List Wire.Decoded) (ctx : Context) :
    (replies.foldl absorb ctx).lastReply = replies.getLast?.or ctx.lastReply := by
  induction replies generalizing ctx with
  | nil => rfl
  | cons reply replies ih =>
    rw [List.foldl_cons, ih, List.getLast?_cons]
    cases replies.getLast? <;> rfl

@[simp] theorem enter_lastReply (ctx : Context) (phase : Phase) :
    (ctx.enter phase).lastReply = ctx.lastReply := by
  unfold enter
  split <;> rfl

theorem concluded_lastReply (ctx : Context) (replies : List Wire.Decoded)
    (failure : Option Outcome) :
    (ctx.concluded replies failure).lastReply = replies.getLast?.or ctx.lastReply := by
  unfold concluded settle
  rw [enter_lastReply, foldl_absorb_lastReply]

end Context

namespace Engine

/-- The envelope of a call reports the outcome of its context and the last reply that was received. -/
theorem call_report {e : Engine σ} {ctx final : Context} {envelope : Envelope}
    {events : List (Event (Note σ) Context)} (run : Runs (e.call ctx) events (envelope, final)) :
    envelope = .report e.config.stationName final.outcome
      ((Deed.replies (deeds events)).getLast?.or ctx.lastReply) := by
  obtain ⟨-, replies, failure, course, rfl, rfl⟩ := call_course run
  obtain ⟨outgoing, briefed⟩ := e.briefed_eq ctx
  rw [rewarded_outcome, course.replies_eq]
  unfold Engine.envelope
  rw [Context.concluded_lastReply, briefed]

/-- The two ways in which a call that was open ends. -/
inductive Ending (e : Engine σ) (ctx : Context) (deeds : List Deed) (envelope : Envelope)
    (final : Context) : Prop
  /-- The last receive has brought a reply, of which the envelope tells. -/
  | completed {replies : List Wire.Decoded} {reply : Wire.Decoded}
      (course : (e.errand (e.briefed ctx)).Course deeds replies none)
      (result : Deed.result? deeds = some reply) (phase : final.phase = .completed)
      (outcome : final.outcome = .ofWire reply.marker) (tells : envelope.Tells reply)
  /-- A step has failed, and so there is no success. -/
  | failed {replies : List Wire.Decoded}
      (course : (e.errand (e.briefed ctx)).Course deeds replies (some final.outcome))
      (unread : Deed.result? deeds = none) (phase : final.phase = .failed)
      (code : envelope.code ≠ .success)

theorem call_ending {e : Engine σ} {ctx final : Context} {envelope : Envelope}
    {events : List (Event (Note σ) Context)} (unfinished : ctx.IsOpen)
    (run : Runs (e.call ctx) events (envelope, final)) :
    Ending e ctx (deeds events) envelope final := by
  have report := call_report run
  obtain ⟨-, replies, failure, course, -, rfl⟩ := call_course run
  have unfinished := briefed_isOpen (e := e) unfinished
  have phase := unfinished.concluded_phase replies failure
  have outcome := unfinished.concluded_outcome replies failure
  rw [← e.rewarded_phase] at phase
  rw [← e.rewarded_outcome] at outcome
  rw [course.replies_eq, outcome] at report
  obtain ⟨rfl, reply, last, read⟩ | ⟨⟨failure, rfl⟩, unread⟩ := course.last_receipt
  · rw [last] at report outcome
    refine .completed course read phase outcome ?_
    rw [report]
    exact Envelope.tells_report _ reply
  · refine .failed (by rw [outcome]; exact course) unread phase ?_
    rw [report, Envelope.code_report]
    exact course.code_ne_success

/-- Whatever is answered to a call on a fresh context that receives a second time: its envelope is a
success just if this has brought a reply whose state is one of the first ten. The outcome is then the
reply's own, and a call that is done is told from one that has only got so far. -/
theorem call_second_reply (e : Engine σ) (ctx : Context) (fresh : ctx.IsFresh)
    (respond : List (Event (Note σ) Context) → (request : Request) → request.Answer) :
    let (events, envelope, final) := play respond [] (e.call ctx)
    ∀ first second, Deed.receipts (deeds events) = [first, second] →
      (envelope.code = .success ↔
        ∃ reply, second.reply? = some reply ∧ 0x01 ≤ reply.marker ∧ reply.marker ≤ 0x0A) ∧
      ∀ reply, second.reply? = some reply →
        final.outcome = .ofWire reply.marker ∧ (final.outcome = .ok ↔ reply.marker = 0x01) ∧
          envelope.Tells reply := by
  intro first second pair
  have result : Deed.result? (deeds (play respond [] (e.call ctx)).1) = second.reply? := by
    simp [Deed.result?, pair]
  cases call_ending fresh.isOpen (runs_play respond [] (e.call ctx)) with
  | @completed _ reply course read phase outcome tells =>
    rw [result] at read
    refine ⟨⟨fun success => ⟨reply, read, tells.success.mp success⟩, ?_⟩, fun other read' => ?_⟩
    · rintro ⟨other, read', within⟩
      obtain rfl := Option.some.inj (read.symm.trans read')
      exact tells.success.mpr within
    · obtain rfl := Option.some.inj (read.symm.trans read')
      exact ⟨outcome, outcome ▸ Outcome.ofWire_eq_ok, tells⟩
  | failed course unread phase failed =>
    rw [result] at unread
    simp [unread, failed]

/-- A peer that gives one answer when something is first to be received, and then another. -/
def answering (first second : Received) (past : List (Event (Note σ) Context)) :
    (request : Request) → request.Answer
  | .open .. => .line "10.0.0.1:9000"
  | .send _ => none
  | .receive _ => if (Deed.receipts (deeds past)).isEmpty then first else second

/-- A reply that has nothing but its state. -/
def bare (state : UInt8) : Received :=
  .message [[0, state, Wire.endByte]]

/-- A reply with one text. -/
def worded (state : UInt8) (tag : Wire.Tag) (text : String) : Received :=
  .message [[1, state, tag.byte, Wire.endByte], Utf8.encode text]

/-- After "running", a call is done by an "ok", and has its value. -/
theorem call_second_reply_ok :
    let second := worded 0x01 .jsonValue "7"
    let (events, envelope, _) :=
      play (answering (bare 0x03) second) [] (Desk.plainEngine.call Desk.inquiry)
    Deed.receipts (deeds events) = [bare 0x03, second] ∧ envelope.code = .success ∧
      envelope.payload = some "7" := by
  intro second
  obtain ⟨success, tells⟩ := call_second_reply Desk.plainEngine Desk.inquiry ⟨rfl, rfl⟩
    (answering (bare 0x03) second) _ _ rfl
  obtain ⟨-, -, tells⟩ := tells _ rfl
  exact ⟨rfl, success.mpr ⟨_, rfl, by decide⟩, tells.payload rfl⟩

/-- After "running", a "queued" makes a success too. -/
theorem queued_of_running :
    let (events, envelope, final) :=
      play (answering (bare 0x03) (bare 0x02)) [] (Desk.plainEngine.call Desk.inquiry)
    Desk.inquiry.IsFresh ∧ Deed.receipts (deeds events) = [bare 0x03, bare 0x02] ∧
      (Deed.result? (deeds events)).map (·.marker) = some 0x02 ∧
      envelope.code = .success ∧ final.outcome = .protocol .queued :=
  ⟨⟨rfl, rfl⟩, rfl, rfl, rfl, rfl⟩

/-- A call on a fresh context that fails has the code of the step that failed, and the default message of
this code. Only if it was cut short after an acknowledgement, a status text of the acknowledgement takes
the place of the message. -/
theorem call_failure_message (e : Engine σ) (ctx : Context) (fresh : ctx.IsFresh)
    (silent : ctx.lastReply = none)
    (respond : List (Event (Note σ) Context) → (request : Request) → request.Answer) :
    let (events, envelope, final) := play respond [] (e.call ctx)
    final.phase = .failed →
      Deed.failures (deeds events) = [final.outcome] ∧
      envelope.code = final.outcome.code ∧ envelope.code ≠ .success ∧
      ((Deed.replies (deeds events) = [] ∧ envelope.message = envelope.code.message) ∨
        ∃ first second ack, Deed.receipts (deeds events) = [first, second] ∧
          first.reply? = some ack ∧ ack.marker = 0x03 ∧ second.reply? = none ∧
          envelope.message = (ack.text? .status).getD envelope.code.message) := by
  intro failed
  have run := runs_play respond [] (e.call ctx)
  generalize play respond [] (e.call ctx) = played at run failed ⊢
  obtain ⟨events, envelope, final⟩ := played
  cases call_ending fresh.isOpen run with
  | completed course read completed outcome tells =>
    rw [failed] at completed
    cases completed
  | failed course unread phase code =>
    -- The context knew of no reply before, so the envelope is made of those that were received.
    have report := call_report run
    have code_eq : envelope.code = final.outcome.code := by rw [report, Envelope.code_report]
    rw [silent, Option.or_none] at report
    have message := Envelope.message_report (code_eq ▸ code) e.config.stationName
      (Deed.replies (deeds events)).getLast?
    rw [← report, ← code_eq, course.replies_eq] at message
    refine ⟨course.failures_eq, code_eq, code, ?_⟩
    rw [course.replies_eq]
    obtain rfl | ⟨first, second, ack, pair, acked, more, unread, rfl⟩ := course.receipts_of_failure
    · exact .inl ⟨rfl, message⟩
    · exact .inr ⟨first, second, ack, pair, acked, Outcome.ofWire_eq_running.mp more, unread,
        message⟩

/-- A call that is not answered in time says so. -/
theorem call_failure_message_late :
    let (_, envelope, final) := play (answering .late .late) [] (Desk.plainEngine.call Desk.inquiry)
    final.phase = .failed ∧ envelope.message = "timed out" := by
  obtain ⟨-, -, -, ⟨-, message⟩ | ⟨_, _, _, pair, -⟩⟩ :=
    call_failure_message Desk.plainEngine Desk.inquiry ⟨rfl, rfl⟩ rfl (answering .late .late) rfl
  · exact ⟨rfl, message⟩
  · cases pair

/-- A call that times out after it was accepted says "accepted". -/
theorem message_of_accepted :
    let (_, envelope, final) := play (answering (worded 0x03 .status "accepted") .late) []
      (Desk.plainEngine.call Desk.inquiry)
    Desk.inquiry.IsFresh ∧ Desk.inquiry.lastReply = none ∧ final.phase = .failed ∧
      envelope.code = .timedOut ∧ envelope.message = "accepted" ∧
      envelope.message ≠ envelope.code.message := by
  refine ⟨⟨rfl, rfl⟩, rfl, rfl, rfl, rfl, ?_⟩
  decide

end Engine

end Call

end Switchboard
