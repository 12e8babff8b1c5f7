import Switchboard.Proofs.Call.Course

/-!
# How a call conducts itself

What a caller can rely on, whatever is answered: a call made with a fresh context sends at most once,
receives a second time only after "running", and leaves a context whose phase and outcome the last step
has decided.
-/

namespace Switchboard.Call

open Dialogue Event

variable {σ : Type}

/-- No call has been made with the context. -/
structure Context.IsFresh (ctx : Context) : Prop where
  phase : ctx.phase = .idle
  outcome : ctx.outcome = .unset

theorem Context.IsFresh.isOpen {ctx : Context} (fresh : ctx.IsFresh) : ctx.IsOpen :=
  ⟨by simp [fresh.phase, Phase.isTerminal], fresh.outcome⟩

namespace Engine

/-- How a call conducts itself, by all that happened in it and the context it leaves. -/
structure Conduct (events : List (Event (Note σ) Context)) (final : Context) : Prop where
  /-- It sends at most once. -/
  sends : (Deed.sends (deeds events)).length ≤ 1
  /-- It sends only on a line. -/
  line : ∀ before message fault? after,
    deeds events = before ++ .ask (.send message) fault? :: after →
    ∃ station affinity limit endpoint, .ask (.open station affinity limit) (.line endpoint) ∈ before
  /-- It receives only after a send that succeeded. -/
  sent : ∀ before limit received after,
    deeds events = before ++ .ask (.receive limit) received :: after →
    ∃ message, .ask (.send message) none ∈ before
  /-- It receives at most twice. -/
  receipts : (Deed.receipts (deeds events)).length ≤ 2
  /-- It receives twice just if the first reply came and said "running". -/
  running : (Deed.receipts (deeds events)).length = 2 ↔
    ∃ first reply, (Deed.receipts (deeds events)).head? = some first ∧
      first.reply? = some reply ∧ reply.marker = 0x03
  /-- It is completed by the reply that it received last. -/
  completed : ∀ reply, (Deed.receipts (deeds events)).getLast?.bind Received.reply? = some reply →
    final.phase = .completed ∧ final.outcome = .ofWire reply.marker
  /-- Without such a reply it fails by the one step that failed. -/
  failed : (Deed.receipts (deeds events)).getLast?.bind Received.reply? = none →
    final.phase = .failed ∧ Deed.failures (deeds events) = [final.outcome]
  /-- Its outcome is open whenever something is asked, and none is refused. -/
  untroubled : ∀ event ∈ events, Untroubled event
  decided : final.outcome ≠ .unset

/-- Every course ends in the phase and with the outcome that its last step decides. -/
theorem conduct_of_course {e : Engine σ} {briefed : Context}
    {events : List (Event (Note σ) Context)} {replies : List Wire.Decoded}
    {failure : Option Outcome} (unfinished : briefed.IsOpen)
    (untroubled : ∀ event ∈ events, Untroubled event)
    (course : (e.errand briefed).Course (deeds events) replies failure) :
    Conduct events (e.rewarded (briefed.concluded replies failure)) where
  sends := course.sends_le_one
  line before message fault? after split := by
    obtain ⟨endpoint, mem⟩ := course.line_before_send split
    exact ⟨_, _, _, endpoint, mem⟩
  sent before limit received after split := ⟨_, course.send_before_receive split⟩
  receipts := course.receipts_le_two
  running := by simpa [errand, Outcome.ofWire_eq_running] using course.receipts_eq_two_iff
  completed reply read := by
    rw [rewarded_phase, rewarded_outcome, unfinished.concluded_phase, unfinished.concluded_outcome]
    obtain ⟨rfl, last, replied, read'⟩ | ⟨-, unread⟩ := course.last_receipt
    · obtain rfl := Option.some.inj (read'.symm.trans read)
      simp [replied]
    · rw [unread] at read
      cases read
  failed unread := by
    rw [rewarded_phase, rewarded_outcome, unfinished.concluded_phase, unfinished.concluded_outcome,
      course.failures_eq]
    obtain ⟨-, last, -, read⟩ | ⟨⟨outcome, rfl⟩, -⟩ := course.last_receipt
    · rw [unread] at read
      cases read
    · exact ⟨rfl, rfl⟩
  untroubled := untroubled
  decided := by
    rw [rewarded_outcome, unfinished.concluded_outcome]
    obtain ⟨rfl, last, replied, -⟩ | ⟨⟨outcome, rfl⟩, -⟩ := course.last_receipt
    · simpa [replied] using Outcome.ofWire_ne_unset last.marker
    · exact fun unset => course.failure_ne_unset (congrArg some unset)

/-- Whatever is answered to a call made with a fresh context, it conducts itself. -/
theorem call_conduct (e : Engine σ) (ctx : Context) (fresh : ctx.IsFresh)
    (respond : List (Event (Note σ) Context) → (request : Request) → request.Answer) :
    Conduct (play respond [] (e.call ctx)).1 (play respond [] (e.call ctx)).2.2 := by
  obtain ⟨untroubled, replies, failure, course, -, final⟩ :=
    call_course (runs_play respond [] (e.call ctx))
  rw [final]
  exact conduct_of_course (briefed_isOpen fresh.isOpen) (untroubled fresh.isOpen) course

/-- A peer that says "running" at first, and then "ok". -/
def agreeable (past : List (Event (Note σ) Context)) : (request : Request) → request.Answer
  | .open .. => .line "10.0.0.1:9000"
  | .send _ => none
  | .receive _ =>
    let state := if (Deed.receipts (deeds past)).isEmpty then 0x03 else 0x01
    .message [[0, state, Wire.endByte]]

/-- A call to an agreeable peer is completed by its second reply. -/
theorem call_conduct_agreeable :
    let e : Engine Unit := { config := {}, handlers := [] }
    let ctx : Context := { station := "orders", command := "get", requestId := "1" }
    let (events, _, final) := play agreeable [] (e.call ctx)
    (Deed.receipts (deeds events)).length = 2 ∧ final.phase = .completed ∧ final.outcome = .ok := by
  intro e ctx
  have conduct := call_conduct e ctx ⟨rfl, rfl⟩ agreeable
  exact ⟨conduct.running.mpr ⟨_, _, rfl, rfl, rfl⟩, conduct.completed ⟨0x01, [], []⟩ rfl⟩

end Engine

end Switchboard.Call
