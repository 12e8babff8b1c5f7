import Switchboard.Proofs.Call.Report
import Switchboard.Proofs.Rehearsal.Remains

/-!
# Which calls lose their socket

A call that fails on its line has its socket closed, and nothing has the number of this socket
afterwards. A call that is completed gives its socket back whatever the reply says, be it that the peer
found a frame invalid. So of the local failures the one that only a peer can tell of costs no socket
(`local_failure_settles`).
-/

namespace Switchboard

/-- Of the local failures a reply can only tell that a frame was invalid. -/
theorem Outcome.ofWire_eq_local {state : UInt8} {failure : LocalFailure} :
    ofWire state = .local failure ↔ failure = .frameInvalid ∧ state = 0x85 := by
  constructor
  · intro h
    rcases ofWire_eq h with found | other
    · simpa [named, and_comm] using found
    · cases other
  · rintro ⟨rfl, rfl⟩
    decide

theorem Opened.failure_cases {opened : Opened} {outcome : Outcome}
    (failed : opened.failure? = some outcome) :
    outcome = .local .notReady ∨ outcome = .remote .timedOut := by
  cases opened <;> cases failed
  · exact .inl rfl
  · exact .inr rfl

theorem Received.failure_cases {received : Received} {outcome : Outcome}
    (failed : received.failure? = some outcome) :
    outcome = .local .recvError ∨ outcome = .local .localException ∨
      outcome = .remote .timedOut := by
  cases received with
  | message m =>
    simp only [failure?] at failed
    split at failed <;> cases failed
    exact .inr (.inl rfl)
  | fault fault => cases failed; exact .inl rfl
  | late => cases failed; exact .inr (.inr rfl)

namespace Errand

variable {a : Errand} {deeds : List Deed} {replies : List Wire.Decoded}

theorem hasLine_opening {endpoint : String} {later : List Deed} :
    Deed.HasLine (a.opening (.line endpoint) :: later) :=
  ⟨_, List.mem_cons_self, trivial⟩

namespace Course

/-- There is a line if nothing fails. -/
theorem hasLine (course : a.Course deeds replies none) : Deed.HasLine deeds := by
  cases course <;> exact hasLine_opening

/-- What can fail before there is a line, and what on it. -/
theorem failure_cases {outcome : Outcome} (course : a.Course deeds replies (some outcome)) :
    (¬ Deed.HasLine deeds ∧ (outcome = .local .notReady ∨ outcome = .remote .timedOut)) ∨
    (Deed.HasLine deeds ∧ (outcome = .local .sendError ∨ outcome = .local .recvError ∨
      outcome = .local .localException ∨ outcome = .remote .timedOut)) := by
  cases course with
  | unopened opened h =>
    refine .inl ⟨fun line => ?_, Opened.failure_cases h⟩
    cases opened with
    | line endpoint => cases h
    | unavailable | late => cases (Deed.hasLine_singleton _).mp line
  | unsent endpoint fault => exact .inr ⟨hasLine_opening, .inl rfl⟩
  | unanswered endpoint h => exact .inr ⟨hasLine_opening, .inr (Received.failure_cases h)⟩
  | cutShort endpoint h more g => exact .inr ⟨hasLine_opening, .inr (Received.failure_cases g)⟩

end Course

end Errand

namespace Traffic

open Pool Event Relation

variable {σ α : Type} {cap : Nat} {t t' : Traffic σ α}

theorem usage_of_steps (steps : ReflTransGen Step t t') :
    ReflTransGen Usage.Step t.usage t'.usage := by
  induction steps with
  | refl => exact .refl
  | tail _ step ih => exact ih.trans step.usage

/-- Between two moments of the traffic a leased socket is closed: its slot is free then, and no socket
that is idle or leased has its number from then on. -/
structure Gone (l : Lease α) (t t' : Traffic σ α) : Prop where
  closed : (t.pool.release l).2 = some l.socket
  freed : t'.pool.liveCount l.station + 1 = t.pool.liveCount l.station
  never : ∀ later, ReflTransGen Step t' later → ∀ i ∈ later.usage.sockets, i.id ≠ l.id

theorem Ends.mem {a : Attempt σ α} (ends : Ends a t t') : a ∈ t.attempts := by
  obtain ⟨d, p, others, -⟩ := ends
  exact Multiset.mem_cons_self ..

theorem Reachable.fate {a : Attempt σ α} (reachable : Reachable cap t) (ends : Ends a t t') :
    Fate a t.pool t'.pool :=
  ends.fate reachable.usage.accounted.1 (reachable.sound a ends.mem)

/-- The socket of an attempt that does not succeed is lost. -/
theorem Ends.gone {a : Attempt σ α} (reachable : Reachable cap t) (ends : Ends a t t')
    {l : Lease α} (leased : a.hold = .lease l) (unsuccessful : ¬ a.Succeeded) : Gone l t t' := by
  obtain ⟨closed, -, freed⟩ := (reachable.fate ends).closed l leased unsuccessful
  refine ⟨closed, freed, fun later steps i mem same => ?_⟩
  have sound := reachable.sound a ends.mem
  have distinct := reachable.usage.distinct
  obtain ⟨d, p, others, atEnd⟩ := ends
  have unfit : l.isUnfit = true := by
    simpa using mt (sound.succeeded_iff atEnd leased).mpr unsuccessful
  simp only [usage, Multiset.map_cons, leased] at distinct
  -- The number is settled as soon as the lease has ended, and stays so when the client has left.
  have closes := Usage.Closes.unfit d p (others.map Attempt.hold) unfit
  have settled := (closes.settled distinct).step (.leave ..)
  rw [← leased] at settled
  exact (settled.run (usage_of_steps steps)).only i mem same

/-- What a local failure of a call makes of its socket. -/
def Settles (t t' : Traffic σ α) (hold : Hold α) (deeds : List Deed) : LocalFailure → Prop
  | .notReady => ∀ l, hold ≠ .lease l
  | .sendError | .recvError | .localException => ∃ l, hold = .lease l ∧ Gone l t t'
  | .frameInvalid => ∃ l reply, hold = .lease l ∧
      Deed.result? deeds = some reply ∧ reply.marker = 0x85 ∧
      ∃ i ∈ (t'.pool.sockets l.station).idle, i.id = l.id

/-- In traffic that can come about, a call on a fresh context may end with a local failure. If the
station was not ready, the call had no socket. If sending, receiving or decoding has failed, it had one
that is lost. And if a frame was invalid, a reply has said so, and the socket is idle again. -/
theorem local_failure_settles (reachable : Reachable cap t) {e : Call.Engine σ}
    {ctx final : Call.Context} (fresh : ctx.IsFresh) {envelope : Envelope} {hold : Hold α}
    {events : List (Event (Call.Note σ) Call.Context)}
    (ends : Ends ⟨.call e ctx, .finish (envelope, final), hold, events⟩ t t')
    {failure : LocalFailure} (failed : final.outcome = .local failure) :
    Settles t t' hold (deeds events) failure := by
  have run := (reachable.sound _ ends.mem).led
  have fate := reachable.fate ends
  cases Call.Engine.call_ending fresh.isOpen run with
  | @completed _ reply course result phase outcome tells =>
    rw [failed] at outcome
    obtain ⟨rfl, marker⟩ := Outcome.ofWire_eq_local.mp outcome.symm
    obtain ⟨l, leased⟩ := fate.leased.mp course.hasLine
    have succeeded : Attempt.Succeeded ⟨.call e ctx, .finish (envelope, final), hold, events⟩ :=
      ⟨⟨_, rfl⟩, course.allWell_iff.mpr rfl⟩
    exact ⟨l, reply, leased, result, marker, (fate.returned l leased).mpr succeeded⟩
  | failed course unread phase code =>
    rw [failed] at course
    have unsuccessful : ¬ Attempt.Succeeded
        ⟨.call e ctx, .finish (envelope, final), hold, events⟩ := fun succeeded =>
      Option.some_ne_none _ (course.allWell_iff.mp succeeded.2)
    obtain ⟨unlined, cause⟩ | ⟨line, cause⟩ := course.failure_cases
    · obtain rfl : failure = .notReady := by simpa using cause
      exact fun l leased => unlined (fate.leased.mpr ⟨l, leased⟩)
    · obtain ⟨l, leased⟩ := fate.leased.mp line
      have gone := ends.gone reachable leased unsuccessful
      simp only [Outcome.local.injEq, reduceCtorEq, or_false] at cause
      rcases cause with rfl | rfl | rfl <;> exact ⟨l, leased, gone⟩

/-- A call whose connection breaks while it waits for the reply loses its socket. -/
theorem local_failure_settles_broken :
    ∃ (t t' : Traffic Unit Unit) (events : _) (envelope : _) (final : _) (hold : _) (l : _),
      Reachable 1 t ∧ final.outcome = .local .recvError ∧
      Ends ⟨.call Call.Desk.plainEngine Call.Desk.inquiry, .finish (envelope, final), hold, events⟩
        t t' ∧
      hold = .lease l ∧ Gone l t t' := by
  let directory : Directory := [("orders", ["10.0.0.1:9000"])]
  let task : Task Unit := .call Call.Desk.plainEngine Call.Desk.inquiry
  have arrived : Reachable 1 (⟨directory, { cap := 1 }, {.start task}⟩ : Traffic Unit Unit) :=
    .tail (.tail .refl (.redirect _ directory)) (.arrive _ task)
  have looked := arrived.tail (.move 0 (.inquire ⟨_, _, rfl⟩ rfl))
  have dialling := looked.tail (.move 0 (.dialled ⟨_, _, rfl⟩ rfl rfl rfl))
  have leased := dialling.tail (.move 0 (.connected () ⟨_, _, rfl⟩ rfl))
  have sending := leased.tail (.move 0 (.begun () ⟨_, _, rfl⟩ rfl))
  have sent := sending.tail (.move 0 (.sent () none ⟨_, _, rfl⟩ rfl rfl))
  have receiving := sent.tail (.move 0 (.begun () ⟨_, _, rfl⟩ rfl))
  have broken := receiving.tail (.move 0 (.received () (.fault .closed) ⟨_, _, rfl⟩ rfl rfl))
  have told := broken.tail (.move 0 (.note rfl))
  have discarded := told.tail (.move 0 (.discard rfl))
  have concluded := discarded.tail (.move 0 (.note rfl))
  have lost {d : Directory} {p : Pool Unit} {events : List (Event (Call.Note Unit) Call.Context)}
      {envelope : Envelope} {final : Call.Context} {hold : Hold Unit}
      (reachable : Reachable 1 ⟨d, p, ⟨task, .finish (envelope, final), hold, events⟩ ::ₘ 0⟩)
      (failed : final.outcome = .local .recvError) :=
    local_failure_settles reachable ⟨rfl, rfl⟩ (.ended d p 0 (.inl ⟨_, rfl⟩)) failed
  obtain ⟨l, held, gone⟩ := lost concluded rfl
  exact ⟨_, _, _, _, _, _, l, concluded, rfl, .ended _ _ 0 (.inl ⟨_, rfl⟩), held, gone⟩

end Traffic

namespace Rehearsal

open Wire

/-- A world in which a station replies that a frame was invalid. -/
def particular : World Unit where
  frameLimit := 100
  directory := [("orders", ["10.0.0.1:9000"])]
  pool := { cap := 1 }
  scripts := [{ reads := [.bytes (Message.layout [[0, 0x85, endByte]])] }]

/-- The call ends with a local failure, and its socket is idle again. -/
theorem idle_of_frameInvalid :
    let run := (converse none (order "1").dialogue).run particular
    run.1.outcome? = some (.local .frameInvalid) ∧
      (run.2.pool.sockets "orders").idle.map (·.id) = [1] := by
  decide +kernel

end Rehearsal

end Switchboard
