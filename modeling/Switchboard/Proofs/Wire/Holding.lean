import Switchboard.Proofs.Wire.Emptiness

/-!
# What a buffer holds back

A buffer waits just if it has fewer bytes than it awaits: those of a header, or those of the frame that
the header read last has announced (`step_eq_wait_iff`). A push stops there, or at a header that it
refuses. So however a buffer is used, either it has accepted all that was pushed since it was cleared last,
or it is stuck at a header that its last push has refused: each act keeps this (`Settled.push`,
`Settled.clear`). As long as the pushes succeed, what the buffer holds back is bounded by its limit,
however long the stream is (`bounded_of_last_ok`).
-/

namespace Switchboard.Wire.Buffer

variable {b next : Buffer} {chunk : Bytes} {flaw : Flaw}

/-- How many bytes the buffer needs to go on: those of a header, or of the frame whose header it has
read. -/
def awaited (b : Buffer) : Nat :=
  b.opened.elim headerSize Prod.snd

/-- A buffer waits for want of bytes and for no other reason. -/
theorem step_eq_wait_iff : b.step = .wait ↔ b.length < b.awaited := by
  unfold awaited
  cases opened : b.opened with
  | none =>
    constructor
    · intro wait
      by_contra short
      have enough : headerSize ≤ b.pending.toBytes.length := by
        rw [Backlog.length_toBytes]
        exact Nat.le_of_not_lt short
      -- A whole header is either read or refused.
      obtain ⟨flag, length, part, width, bytes⟩ := exists_header enough
      have step := step_of_header opened width bytes
      rw [wait] at step
      split at step <;> cases step
    · intro short
      exact step_of_short_header opened short
  | some header =>
    obtain ⟨more, size⟩ := header
    constructor
    · intro wait
      simp only [step, opened] at wait
      split at wait
      · next short => exact Backlog.take?_eq_none.mp short
      · split at wait <;> cases wait
    · intro short
      exact step_of_short_frame opened short

theorem step_of_push_error (failed : b.push chunk = (.error flaw, next)) :
    next.step = .refuse flaw := by
  unfold push at failed
  dsimp only at failed
  split at failed <;> cases failed
  next bad => exact step_rest_of_flaw bad

theorem push_of_refuse (refuses : b.step = .refuse flaw) (chunk : Bytes) :
    (b.push chunk).1 = .error flaw := by
  rw [push_eq_error, yield_of_refuse (step_more_of_refuse chunk refuses)]

/-! ## Buffers in use -/

/-- What is done to a buffer. -/
inductive Act where
  | push (chunk : Bytes)
  | clear
  deriving DecidableEq, Repr

/-- A buffer in use, with the bytes that were pushed since it was cleared last, and with what the last
push has returned, if there was one. -/
structure Use where
  buffer : Buffer
  stream : Bytes := []
  last : Option (Except Flaw (List Message)) := none

namespace Use

variable {limit : Nat} {u : Use}

def act (u : Use) : Act → Use
  | .push chunk =>
    let (result, next) := u.buffer.push chunk
    { buffer := next, stream := u.stream ++ chunk, last := some result }
  | .clear => { u with buffer := u.buffer.clear, stream := [] }

/-- A fresh buffer after some acts. -/
def after (limit : Nat) (acts : List Act) : Use :=
  acts.foldl act { buffer := { limit } }

/-- The buffer has accepted what was pushed, or it is stuck at the header that the last push has
refused. -/
inductive Settled (limit : Nat) (u : Use) : Prop
  | accepted (accepts : Accepts limit u.stream u.buffer) : Settled limit u
  | stuck (flaw : Flaw) (failed : u.last = some (.error flaw))
      (refuses : u.buffer.step = .refuse flaw) (same : u.buffer.limit = limit) : Settled limit u

namespace Settled

theorem limit_eq (settled : u.Settled limit) : u.buffer.limit = limit := by
  cases settled with
  | accepted accepts => exact accepts.limit_eq
  | stuck flaw failed refuses same => exact same

/-- A push that fails leaves the buffer stuck, and one that succeeds has found it not to be. -/
theorem push (settled : u.Settled limit) (chunk : Bytes) : (u.act (.push chunk)).Settled limit := by
  have limits := limit_push u.buffer chunk
  rcases pushed : u.buffer.push chunk with ⟨result, next⟩
  rw [pushed] at limits
  have acted : u.act (.push chunk) =
      { buffer := next, stream := u.stream ++ chunk, last := some result } := by
    rw [act, pushed]
  rw [acted]
  cases result with
  | error flaw =>
    exact .stuck flaw rfl (step_of_push_error pushed) (limits.trans settled.limit_eq)
  | ok messages =>
    cases settled with
    | accepted accepts => exact .accepted (accepts.push pushed)
    | stuck flaw failed refuses same =>
      have again := push_of_refuse refuses chunk
      rw [pushed] at again
      cases again

theorem clear (settled : u.Settled limit) : (u.act .clear).Settled limit := by
  have fresh : u.buffer.clear = { limit } := by rw [Buffer.clear, settled.limit_eq]
  apply Settled.accepted
  rw [act, fresh]
  exact .fresh

theorem acts (settled : u.Settled limit) (acts : List Act) : (acts.foldl act u).Settled limit := by
  induction acts generalizing u with
  | nil => exact settled
  | cons act acts ih =>
    cases act with
    | push chunk => exact ih (settled.push chunk)
    | clear => exact ih settled.clear

end Settled

theorem settled_after (limit : Nat) (acts : List Act) : (after limit acts).Settled limit :=
  Settled.acts (.accepted .fresh) acts

/-- However a buffer was pushed and cleared: if the last push succeeded, all that was pushed since the
buffer was cleared is messages within the limit, laid out, and behind them what the buffer holds of the
next one. Of bytes that it has not looked at there are four at most while it awaits a header, and while it
awaits a frame there are fewer than the frame has. Neither this frame nor any frame held is beyond the
limit. -/
theorem bounded_of_last_ok {limit : UInt32} {acts : List Act} {messages : List Message}
    (ok : (after limit.toNat acts).last = some (.ok messages)) :
    let b := (after limit.toNat acts).buffer
    (b.opened = none → b.length ≤ 4) ∧
      (∀ more size, b.opened = some (more, size) → b.length < size ∧ size ≤ limit.toNat) ∧
      (∀ frame ∈ b.held, frame.length ≤ limit.toNat) ∧
      ∃ whole, Deliverable limit.toNat whole ∧
        (after limit.toNat acts).stream = layouts whole ++ b.unfinished := by
  intro b
  have accepts : Accepts limit.toNat (after limit.toNat acts).stream b := by
    cases settled_after limit.toNat acts with
    | accepted accepts => exact accepts
    | stuck flaw failed refuses same =>
      rw [ok] at failed
      cases failed
  have short : b.length < b.awaited := step_eq_wait_iff.mp accepts.waits
  have within := accepts.within
  rw [awaited] at short
  refine ⟨fun closed => ?_, fun more size opened => ⟨?_, ?_⟩, ?_, accepts.stream_eq⟩
  · rw [closed] at short
    exact Nat.le_of_lt_succ short
  · rwa [opened] at short
  · exact accepts.limit_eq ▸ within.opened _ opened
  · exact accepts.limit_eq ▸ within.held

/-- A header is refused and the buffer cleared; then there come a frame, the header of the next one, and
half of that. -/
theorem bounded_of_last_ok_half_frame :
    let used := after (2 : UInt32).toNat
      [.push [2, 0, 0, 0, 0], .clear, .push [1, 0, 0], .push [0, 1, 7, 0, 0, 0, 0, 2, 5]]
    used.last = some (.ok []) ∧ used.buffer.opened = some (false, 2) ∧
      (used.buffer.length < 2 ∧ 2 ≤ (2 : UInt32).toNat) ∧
      (∀ frame ∈ used.buffer.held, frame.length ≤ (2 : UInt32).toNat) ∧
      ∃ whole, Deliverable (2 : UInt32).toNat whole ∧
        used.stream = layouts whole ++ used.buffer.unfinished := by
  intro used
  have ok : used.last = some (.ok []) := by
    unfold used
    cbv
  have opened : used.buffer.opened = some (false, 2) := by
    unfold used
    cbv
  obtain ⟨-, frame, rest⟩ := bounded_of_last_ok ok
  exact ⟨ok, opened, frame false 2 opened, rest⟩

end Use

end Switchboard.Wire.Buffer
