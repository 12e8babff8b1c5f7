import Switchboard.Proofs.Wire.Feeding

/-!
# Empty buffers

A buffer that has accepted a stream holds what is left of it behind the messages delivered
(`Accepts.stream_eq`). Nothing is left just if the stream ends with a message (`Accepts.whole_iff`). A
buffer says that it is empty then, and in one more case: when the header of a message's first frame has
been read and nothing behind it has come (`Accepts.isEmpty_iff`).
-/

namespace Switchboard.Wire

/-- The stream is that of messages, all of them complete. -/
def Whole (stream : Bytes) : Prop :=
  ∃ messages : List Message,
    (∀ m ∈ messages, m ≠ [] ∧ ∀ frame ∈ m, frame.length < UInt32.size) ∧ stream = layouts messages

namespace Buffer

variable {limit : Nat} {stream : Bytes} {b : Buffer}

/-! ## Higher limits -/

/-- The buffer under another limit. -/
def underLimit (b : Buffer) (limit : Nat) : Buffer :=
  { b with limit }

@[simp] theorem unfinished_underLimit (b : Buffer) (limit : Nat) :
    (b.underLimit limit).unfinished = b.unfinished := rfl

theorem readHeader_underLimit {limit higher : Nat} {flag : UInt8} {length : Bytes}
    {header : Bool × Nat} (le : limit ≤ higher) (h : readHeader limit flag length = .ok header) :
    readHeader higher flag length = .ok header := by
  unfold readHeader at h ⊢
  dsimp only at h ⊢
  grind

theorem step_underLimit_of_wait (limit : Nat) (h : b.step = .wait) :
    (b.underLimit limit).step = .wait := by
  unfold step at h ⊢
  dsimp only [underLimit]
  split at h
  · split at h
    · rfl
    · rfl
    · split at h <;> cases h
  · split at h
    · rfl
    · split at h <;> cases h

/-- What a buffer takes it takes under a higher limit as well. -/
theorem step_underLimit_of_take {next : Buffer} {message : Option Message} (higher : b.limit ≤ limit)
    (h : b.step = .take next message) :
    (b.underLimit limit).step = .take (next.underLimit limit) message := by
  unfold step at h ⊢
  dsimp only [underLimit]
  split at h
  · split at h
    · cases h
    · cases h
    · split at h
      · cases h
      · next read =>
        cases h
        rw [readHeader_underLimit higher read]
  · split at h
    · cases h
    · split at h
      · next more =>
        cases h
        exact if_pos more
      · next last =>
        cases h
        exact if_neg last

/-- If nothing is beyond the limit, a higher one makes no difference. -/
theorem drain_underLimit (higher : b.limit ≤ limit) (sound : (drain b).flaw = none) :
    (drain (b.underLimit limit)).rest = (drain b).rest.underLimit limit := by
  induction b using drain.induct with
  | case1 b wait => rw [drain_of_wait wait, drain_of_wait (step_underLimit_of_wait limit wait)]
  | case2 b flaw refuse => simp [drain_of_refuse refuse] at sound
  | case3 b next message take ih =>
    rw [drain_of_take take] at sound ⊢
    rw [drain_of_take (step_underLimit_of_take higher take)]
    exact ih ((taken_of_step take).limit_eq ▸ higher) sound

/-! ## Accepted streams -/

/-- The buffer comes about from a fresh one by pushes that succeed, and by clearing; with the bytes that
were pushed since it was cleared last. -/
inductive Accepts (limit : Nat) : Bytes → Buffer → Prop
  | fresh : Accepts limit [] { limit }
  | push {stream chunk : Bytes} {b next : Buffer} {messages : List Message}
      (accepts : Accepts limit stream b) (ok : b.push chunk = (.ok messages, next)) :
      Accepts limit (stream ++ chunk) next
  | clear {stream : Bytes} {b : Buffer} (accepts : Accepts limit stream b) : Accepts limit [] b.clear

theorem Deliverable.whole {messages : List Message} (delivered : Deliverable limit messages)
    (spelled : limit < UInt32.size) : Whole (layouts messages) := by
  refine ⟨messages, fun m mem => ⟨(delivered m mem).1, fun frame hf => ?_⟩, rfl⟩
  exact Nat.lt_of_le_of_lt ((delivered m mem).2 frame hf) spelled

@[simp] theorem isEmpty_more_nil (b : Buffer) : (b.more []).isEmpty = b.isEmpty := by
  simp [isEmpty, more, Backlog.ofBytes]

@[simp] theorem unfinished_more_nil (b : Buffer) : (b.more []).unfinished = b.unfinished := by
  simp [unfinished, more]

/-- A buffer that awaits nothing holds no part of a message. -/
theorem Awaits.unfinished_eq (h : b.Awaits [] []) : b.unfinished = [] := by
  cases h with
  | nothing closed empty bytes => exact unfinished_eq_nil.mpr ⟨size_eq_zero bytes, closed, empty⟩

namespace Accepts

theorem fed (accepts : Accepts limit stream b) : Fed limit stream b := by
  induction accepts with
  | fresh => exact .fresh
  | @push _ chunk _ _ _ accepts ok ih => simpa only [ok] using ih.push chunk
  | clear accepts ih => exact ih.clear

theorem waits (accepts : Accepts limit stream b) : b.step = .wait := by
  cases accepts with
  | fresh => rfl
  | push accepts ok =>
    have drained := drain_of_push_ok ok
    simpa [drained] using step_rest (congrArg Drained.flaw drained)
  | clear accepts => rfl

/-- The buffer is as if it had got the whole stream at once. -/
theorem drain_eq (accepts : Accepts limit stream b) :
    let whole := drain { limit, pending := .ofBytes stream }
    whole.flaw = none ∧ whole.rest = b.more [] := by
  obtain ⟨flaw, rest⟩ := accepts.fed.drain_more []
  rw [drain_of_wait ((step_more_nil b).trans accepts.waits), List.append_nil] at flaw rest
  exact ⟨flaw.symm, rest.symm⟩

theorem limit_eq (accepts : Accepts limit stream b) : b.limit = limit :=
  accepts.fed.limit_eq

theorem within (accepts : Accepts limit stream b) : b.Within := by
  obtain ⟨-, rest⟩ := accepts.drain_eq
  obtain ⟨within, -⟩ := drain_within (b := { limit, pending := .ofBytes stream }) ⟨nofun, nofun⟩
  rw [rest] at within
  exact ⟨within.held, within.opened⟩

/-- What the buffer holds is what is left behind the messages. -/
theorem stream_eq (accepts : Accepts limit stream b) :
    ∃ messages, Deliverable limit messages ∧ stream = layouts messages ++ b.unfinished := by
  let whole : Buffer := { limit, pending := .ofBytes stream }
  obtain ⟨-, rest⟩ := accepts.drain_eq
  obtain ⟨-, delivered⟩ := drain_within (b := whole) ⟨nofun, nofun⟩
  refine ⟨(drain whole).messages, delivered, ?_⟩
  rw [← unfinished_more_nil, ← rest]
  exact drain_unfinished whole

/-- Nothing is left of a stream that ends with a message. -/
theorem whole_iff (spelled : limit < UInt32.size) (accepts : Accepts limit stream b) :
    Whole stream ↔ b.unfinished = [] := by
  constructor
  · rintro ⟨messages, ok, rfl⟩
    -- The frames are within the limit because none was refused. The highest limit shows it.
    have admissible : Admissible (UInt32.size - 1) messages := by
      refine ⟨by decide, fun m mem => (ok m mem).1, fun m mem frame hf => ?_⟩
      exact Nat.le_pred_of_lt ((ok m mem).2 frame hf)
    obtain ⟨sound, rest⟩ := accepts.drain_eq
    obtain ⟨-, -, -, spent⟩ := drain_layouts admissible
    have higher := drain_underLimit (Nat.le_pred_of_lt spelled) sound
    rw [rest] at higher
    exact (unfinished_more_nil b).symm.trans (higher ▸ spent).unfinished_eq
  · intro nothing
    obtain ⟨messages, delivered, split⟩ := accepts.stream_eq
    rw [split, nothing, List.append_nil]
    exact delivered.whole spelled

/-- What comes first in an accepted stream is accepted. -/
theorem front {front later : Bytes} (accepts : Accepts limit (front ++ later) b) :
    let c := (drain { limit, pending := .ofBytes front }).rest
    Accepts limit front c ∧ b.more [] = (drain (c.more later)).rest := by
  let first : Buffer := { limit, pending := .ofBytes front }
  obtain ⟨sound, rest⟩ := accepts.drain_eq
  have front_sound : (drain first).flaw = none := by
    by_contra bad
    have stuck := congrArg Prod.snd (yield_more_of_flaw later bad)
    exact bad (stuck.symm.trans sound)
  have ok : Buffer.push { limit } front = (.ok (drain first).messages, (drain first).rest) := by
    have added : (Backlog.ofBytes []).add front = .ofBytes front := rfl
    simp only [Buffer.push, added]
    rw [front_sound]
  exact ⟨.push .fresh ok, rest.symm.trans (drain_more first later).2⟩

end Accepts

theorem isEmpty_eq_true : b.isEmpty = true ↔ b.length = 0 ∧ b.held = [] := by
  simp [isEmpty, length]

/-- A header leaves the buffer empty as long as nothing of its frame has come. -/
theorem isEmpty_of_header {more : Bool} {size : Nat} (spelled : b.limit < UInt32.size)
    (left : b.unfinished = []) (some : 0 < size) (fits : size ≤ b.limit) :
    (drain (b.more (frameHeader more size))).rest.isEmpty = true := by
  obtain ⟨length, closed, empty⟩ := unfinished_eq_nil.mp left
  have bytes : (b.more (frameHeader more size)).pending.toBytes =
      (if more then 1 else 0) :: (Bytes.ofNat 4 size ++ []) := by
    simp [Buffer.more, toBytes_eq_nil.mpr length, frameHeader]
  have step := step_of_header (b := b.more _) closed (Bytes.length_ofNat ..) bytes
  rw [more_limit, readHeader_ofNat more spelled fits] at step
  rw [drain_of_take step, drain_of_wait (step_of_short_frame rfl some)]
  exact isEmpty_eq_true.mpr ⟨rfl, empty⟩

/-- When a buffer that has accepted a stream is empty: if the stream ends with a message, and also if it
ends with the header of a frame that is not empty and would begin a message. The header that a buffer
has opened tells these apart. -/
theorem Accepts.isEmpty_iff {limit : UInt32} (accepts : Accepts limit.toNat stream b) :
    (b.isEmpty = true ↔ Whole stream ∨ ∃ front more size,
        stream = front ++ frameHeader more size ∧ Whole front ∧ 0 < size ∧ size ≤ limit.toNat) ∧
      (b.isEmpty = true ∧ b.opened = none ↔ Whole stream) := by
  have spelled : limit.toNat < UInt32.size := limit.toNat_lt
  have whole_iff := accepts.whole_iff spelled
  constructor
  · constructor
    · intro empty
      obtain ⟨length, held⟩ := isEmpty_eq_true.mp empty
      cases opened : b.opened with
      | none => exact .inl (whole_iff.mpr (unfinished_eq_nil.mpr ⟨length, opened, held⟩))
      | some header =>
        obtain ⟨more, size⟩ := header
        obtain ⟨messages, delivered, split⟩ := accepts.stream_eq
        refine .inr ⟨layouts messages, more, size, ?_, delivered.whole spelled, ?_, ?_⟩
        · simpa [unfinished, opened, held, toBytes_eq_nil.mpr length, layoutOpen] using split
        · refine Nat.pos_of_ne_zero fun zero => ?_
          have waits := accepts.waits
          cases more <;> simp [step, opened, zero, Backlog.take?_eq] at waits
        · exact accepts.limit_eq ▸ accepts.within.opened _ opened
    · rintro (whole | ⟨front, more, size, rfl, whole, some, fits⟩)
      · obtain ⟨length, -, held⟩ := unfinished_eq_nil.mp (whole_iff.mp whole)
        exact isEmpty_eq_true.mpr ⟨length, held⟩
      · obtain ⟨accepted, rest⟩ := accepts.front
        have left := (accepted.whole_iff spelled).mp whole
        rw [← isEmpty_more_nil, rest]
        rw [← accepted.limit_eq] at spelled fits
        exact isEmpty_of_header spelled left some fits
  · rw [whole_iff, unfinished_eq_nil, isEmpty_eq_true]
    grind

/-- A message and the beginning of the next header. -/
theorem Accepts.isEmpty_iff_short_header :
    let stream : Bytes := [0, 0, 0, 0, 1, 7, 0]
    ∃ b, Accepts (4 : UInt32).toNat stream b ∧ b.isEmpty = false ∧ ¬ Whole stream := by
  intro stream
  have ok : Buffer.push { limit := (4 : UInt32).toNat } stream =
      (.ok [[[7]]], { limit := 4, pending := .ofBytes [0] }) := by
    unfold stream
    cbv
  have accepts : Accepts (4 : UInt32).toNat stream { limit := 4, pending := .ofBytes [0] } :=
    .push .fresh ok
  refine ⟨_, accepts, rfl, fun whole => ?_⟩
  obtain ⟨empty, -⟩ := accepts.isEmpty_iff.2.mpr whole
  cases empty

/-- A buffer says that it is empty although the header of a frame has come and the frame has not. -/
theorem isEmpty_behind_header :
    let stream : Bytes := [0, 0, 0, 0, 5]
    ∃ b, Accepts defaultFrameLimit stream b ∧ b.isEmpty = true ∧ ¬ Whole stream := by
  intro stream
  have ok : Buffer.push { limit := defaultFrameLimit } stream =
      (.ok [], { limit := defaultFrameLimit, opened := some (false, 5) }) := by
    unfold stream
    cbv
  have accepts : Accepts defaultFrameLimit stream
      { limit := defaultFrameLimit, opened := some (false, 5) } := .push .fresh ok
  refine ⟨_, accepts, rfl, fun whole => ?_⟩
  obtain ⟨-, closed, -⟩ := unfinished_eq_nil.mp ((accepts.whole_iff (by decide)).mp whole)
  cases closed

end Buffer

end Switchboard.Wire
