import Switchboard.Proofs.Wire.Conservation
import Switchboard.Rehearsal.Line

/-!
# What receiving takes off a line

A line reads bytes, cuts messages out of them and hands the messages out in order. `Account` keeps the
books of this: what was read is either received, or ready to be received, or in the buffer. A receive
that brings a message, and every send, leaves the books in order (`account_receive`, `account_send`).
-/

namespace Switchboard.Rehearsal

open Wire

/-- The bytes that an item of a script gives to read. -/
def ReadItem.content : ReadItem → Bytes
  | .bytes b => b
  | .delay _ | .fail _ | .eof | .stall => []

namespace Line

/-- The bytes that no read has brought yet. -/
def stream (l : Line) : Bytes :=
  l.piece ++ l.reads.flatMap ReadItem.content

/-- Nothing that was read is left: no message is ready, and the buffer holds no bytes and no part of a
message. -/
def IsClear (l : Line) : Prop :=
  l.ready = [] ∧ l.buffer.length = 0 ∧ l.buffer.opened = none ∧ l.buffer.held = []

instance (l : Line) : Decidable l.IsClear :=
  inferInstanceAs (Decidable (_ ∧ _ ∧ _ ∧ _))

/-- What becomes of a line on which some messages are received while some bytes are read. -/
structure Account (before : Line) (read : Bytes) (delivered received : List Message)
    (after : Line) : Prop where
  /-- What is read is no longer ahead. -/
  stream : before.stream = read ++ after.stream
  /-- The messages that are delivered were cut off what was in the buffer and what is read. -/
  cut : before.buffer.unfinished ++ read = layouts delivered ++ after.buffer.unfinished
  /-- They queue up behind those that were ready, and are received from the front. -/
  queue : before.ready ++ delivered = received ++ after.ready

theorem Account.refl (l : Line) : Account l [] [] [] l :=
  ⟨rfl, List.append_nil _, List.append_nil _⟩

theorem Account.trans {l₁ l₂ l₃ : Line} {read read' : Bytes}
    {delivered delivered' received received' : List Message}
    (first : Account l₁ read delivered received l₂)
    (next : Account l₂ read' delivered' received' l₃) :
    Account l₁ (read ++ read') (delivered ++ delivered') (received ++ received') l₃ where
  stream := by rw [first.stream, next.stream, List.append_assoc]
  cut := by
    rw [← List.append_assoc, first.cut, List.append_assoc, next.cut, layouts_append,
      List.append_assoc]
  queue := by
    rw [← List.append_assoc, first.queue, List.append_assoc, next.queue, List.append_assoc]

theorem isClear_iff {l : Line} : l.IsClear ↔ l.ready = [] ∧ l.buffer.unfinished = [] := by
  rw [IsClear, Buffer.unfinished_eq_nil]

/-- Nothing is left just if all that was there or was delivered is received, and what is read ends with
the last message delivered. -/
theorem Account.isClear_iff {before after : Line} {read : Bytes}
    {delivered received : List Message} (account : Account before read delivered received after) :
    after.IsClear ↔
      before.ready ++ delivered = received ∧ before.buffer.unfinished ++ read = layouts delivered := by
  rw [Line.isClear_iff, account.queue, account.cut, List.append_right_eq_self,
    List.append_right_eq_self]

/-- If nothing was left at first, all that is received comes with what is read. -/
theorem Account.received_of_isClear {before after : Line} {read : Bytes}
    {delivered received : List Message} (account : Account before read delivered received after)
    (clear : before.IsClear) :
    read = layouts received ++ (layouts after.ready ++ after.buffer.unfinished) := by
  obtain ⟨ready, unfinished⟩ := Line.isClear_iff.mp clear
  have queue := account.queue
  have cut := account.cut
  rw [ready, List.nil_append] at queue
  rw [unfinished, List.nil_append, queue, layouts_append, List.append_assoc] at cut
  exact cut

theorem account_take {l next : Line} (h : l.take = .more next) (idle : l.ready = []) :
    ∃ read delivered, Account l read delivered [] next := by
  rcases pushed : l.buffer.push (l.piece.take readBufferSize) with ⟨result, buffer⟩
  cases result with
  | error flaw => simp [take, pushed] at h
  | ok messages =>
    simp only [take, pushed, Look.more.injEq] at h
    subst h
    refine ⟨l.piece.take readBufferSize, messages, ⟨?_, Buffer.push_unfinished pushed, ?_⟩⟩
    · rw [stream, stream, ← List.append_assoc, List.take_append_drop]
    · rw [idle]

theorem account_more {l next : Line} {now : Nat} (h : l.look now = .more next) :
    ∃ read delivered, Account l read delivered [] next := by
  unfold look at h
  split at h
  · cases h
  · next idle =>
    split at h
    · exact account_take h idle
    · next empty =>
      have empty : l.piece = [] := by simpa using empty
      split at h <;> cases h
      all_goals
        next found =>
        refine ⟨[], [], ⟨?_, List.append_nil _, List.append_nil _⟩⟩
        simp [stream, empty, found, ReadItem.content]

theorem account_delayed {l next : Line} {now due : Nat} (h : l.look now = .delayed due next) :
    Account l [] [] [] next := by
  unfold look at h
  split at h
  · cases h
  · split at h
    · unfold take at h
      dsimp only at h
      split at h <;> cases h
    · split at h <;> cases h
      exact ⟨rfl, List.append_nil _, List.append_nil _⟩

theorem account_got {l next : Line} {now : Nat} {m : Message} (h : l.look now = .got m next) :
    Account l [] [] [m] next := by
  unfold look at h
  split at h
  · next found =>
    cases h
    exact ⟨rfl, List.append_nil _, by simp [found]⟩
  · split at h
    · unfold take at h
      dsimp only at h
      split at h <;> cases h
    · split at h <;> cases h

/-- A message that is received is the first one ready, after as many reads as it takes. -/
theorem account_receive {p : Patience} {l next : Line} {now later : Nat} {m : Message}
    (h : l.receive p now = (.done (.ok m), next, later)) :
    ∃ read delivered, Account l read delivered [m] next := by
  fun_induction l.receive p now with
  | case1 l now next' looked ih =>
    obtain ⟨read, delivered, first⟩ := account_more looked
    obtain ⟨read', delivered', rest⟩ := ih h
    exact ⟨_, _, first.trans rest⟩
  | case2 l now due next' looked now' waited ih =>
    obtain ⟨read, delivered, rest⟩ := ih h
    exact ⟨_, _, (account_delayed looked).trans rest⟩
  | case7 l now message next' looked =>
    cases h
    exact ⟨_, _, account_got looked⟩
  | _ => cases h

theorem receive_of_got (p : Patience) {l next : Line} {now : Nat} {m : Message}
    (h : l.look now = .got m next) : l.receive p now = (.done (.ok m), next, now) := by
  rw [receive]
  split <;> simp_all

/-- A message that is ready is received at once. -/
theorem receive_of_ready (p : Patience) {l : Line} (now : Nat) {m : Message} {rest : List Message}
    (ready : l.ready = m :: rest) :
    l.receive p now = (.done (.ok m), { l with ready := rest }, now) :=
  receive_of_got p (by rw [look, ready])

theorem send_line (p : Patience) (l : Line) (m : Message) (now : Nat) :
    ∃ writes, (l.send p m now).line = { l with writes } := by
  unfold send
  rcases (l.writes.headD .ok).apply m.layout with ⟨written, taken, used⟩
  have kept : ∃ writes, (if used then { l with writes := l.writes.tail } else l) =
      { l with writes } := by
    cases used with
    | false => exact ⟨l.writes, rfl⟩
    | true => exact ⟨l.writes.tail, rfl⟩
  cases written with
  | done | fault f => exact kept
  | stuck =>
    dsimp only
    split <;> exact kept

/-- Sending reads nothing. -/
theorem account_send (p : Patience) (l : Line) (m : Message) (now : Nat) :
    Account l [] [] [] (l.send p m now).line := by
  obtain ⟨writes, same⟩ := send_line p l m now
  rw [same]
  exact ⟨rfl, List.append_nil _, List.append_nil _⟩

end Line

end Switchboard.Rehearsal
