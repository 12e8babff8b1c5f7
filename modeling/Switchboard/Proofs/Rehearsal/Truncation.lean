import Switchboard.Proofs.Rehearsal.Reception

/-!
# Receiving from a stream that is cut short

A peer lays messages out on a stream and closes it, perhaps in the middle of one. `Brings` says what a
line is going to bring from there on: messages that are ready, those whose bytes are on their way, and
then no more. A look at the line keeps to that (`Brings.look`), so a receive brings the next message or,
once no message is left that came whole, finds the line closed (`Brings.receive`). A line found closed
stays so, and the receives that are made one after another bring the messages that came whole and nothing
else (`receives_of_prefix`).
-/

namespace Switchboard.Rehearsal

open Wire

/-- The item brings bytes or lets them wait; it neither fails nor ends the stream. -/
def ReadItem.IsDelivery : ReadItem → Prop
  | .bytes _ | .delay _ => True
  | .fail _ | .eof | .stall => False

namespace Line

/-- The results of so many receives, one after another, none of which is given up. -/
def receives : Nat → Line → Nat → List (Wait (Except Fault Message))
  | 0, _, _ => []
  | n + 1, l, now =>
    let (result, next, later) := l.receive {} now
    result :: receives n next later

/-- The line is going to bring these messages as far as they come whole before it closes. `missing` are
the bytes that are never sent: with them all the messages would come. -/
structure Brings (l : Line) (messages : List Message) (missing : Bytes) : Prop where
  closes : ∃ items, l.reads = items ++ [.eof] ∧ ∀ item ∈ items, item.IsDelivery
  /-- Behind the messages that are ready the buffer awaits the others, none of which is there yet. -/
  queue : ∃ awaited, messages = l.ready ++ awaited ∧ Admissible l.buffer.limit awaited ∧
    l.buffer.Awaits (l.stream ++ missing) awaited ∧ Outstanding (l.stream ++ missing) awaited

/-- The line has nothing more to bring. -/
structure IsSpent (l : Line) : Prop where
  idle : l.ready = []
  empty : l.piece = []
  due : l.due = none
  reads : l.reads = [.eof]

theorem IsSpent.look {l : Line} (spent : l.IsSpent) (now : Nat) : l.look now = .fault .closed l := by
  simp [Line.look, spent.idle, spent.empty, spent.due, spent.reads]

/-- A line that was found closed is found closed again. -/
theorem IsSpent.receives {l : Line} (spent : l.IsSpent) (n now : Nat) :
    l.receives n now = List.replicate n (.done (.error .closed)) := by
  induction n with
  | zero => rfl
  | succ n ih =>
    rw [Line.receives, receive_of_fault {} (spent.look now), List.replicate_succ]
    exact congrArg _ ih

/-- A read takes bytes that are no longer ahead then, and makes those messages ready that it completes. -/
theorem Brings.take {l : Line} {messages : List Message} {missing : Bytes}
    (brings : l.Brings messages missing) (idle : l.ready = []) :
    ∃ next, l.take = .more next ∧ next.Brings messages missing := by
  obtain ⟨closes, awaited, queue, ok, awaits, outstanding⟩ := brings
  rw [idle, List.nil_append] at queue
  have ahead : l.stream ++ missing = l.piece.take readBufferSize ++
      (l.piece.drop readBufferSize ++ l.reads.flatMap ReadItem.content ++ missing) := by
    rw [stream, ← List.append_assoc, ← List.append_assoc, List.take_append_drop]
  rw [ahead] at awaits
  obtain ⟨delivered, rest, buffer, pushed, rfl, limit, awaits, outstanding⟩ :=
    Buffer.push_awaits ok awaits
  have looked : l.take = .more
      { l with piece := l.piece.drop readBufferSize, buffer, ready := delivered } := by
    simp [Line.take, pushed]
  exact ⟨_, looked, closes, rest, queue, limit ▸ ok.of_append, awaits, outstanding⟩

/-- The line brings the same if the buffer and what is ready are the same, and no byte that is on its way
is lost. -/
theorem Brings.move {l next : Line} {messages : List Message} {missing : Bytes}
    (brings : l.Brings messages missing) (ready : next.ready = l.ready)
    (buffer : next.buffer = l.buffer) (stream : next.stream = l.stream)
    (closes : ∃ items, next.reads = items ++ [.eof] ∧ ∀ item ∈ items, item.IsDelivery) :
    next.Brings messages missing :=
  ⟨closes, by rw [ready, buffer, stream]; exact brings.queue⟩

/-- What a look at the line comes to: more to look for, at once or after a delay, the next message, or
the end. -/
theorem Brings.look {l : Line} {messages : List Message} {missing : Bytes}
    (brings : l.Brings messages missing) (now : Nat) :
    (∃ next, l.look now = .more next ∧ next.Brings messages missing) ∨
    (∃ due next, l.look now = .delayed due next ∧ next.Brings messages missing) ∨
    (∃ m rest next, messages = m :: rest ∧ l.look now = .got m next ∧ next.Brings rest missing) ∨
    l.IsSpent := by
  obtain ⟨items, script, deliveries⟩ := brings.closes
  cases idle : l.ready with
  | cons m ready =>
    obtain ⟨awaited, queue, awaits⟩ := brings.queue
    rw [idle, List.cons_append] at queue
    exact .inr (.inr (.inl ⟨m, _, { l with ready }, queue, by simp [Line.look, idle],
      ⟨brings.closes, awaited, rfl, awaits⟩⟩))
  | nil =>
    by_cases empty : l.piece = []
    case neg =>
      obtain ⟨next, taken, brings⟩ := brings.take idle
      exact .inl ⟨next, by simp [Line.look, idle, empty, taken], brings⟩
    cases due : l.due with
    | some due' =>
      exact .inr (.inl ⟨due', { l with due := none }, by simp [Line.look, idle, empty, due],
        brings.move rfl rfl rfl brings.closes⟩)
    | none =>
      cases items with
      | nil => exact .inr (.inr (.inr ⟨idle, empty, due, script⟩))
      | cons item items =>
        have rest : ∀ item ∈ items, item.IsDelivery := fun item mem =>
          deliveries item (List.mem_cons_of_mem _ mem)
        cases item with
        | bytes b =>
          refine .inl ⟨{ l with reads := items ++ [.eof], piece := b },
            by simp [Line.look, idle, empty, due, script], brings.move rfl rfl ?_ ⟨items, rfl, rest⟩⟩
          simp [stream, empty, script, ReadItem.content]
        | delay ms =>
          refine .inl ⟨{ l with reads := items ++ [.eof], due := some (now + ms) },
            by simp [Line.look, idle, empty, due, script], brings.move rfl rfl ?_ ⟨items, rfl, rest⟩⟩
          simp [stream, script, ReadItem.content]
        | fail text | eof | stall => exact absurd (deliveries _ (List.mem_cons_self ..)) id

/-- A receive that is not given up waits for a delay to be over. -/
theorem receive_of_delayed {l next : Line} {now due : Nat} (h : l.look now = .delayed due next) :
    l.receive {} now = next.receive {} (max now due) := by
  have waited : ({} : Patience).await now (some due) = (.done (), max now due) := rfl
  rw [receive]
  split <;> simp_all

/-- A receive brings the next message, or finds the line closed. -/
theorem Brings.receive {l : Line} {messages : List Message} {missing : Bytes}
    (brings : l.Brings messages missing) (now : Nat) :
    (∃ m rest next later, messages = m :: rest ∧ l.receive {} now = (.done (.ok m), next, later) ∧
      next.Brings rest missing) ∨
    ∃ next later, l.receive {} now = (.done (.error .closed), next, later) ∧
      next.Brings messages missing ∧ next.IsSpent := by
  -- each look but the last lowers the measure of the line, whether or not it has to wait
  induction size : l.measure using Nat.strongRecOn generalizing l now with
  | ind size ih =>
  subst size
  obtain ⟨next, looked, brings⟩ | ⟨due, next, looked, brings⟩ | ⟨m, rest, next, rfl, looked, brings⟩ |
    spent := brings.look now
  · rw [receive_of_more {} looked]
    exact ih _ (measure_more looked) brings now rfl
  · rw [receive_of_delayed looked]
    exact ih _ (measure_delayed looked) brings _ rfl
  · exact .inl ⟨m, rest, next, now, rfl, receive_of_got {} looked, brings⟩
  · exact .inr ⟨l, now, receive_of_fault {} (spent.look now), brings, spent⟩

/-- None of the messages that are left when the line is found closed has come whole. -/
theorem Brings.outstanding {l : Line} {messages : List Message} {missing : Bytes}
    (brings : l.Brings messages missing) (spent : l.IsSpent) :
    Outstanding missing messages ∧ missing.length ≤ (layouts messages).length := by
  obtain ⟨awaited, queue, -, awaits, outstanding⟩ := brings.queue
  have emptied : l.stream = [] := by simp [stream, spent.empty, spent.reads, ReadItem.content]
  rw [emptied, List.nil_append] at awaits outstanding
  rw [spent.idle, List.nil_append] at queue
  subst queue
  exact ⟨outstanding, awaits.length_ahead_le⟩

/-- The receives bring some of the messages, in order, and find the line closed from then on. None of the
others has come whole. -/
theorem Brings.receives {l : Line} {messages : List Message} {missing : Bytes}
    (brings : l.Brings messages missing) (now : Nat) :
    ∃ delivered rest, messages = delivered ++ rest ∧ Outstanding missing rest ∧
      missing.length ≤ (layouts rest).length ∧
      ∀ n, l.receives n now = List.take n
        (delivered.map (fun m => .done (.ok m)) ++ List.replicate n (.done (.error .closed))) := by
  induction size : messages.length using Nat.strongRecOn generalizing l messages now with
  | ind size ih =>
  subst size
  obtain ⟨m, rest, next, later, rfl, received, brings⟩ | ⟨next, later, closed, brings, spent⟩ :=
    brings.receive now
  · obtain ⟨delivered, rest, rfl, outstanding, reached, receives⟩ :=
      ih _ (Nat.lt_succ_self _) brings later rfl
    refine ⟨m :: delivered, rest, rfl, outstanding, reached, fun n => ?_⟩
    cases n with
    | zero => rfl
    | succ n =>
      rw [Line.receives, received]
      simp only [receives, List.map_cons, List.cons_append, List.take_succ_cons]
      congr 1
      rw [List.replicate_succ', ← List.append_assoc]
      exact (List.take_append_of_le_length (by simp)).symm
  · obtain ⟨outstanding, reached⟩ := brings.outstanding spent
    refine ⟨[], messages, rfl, outstanding, reached, fun n => ?_⟩
    cases n with
    | zero => rfl
    | succ n => simp [Line.receives, closed, spent.receives, List.replicate_succ]

/-- A peer lays messages out on a stream, one after another, and closes it at any point. The bytes that it
has sent by then come in any pieces, with any delays between. Receives that are made one after another
bring the messages that have come whole, each once and in order, and every later one finds the line
closed. -/
theorem receives_of_prefix (limit : UInt32) (number now : Nat) (writes : List WriteRule)
    {messages : List Message} (filled : ∀ m ∈ messages, m ≠ [])
    (fits : ∀ m ∈ messages, ∀ frame ∈ m, frame.length ≤ limit.toNat)
    {items : List ReadItem} (deliveries : ∀ item ∈ items, item.IsDelivery)
    (sent : items.flatMap ReadItem.content <+: layouts messages) :
    let line := Script.line { reads := items ++ [.eof], writes } number limit.toNat
    ∃ whole ≤ messages.length,
      (∀ i < messages.length, i < whole ↔
        (layouts (messages.take (i + 1))).length ≤ (items.flatMap ReadItem.content).length) ∧
      ∀ n, line.receives n now = List.take n
        ((messages.take whole).map (fun m => .done (.ok m)) ++
          List.replicate n (.done (.error .closed))) := by
  intro line
  obtain ⟨missing, split⟩ := sent
  have ahead : line.stream ++ missing = layouts messages := by
    rw [← split]
    simp [stream, line, Script.line, ReadItem.content]
  have brings : line.Brings messages missing := {
    closes := ⟨items, rfl, deliveries⟩
    queue := by
      refine ⟨messages, rfl, ⟨limit.toNat_lt_size, filled, fits⟩, ?_, ?_⟩
      · exact Buffer.awaits_of_layouts rfl rfl filled ahead
      · rw [ahead]
        exact outstanding_layouts filled }
  obtain ⟨delivered, rest, rfl, outstanding, reached, receives⟩ := brings.receives now
  have timely : Timely (delivered ++ rest) (delivered ++ []) missing :=
    outstanding.timely.append reached
  obtain ⟨whole, bound, first, exactly⟩ := timely
  rw [List.append_nil] at first
  refine ⟨whole, bound, fun i hi => (exactly i hi).trans ?_, first ▸ receives⟩
  -- Both sides count the same stream, once from the front and once from the end.
  have stream := congrArg List.length split
  rw [← List.take_append_drop (i + 1) (delivered ++ rest), layouts_append, List.length_append,
    List.length_append] at stream
  omega

/-- A message and a half, in three pieces with a delay, the last of which ends behind a header. The
receives after the first find the line closed. -/
theorem receives_of_message_and_half :
    let messages : List Message := [[[7, 8], []], [[9]]]
    let items : List ReadItem :=
      [.bytes [1, 0, 0], .bytes [0, 2, 7, 8], .delay 40, .bytes [0, 0, 0, 0, 0, 0, 0, 0, 0, 1]]
    (∀ m ∈ messages, m ≠ []) ∧ (∀ m ∈ messages, ∀ frame ∈ m, frame.length ≤ (2 : UInt32).toNat) ∧
      (∀ item ∈ items, item.IsDelivery) ∧ items.flatMap ReadItem.content <+: layouts messages ∧
      (Script.line { reads := items ++ [.eof] } 0 (2 : UInt32).toNat).receives 3 0 =
        [.done (.ok [[7, 8], []]), .done (.error .closed), .done (.error .closed)] := by
  intro messages items
  have filled : ∀ m ∈ messages, m ≠ [] := by decide
  have fits : ∀ m ∈ messages, ∀ frame ∈ m, frame.length ≤ (2 : UInt32).toNat := by decide
  have deliveries : ∀ item ∈ items, item.IsDelivery := by
    simp [items, ReadItem.IsDelivery]
  have sent : items.flatMap ReadItem.content <+: layouts messages := ⟨[9], by decide⟩
  obtain ⟨whole, bound, exactly, receives⟩ :=
    receives_of_prefix 2 0 0 [] filled fits deliveries sent
  have first : 0 < whole := (exactly 0 (by decide)).mpr (by decide)
  have second : ¬ 1 < whole := fun h => absurd ((exactly 1 (by decide)).mp h) (by decide)
  obtain rfl : whole = 1 := by omega
  exact ⟨filled, fits, deliveries, sent, receives 3⟩

end Line

end Switchboard.Rehearsal
