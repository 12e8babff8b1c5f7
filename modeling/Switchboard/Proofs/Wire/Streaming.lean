import Switchboard.Wire.Stream

/-!
# Messages arrive whole

Messages that were laid out one after another come out of a buffer again, however the stream was cut
into chunks. `Awaits` says which messages a buffer is going to deliver once the bytes that are still
ahead have been pushed; every step of the buffer keeps it (`step_awaits`), and a buffer that has been
drained has delivered every message whose last byte was pushed (`drain_awaits`).
-/

namespace Switchboard.Wire

/-- The bytes of messages that follow one another on a stream. -/
def layouts (messages : List Message) : Bytes :=
  messages.flatMap Message.layout

@[simp] theorem layouts_nil : layouts [] = [] := rfl

@[simp] theorem layouts_cons (m : Message) (rest : List Message) :
    layouts (m :: rest) = m.layout ++ layouts rest := rfl

@[simp] theorem layouts_append (a b : List Message) : layouts (a ++ b) = layouts a ++ layouts b :=
  List.flatMap_append

theorem layout_cons (frame : Bytes) (frames : List Bytes) :
    Message.layout (frame :: frames) =
      frameHeader (!frames.isEmpty) frame.length ++ frame ++ Message.layout frames := by
  cases frames <;> simp [Message.layout]

@[simp] theorem length_frameHeader (more : Bool) (size : Nat) :
    (frameHeader more size).length = Buffer.headerSize := by
  simp [frameHeader, Buffer.headerSize]

/-- The later frames of a message are a part of it. -/
theorem length_layout_le (held frames : List Bytes) :
    (Message.layout frames).length ≤ (Message.layout (held ++ frames)).length := by
  induction held with
  | nil => exact Nat.le_refl _
  | cons frame held ih =>
    simp only [List.cons_append, layout_cons, List.length_append]
    omega

theorem layout_ne_nil {m : Message} (h : m ≠ []) : m.layout ≠ [] := by
  obtain ⟨frame, frames, rfl⟩ := List.exists_cons_of_ne_nil h
  simp [layout_cons, frameHeader]

/-- None of the messages has its last byte among the bytes that have left for the receiver: the bytes
ahead reach back into every one of them. -/
def Outstanding (ahead : Bytes) (messages : List Message) : Prop :=
  ∀ i < messages.length, (layouts (messages.drop (i + 1))).length < ahead.length

theorem outstanding_cons {ahead : Bytes} {m : Message} {rest : List Message}
    (h : (layouts rest).length < ahead.length) : Outstanding ahead (m :: rest) := by
  intro i _
  have split := congrArg layouts (List.take_append_drop i rest)
  have lengths := congrArg List.length split
  simp only [layouts_append, List.length_append, List.drop_succ_cons] at lengths ⊢
  omega

theorem outstanding_layouts {messages : List Message} (filled : ∀ m ∈ messages, m ≠ []) :
    Outstanding (layouts messages) messages := by
  cases messages with
  | nil => exact fun i hi => absurd hi (Nat.not_lt_zero i)
  | cons m rest =>
    have := List.length_pos_iff.mpr (layout_ne_nil (filled m (.head _)))
    exact outstanding_cons (by rw [layouts_cons, List.length_append]; omega)

/-- Messages that a buffer with some limit takes, on a stream of four-byte lengths. -/
structure Admissible (limit : Nat) (messages : List Message) : Prop where
  spelled : limit < UInt32.size
  filled : ∀ m ∈ messages, m ≠ []
  fits : ∀ m ∈ messages, ∀ frame ∈ m, frame.length ≤ limit

theorem Admissible.tail {limit : Nat} {m : Message} {rest : List Message}
    (h : Admissible limit (m :: rest)) : Admissible limit rest :=
  ⟨h.spelled, fun m hm => h.filled m (.tail _ hm), fun m hm => h.fits m (.tail _ hm)⟩

theorem Admissible.of_append {limit : Nat} {a b : List Message} (h : Admissible limit (a ++ b)) :
    Admissible limit b :=
  ⟨h.spelled, fun m hm => h.filled m (List.mem_append_right a hm),
    fun m hm => h.fits m (List.mem_append_right a hm)⟩

namespace Buffer

theorem readHeader_ofNat {limit size : Nat} (more : Bool) (spelled : limit < UInt32.size)
    (fits : size ≤ limit) :
    readHeader limit (if more then 1 else 0) (Bytes.ofNat 4 size) = .ok (more, size) := by
  have width : Bytes.capacity 4 = UInt32.size := by decide
  have value : (Bytes.ofNat 4 size).toNat = size := by
    rw [Bytes.toNat_ofNat, width, Nat.mod_eq_of_lt (by omega)]
  have small : ¬ limit < size := by omega
  cases more <;> simp [readHeader, value, small]

/-- The buffer delivers `messages` when the bytes `ahead` have been pushed. The first of them may have
begun: some of its frames are held, and the header of the next one may have been read. -/
inductive Awaits (b : Buffer) (ahead : Bytes) : List Message → Prop
  | nothing (closed : b.opened = none) (empty : b.held = [])
      (bytes : b.pending.toBytes ++ ahead = []) : Awaits b ahead []
  | header (frame : Bytes) (frames : List Bytes) (rest : List Message) (closed : b.opened = none)
      (bytes : b.pending.toBytes ++ ahead = Message.layout (frame :: frames) ++ layouts rest) :
      Awaits b ahead ((b.held.reverse ++ frame :: frames) :: rest)
  | body (frame : Bytes) (frames : List Bytes) (rest : List Message)
      (opened : b.opened = some (!frames.isEmpty, frame.length))
      (bytes : b.pending.toBytes ++ ahead = frame ++ Message.layout frames ++ layouts rest) :
      Awaits b ahead ((b.held.reverse ++ frame :: frames) :: rest)

/-- Between two messages a buffer awaits whatever the stream goes on with. -/
theorem awaits_of_layouts {b : Buffer} {ahead : Bytes} {messages : List Message}
    (closed : b.opened = none) (empty : b.held = []) (filled : ∀ m ∈ messages, m ≠ [])
    (bytes : b.pending.toBytes ++ ahead = layouts messages) : b.Awaits ahead messages := by
  cases messages with
  | nil => exact .nothing closed empty bytes
  | cons m rest =>
    obtain ⟨frame, frames, rfl⟩ := List.exists_cons_of_ne_nil (filled m (.head _))
    simpa [empty] using Awaits.header frame frames rest closed bytes

theorem size_eq_zero {b : Buffer} {ahead : Bytes} (bytes : b.pending.toBytes ++ ahead = []) :
    b.pending.size = 0 := by
  rw [← Backlog.length_toBytes, (List.append_eq_nil_iff.mp bytes).1, List.length_nil]

/-- A buffer that awaits nothing holds nothing. -/
theorem Awaits.isEmpty {b : Buffer} {ahead : Bytes} (h : b.Awaits ahead []) :
    b.length = 0 ∧ b.isEmpty = true := by
  cases h with
  | nothing closed empty bytes =>
    have size := size_eq_zero bytes
    exact ⟨size, by simp [Buffer.isEmpty, size, empty]⟩

/-- Bytes that are pushed are no longer ahead. -/
theorem Awaits.add {b : Buffer} {chunk ahead : Bytes} {messages : List Message}
    (h : b.Awaits (chunk ++ ahead) messages) :
    ({ b with pending := b.pending.add chunk } : Buffer).Awaits ahead messages := by
  cases h with
  | nothing closed empty bytes => exact .nothing closed empty (by simpa using bytes)
  | header frame frames rest closed bytes =>
    exact .header (b := { b with pending := b.pending.add chunk }) frame frames rest closed
      (by simpa using bytes)
  | body frame frames rest opened bytes =>
    exact .body (b := { b with pending := b.pending.add chunk }) frame frames rest opened
      (by simpa using bytes)

/-- What is ahead belongs to the messages awaited. -/
theorem Awaits.length_ahead_le {b : Buffer} {ahead : Bytes} {messages : List Message}
    (h : b.Awaits ahead messages) : ahead.length ≤ (layouts messages).length := by
  cases h with
  | nothing closed empty bytes => simp [(List.append_eq_nil_iff.mp bytes).2]
  | header frame frames rest closed bytes =>
    have lengths := congrArg List.length bytes
    have part := length_layout_le b.held.reverse (frame :: frames)
    simp only [layouts_cons, List.length_append] at lengths ⊢
    omega
  | body frame frames rest opened bytes =>
    have lengths := congrArg List.length bytes
    have part := length_layout_le b.held.reverse (frame :: frames)
    simp only [layouts_cons, layout_cons, List.length_append] at lengths part ⊢
    omega

/-- At a header a buffer waits for all of it, and then awaits the frame it announces. -/
theorem step_header {b : Buffer} {ahead : Bytes} {frame : Bytes} {frames : List Bytes}
    {rest : List Message} (spelled : b.limit < UInt32.size) (fits : frame.length ≤ b.limit)
    (closed : b.opened = none)
    (bytes : b.pending.toBytes ++ ahead = Message.layout (frame :: frames) ++ layouts rest) :
    (b.step = .wait ∧ b.pending.size < headerSize) ∨
      ∃ pending : Backlog,
        b.step = .take { b with pending, opened := some (!frames.isEmpty, frame.length) } none ∧
          pending.toBytes ++ ahead = frame ++ Message.layout frames ++ layouts rest := by
  cases taken : b.pending.take? headerSize with
  | none => exact .inl ⟨by simp [step, closed, taken], Backlog.take?_eq_none.mp taken⟩
  | some part =>
    obtain ⟨head, pending⟩ := part
    obtain ⟨size, split, _⟩ := Backlog.take?_eq_some taken
    rw [split, layout_cons, List.append_assoc, List.append_assoc, List.append_assoc] at bytes
    obtain ⟨rfl, behind⟩ := List.append_inj bytes (by simp [size])
    refine .inr ⟨pending, ?_, by simpa using behind⟩
    simp only [step, closed, taken, frameHeader, readHeader_ofNat _ spelled fits]

/-- Behind a header a buffer waits for all of the frame, and then closes the message if no more frames
follow. -/
theorem step_body {b : Buffer} {ahead : Bytes} {frame : Bytes} {frames : List Bytes}
    {rest : List Message} (opened : b.opened = some (!frames.isEmpty, frame.length))
    (bytes : b.pending.toBytes ++ ahead = frame ++ Message.layout frames ++ layouts rest) :
    (b.step = .wait ∧ b.pending.size < frame.length) ∨
      ∃ pending : Backlog, pending.toBytes ++ ahead = Message.layout frames ++ layouts rest ∧
        b.step = if frames.isEmpty
          then .take { b with pending, opened := none, held := [] } (some (b.held.reverse ++ [frame]))
          else .take { b with pending, opened := none, held := frame :: b.held } none := by
  cases taken : b.pending.take? frame.length with
  | none => exact .inl ⟨by simp [step, opened, taken], Backlog.take?_eq_none.mp taken⟩
  | some part =>
    obtain ⟨body, pending⟩ := part
    obtain ⟨size, split, _⟩ := Backlog.take?_eq_some taken
    rw [split, List.append_assoc, List.append_assoc] at bytes
    obtain ⟨rfl, behind⟩ := List.append_inj bytes size
    refine .inr ⟨pending, behind, ?_⟩
    cases frames <;> simp [step, opened, taken]

/-- What a step does to a buffer that awaits messages: it waits while the first of them is not all
there, goes on within it, or delivers it. It never refuses. -/
theorem step_awaits {b : Buffer} {ahead : Bytes} {messages : List Message}
    (ok : Admissible b.limit messages) (h : b.Awaits ahead messages) :
    (b.step = .wait ∧ Outstanding ahead messages) ∨
      (∃ next, b.step = .take next none ∧ next.limit = b.limit ∧ next.Awaits ahead messages) ∨
        ∃ next m rest, messages = m :: rest ∧ b.step = .take next (some m) ∧
          next.limit = b.limit ∧ next.Awaits ahead rest := by
  cases h with
  | nothing closed empty bytes =>
    have short : b.pending.take? headerSize = none :=
      Backlog.take?_eq_none.mpr (by simp [size_eq_zero bytes, headerSize])
    exact .inl ⟨by simp [step, closed, short], fun i hi => absurd hi (Nat.not_lt_zero i)⟩
  | header frame frames rest closed bytes =>
    have fits : frame.length ≤ b.limit := ok.fits _ (.head _) frame (by simp)
    have lengths := congrArg List.length bytes
    rcases step_header ok.spelled fits closed bytes with ⟨wait, short⟩ | ⟨pending, step, behind⟩
    · refine .inl ⟨wait, outstanding_cons ?_⟩
      simp only [layout_cons, List.length_append, Backlog.length_toBytes,
        length_frameHeader] at lengths
      omega
    · exact .inr (.inl ⟨_, step, rfl, .body (b := { b with pending, opened := _ }) frame frames rest
        rfl behind⟩)
  | body frame frames rest opened bytes =>
    have lengths := congrArg List.length bytes
    rcases step_body opened bytes with ⟨wait, short⟩ | ⟨pending, behind, step⟩
    · refine .inl ⟨wait, outstanding_cons ?_⟩
      simp only [List.length_append, Backlog.length_toBytes] at lengths
      omega
    · cases frames with
      | nil =>
        refine .inr (.inr ⟨_, _, rest, rfl, step, rfl, ?_⟩)
        exact awaits_of_layouts rfl rfl ok.tail.filled (by simpa [Message.layout] using behind)
      | cons next frames =>
        refine .inr (.inl ⟨_, step, rfl, ?_⟩)
        simpa using Awaits.header (b := { b with pending, opened := none, held := frame :: b.held })
          next frames rest rfl behind

theorem drain_of_wait {b : Buffer} (h : b.step = .wait) : drain b = ⟨[], none, b⟩ := by
  unfold drain
  split <;> simp_all

theorem drain_of_take {b next : Buffer} {message : Option Message}
    (h : b.step = .take next message) :
    drain b = { drain next with messages := message.toList ++ (drain next).messages } := by
  rw [drain]
  split <;> simp_all

/-- A drained buffer has delivered the messages whose last byte was there, and awaits the others. -/
theorem drain_awaits {b : Buffer} {ahead : Bytes} {messages : List Message}
    (ok : Admissible b.limit messages) (h : b.Awaits ahead messages) :
    (drain b).flaw = none ∧ (drain b).rest.limit = b.limit ∧
      ∃ rest, messages = (drain b).messages ++ rest ∧ (drain b).rest.Awaits ahead rest ∧
        Outstanding ahead rest := by
  induction b using drain.induct generalizing messages with
  | case1 b wait =>
    rw [drain_of_wait wait]
    rcases step_awaits ok h with ⟨_, later⟩ | ⟨_, step, _⟩ | ⟨_, _, _, _, step, _⟩
    · exact ⟨rfl, rfl, messages, rfl, h, later⟩
    · rw [wait] at step; cases step
    · rw [wait] at step; cases step
  | case2 b flaw refuse =>
    rcases step_awaits ok h with ⟨step, _⟩ | ⟨_, step, _⟩ | ⟨_, _, _, _, step, _⟩ <;>
      (rw [refuse] at step; cases step)
  | case3 b next message take ih =>
    rw [drain_of_take take]
    rcases step_awaits ok h with ⟨step, _⟩ | ⟨_, step, limit, awaits⟩ |
      ⟨_, m, rest, rfl, step, limit, awaits⟩ <;> (rw [take] at step; cases step)
    · obtain ⟨flaw, same, rest, split, later⟩ := ih (limit ▸ ok) awaits
      exact ⟨flaw, same.trans limit, rest, split, later⟩
    · obtain ⟨flaw, same, rest', split, later⟩ := ih (limit ▸ ok.tail) awaits
      exact ⟨flaw, same.trans limit, rest', congrArg (m :: ·) split, later⟩

/-- Push chunks in order: what each push delivers and the buffer afterwards, or the flaw of the first
push that fails. -/
def pushAll (b : Buffer) : List Bytes → Except Flaw (List (List Message) × Buffer)
  | [] => .ok ([], b)
  | chunk :: chunks =>
    match b.push chunk with
    | (.error flaw, _) => .error flaw
    | (.ok messages, next) =>
      match next.pushAll chunks with
      | .error flaw => .error flaw
      | .ok (later, last) => .ok (messages :: later, last)

/-- One push delivers the messages whose last byte it brings. -/
theorem push_awaits {b : Buffer} {chunk ahead : Bytes} {messages : List Message}
    (ok : Admissible b.limit messages) (h : b.Awaits (chunk ++ ahead) messages) :
    ∃ delivered rest next, b.push chunk = (.ok delivered, next) ∧ messages = delivered ++ rest ∧
      next.limit = b.limit ∧ next.Awaits ahead rest ∧ Outstanding ahead rest := by
  obtain ⟨flaw, limit, rest, split, awaits, later⟩ :=
    drain_awaits (b := { b with pending := b.pending.add chunk }) ok h.add
  exact ⟨_, rest, _, by simp only [push, flaw], split, limit, awaits, later⟩

end Buffer

/-- Of the messages that a stream goes on with, exactly those are delivered whose last byte is not
among the bytes still ahead. -/
def Timely (messages delivered : List Message) (ahead : Bytes) : Prop :=
  ∃ n ≤ messages.length, delivered = messages.take n ∧
    ∀ i < messages.length, i < n ↔ ahead.length ≤ (layouts (messages.drop (i + 1))).length

theorem Outstanding.timely {ahead : Bytes} {messages : List Message}
    (h : Outstanding ahead messages) : Timely messages [] ahead := by
  refine ⟨0, Nat.zero_le _, rfl, fun i hi => ?_⟩
  have := h i hi
  omega

theorem Timely.append {ahead : Bytes} {first rest delivered : List Message}
    (reached : ahead.length ≤ (layouts rest).length) (h : Timely rest delivered ahead) :
    Timely (first ++ rest) (first ++ delivered) ahead := by
  obtain ⟨n, bound, rfl, exactly⟩ := h
  refine ⟨first.length + n, by simpa using bound, by rw [List.take_length_add_append],
    fun i hi => ?_⟩
  rw [List.drop_append]
  by_cases early : i < first.length
  · have : i + 1 - first.length = 0 := by omega
    simp only [this, List.drop_zero, layouts_append, List.length_append]
    omega
  · have inside := exactly (i - first.length) (by rw [List.length_append] at hi; omega)
    have past : first.drop (i + 1) = [] := List.drop_eq_nil_of_le (by omega)
    have index : i + 1 - first.length = i - first.length + 1 := by omega
    rw [past, List.nil_append, index, ← inside]
    omega

namespace Buffer

/-- Chunks that complete the messages a buffer awaits deliver them in time, and leave nothing. -/
theorem pushAll_awaits {b : Buffer} {messages : List Message} {chunks : List Bytes}
    (ok : Admissible b.limit messages) (h : b.Awaits chunks.flatten messages)
    (later : Outstanding chunks.flatten messages) :
    ∃ deliveries last, b.pushAll chunks = .ok (deliveries, last) ∧
      deliveries.length = chunks.length ∧
      (∀ k ≤ chunks.length,
        Timely messages (deliveries.take k).flatten (chunks.drop k).flatten) ∧
      last.length = 0 ∧ last.isEmpty = true := by
  induction chunks generalizing b messages with
  | nil =>
    have none_left : messages = [] := by
      cases messages with
      | nil => rfl
      | cons m rest => exact absurd (later 0 (Nat.zero_lt_succ _)) (Nat.not_lt_zero _)
    subst none_left
    refine ⟨[], b, rfl, rfl, fun k _ => ?_, h.isEmpty⟩
    simpa using later.timely
  | cons chunk chunks ih =>
    obtain ⟨delivered, rest, next, push, rfl, limit, awaits, outstanding⟩ := push_awaits ok h
    obtain ⟨deliveries, last, pushes, count, timely, empty⟩ :=
      ih (limit ▸ ok.of_append) awaits outstanding
    refine ⟨delivered :: deliveries, last, by simp [pushAll, push, pushes], by simp [count], ?_,
      empty⟩
    intro k hk
    cases k with
    | zero => exact later.timely
    | succ k =>
      have hk : k ≤ chunks.length := Nat.le_of_succ_le_succ hk
      have reached : (chunks.drop k).flatten.length ≤ (layouts rest).length := by
        have split := congrArg (List.length ∘ List.flatten) (List.take_append_drop k chunks)
        simp only [Function.comp, List.flatten_append, List.length_append] at split
        have := awaits.length_ahead_le
        omega
      exact (timely k hk).append reached

/-- The chunks of some messages deliver these messages, and a fresh buffer is left empty. -/
theorem pushAll_delivers {limit : Nat} {messages : List Message} {chunks : List Bytes}
    (ok : Admissible limit messages) (cut : chunks.flatten = layouts messages) :
    ∃ deliveries last, pushAll { limit } chunks = .ok (deliveries, last) ∧
      deliveries.flatten = messages ∧ last.isEmpty = true := by
  have awaits : Awaits { limit } chunks.flatten messages :=
    awaits_of_layouts rfl rfl ok.filled (by simp [cut])
  obtain ⟨deliveries, last, pushes, count, timely, -, empty⟩ :=
    pushAll_awaits ok awaits (cut ▸ outstanding_layouts ok.filled)
  obtain ⟨n, bound, out, exactly⟩ := timely chunks.length (Nat.le_refl _)
  have all : n = messages.length := by
    refine Nat.le_antisymm bound (Nat.le_of_not_lt fun short => ?_)
    exact absurd ((exactly n short).mpr (by simp)) (Nat.lt_irrefl n)
  refine ⟨deliveries, last, pushes, ?_, empty⟩
  rw [← count, List.take_length, all, List.take_length] at out
  exact out

/-- Messages laid out one after another and cut into chunks in any way come out of a fresh buffer as
they were. No push fails; after the first `k` pushes exactly the messages have come out whose last
byte was among what was pushed; and in the end nothing is left. -/
theorem pushAll_layouts (limit : UInt32) (messages : List Message) (chunks : List Bytes)
    (filled : ∀ m ∈ messages, m ≠ [])
    (fits : ∀ m ∈ messages, ∀ frame ∈ m, frame.length ≤ limit.toNat)
    (cut : chunks.flatten = layouts messages) :
    ∃ deliveries last, pushAll { limit := limit.toNat } chunks = .ok (deliveries, last) ∧
      deliveries.length = chunks.length ∧
      (∀ k ≤ chunks.length, ∃ n ≤ messages.length,
        (deliveries.take k).flatten = messages.take n ∧
          ∀ i < messages.length,
            i < n ↔ (layouts (messages.take (i + 1))).length ≤ (chunks.take k).flatten.length) ∧
      last.length = 0 ∧ last.isEmpty = true := by
  have ok : Admissible limit.toNat messages := ⟨limit.toNat_lt_size, filled, fits⟩
  have awaits : Awaits { limit := limit.toNat } chunks.flatten messages :=
    awaits_of_layouts rfl rfl filled (by simp [cut])
  have later : Outstanding chunks.flatten messages := by
    rw [cut]
    cases messages with
    | nil => exact fun i hi => absurd hi (Nat.not_lt_zero i)
    | cons m rest =>
      have := List.length_pos_iff.mpr (layout_ne_nil (filled m (.head _)))
      exact outstanding_cons (by rw [layouts_cons, List.length_append]; omega)
  obtain ⟨deliveries, last, pushes, count, timely, empty⟩ := pushAll_awaits ok awaits later
  refine ⟨deliveries, last, pushes, count, fun k hk => ?_, empty⟩
  obtain ⟨n, bound, out, exactly⟩ := timely k hk
  refine ⟨n, bound, out, fun i hi => (exactly i hi).trans ?_⟩
  -- Both sides count the same stream, once from the front and once from the end.
  have stream := congrArg List.length cut
  rw [← List.take_append_drop k chunks, ← List.take_append_drop (i + 1) messages,
    List.flatten_append, layouts_append, List.length_append, List.length_append] at stream
  omega

/-- Two messages in five chunks, cut inside a header, inside a frame and between two messages. -/
theorem pushAll_two_messages :
    ∃ deliveries last,
      pushAll { limit := (2 : UInt32).toNat }
          [[1, 0, 0], [], [0, 2, 7], [8, 0, 0, 0, 0, 0, 0], [0, 0, 0, 1, 9]] =
        .ok (deliveries, last) ∧ deliveries.length = 5 ∧
      (∃ n ≤ 2, (deliveries.take 4).flatten = [[[7, 8], []], [[9]]].take n) ∧
      last.isEmpty = true := by
  obtain ⟨deliveries, last, pushes, count, timely, _, empty⟩ :=
    pushAll_layouts 2 [[[7, 8], []], [[9]]]
      [[1, 0, 0], [], [0, 2, 7], [8, 0, 0, 0, 0, 0, 0], [0, 0, 0, 1, 9]]
      (by decide) (by decide) (by decide)
  obtain ⟨n, bound, out, _⟩ := timely 4 (by decide)
  exact ⟨deliveries, last, pushes, count, ⟨n, bound, out⟩, empty⟩

end Buffer

end Switchboard.Wire
