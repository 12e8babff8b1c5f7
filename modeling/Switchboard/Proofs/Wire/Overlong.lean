import Switchboard.Proofs.Wire.Boundaries

/-!
# Frames longer than a header can say

A header spells the length of its frame modulo 2^32, and a receiver takes what is spelled for the length.
A message without a frame beyond the limit comes out whole. Otherwise its first such frame decides: it is
refused if the length that is spelled is beyond the limit too, as it is for every frame of less than 2^32
bytes, and else it is cut off there (`push_spelled`). What is left of it is read as headers, so whoever
fills in a frame of that size can have messages received that were never sent (`push_smuggled`).
-/

namespace Switchboard.Wire

theorem capacity_header : Bytes.capacity 4 = UInt32.size := by decide

/-- A header does not tell lengths apart that are the same modulo 2^32. -/
theorem frameHeader_congr (more : Bool) {size size' : Nat}
    (same : size % UInt32.size = size' % UInt32.size) :
    frameHeader more size = frameHeader more size' := by
  have spelled (size : Nat) : Bytes.ofNat 4 (size % UInt32.size) = Bytes.ofNat 4 size := by
    rw [← capacity_header, ← Bytes.toNat_ofNat]
    simpa using Bytes.ofNat_toNat (Bytes.ofNat 4 size)
  rw [frameHeader, frameHeader, ← spelled size, ← spelled size', same]

theorem layout_append (frames : List Bytes) {later : List Bytes} (some : later ≠ []) :
    Message.layout (frames ++ later) = layoutOpen frames ++ Message.layout later := by
  rw [← List.dropLast_concat_getLast some, ← List.append_assoc, layout_concat, layout_concat,
    layoutOpen_append, List.append_assoc]

namespace Buffer

theorem readHeader_eq (limit : Nat) (more : Bool) (size : Nat) :
    readHeader limit (if more then 1 else 0) (Bytes.ofNat 4 size) =
      if limit < size % UInt32.size then .error (.frameSize (size % UInt32.size) limit)
      else .ok (more, size % UInt32.size) := by
  cases more <;> simp [readHeader, Bytes.toNat_ofNat, capacity_header]

/-- What comes out of a buffer that holds some frames of a message and has come to a boundary, when
these bytes are behind it. -/
def yieldBehind (limit : Nat) (frames : List Bytes) (bytes : Bytes) : List Message × Option Flaw :=
  yield { limit, pending := .ofBytes bytes, held := frames.reverse }

theorem yieldBehind_nil (limit : Nat) (bytes : Bytes) : yieldBehind limit [] bytes = cut limit bytes :=
  rfl

section Frame

variable {limit size : Nat} {frames : List Bytes} {frame later : Bytes}

theorem step_frameHeader (more : Bool) :
    step { limit, pending := .ofBytes (frameHeader more size ++ later), held := frames.reverse } =
      if limit < size % UInt32.size then .refuse (.frameSize (size % UInt32.size) limit)
      else .take
        { limit, pending := .ofBytes later, opened := some (more, size % UInt32.size),
          held := frames.reverse } none := by
  let b : Buffer :=
    { limit, pending := .ofBytes (frameHeader more size ++ later), held := frames.reverse }
  refine (@step_of_header b _ _ later rfl (Bytes.length_ofNat 4 size) rfl).trans ?_
  rw [readHeader_eq]
  by_cases beyond : limit < size % UInt32.size <;> simp only [b, beyond, if_true, if_false]

theorem yieldBehind_beyond (more : Bool) (beyond : limit < size % UInt32.size) :
    yieldBehind limit frames (frameHeader more size ++ later) =
      ([], some (.frameSize (size % UInt32.size) limit)) :=
  yield_of_refuse ((step_frameHeader more).trans (if_pos beyond))

/-- A frame is as long as its header spells. -/
theorem yieldBehind_frame (more : Bool) (fits : size % UInt32.size ≤ limit)
    (length : frame.length = size % UInt32.size) :
    yieldBehind limit frames (frameHeader more size ++ (frame ++ later)) =
      if more then yieldBehind limit (frames ++ [frame]) later
      else ((frames ++ [frame]) :: (cut limit later).1, (cut limit later).2) := by
  have header :
      step
        { limit, pending := .ofBytes (frameHeader more size ++ (frame ++ later)),
          held := frames.reverse } =
        .take
          { limit, pending := .ofBytes (frame ++ later), opened := some (more, size % UInt32.size),
            held := frames.reverse } none :=
    (step_frameHeader more).trans (if_neg (Nat.not_lt.mpr fits))
  have taken : (Backlog.ofBytes (frame ++ later)).take? (size % UInt32.size) =
      some (frame, .ofBytes later) := by
    simp [Backlog.take?_eq, ← length]
  rw [yieldBehind, yield_of_take header, ← yieldBehind_nil, yieldBehind, yieldBehind]
  cases more with
  | true =>
    have body :
        step
          { limit, pending := .ofBytes (frame ++ later), opened := some (true, size % UInt32.size),
            held := frames.reverse } =
          .take { limit, pending := .ofBytes later, held := (frames ++ [frame]).reverse } none := by
      simp [step, taken]
    rw [yield_of_take body, if_pos rfl]
    rfl
  | false =>
    have body :
        step
          { limit, pending := .ofBytes (frame ++ later), opened := some (false, size % UInt32.size),
            held := frames.reverse } =
          .take { limit, pending := .ofBytes later } (some (frames ++ [frame])) := by
      simp [step, taken]
    rw [yield_of_take body, if_neg Bool.false_ne_true]
    rfl

/-- Frames within the limit are all held. -/
theorem yieldBehind_layoutOpen {before : List Bytes} (spelled : limit < UInt32.size)
    (fits : ∀ frame ∈ before, frame.length ≤ limit) :
    yieldBehind limit frames (layoutOpen before ++ later) =
      yieldBehind limit (frames ++ before) later := by
  induction before generalizing frames with
  | nil => rw [List.append_nil]; rfl
  | cons frame before ih =>
    obtain ⟨first, rest⟩ := List.forall_mem_cons.mp fits
    have whole : frame.length = frame.length % UInt32.size :=
      (Nat.mod_eq_of_lt (Nat.lt_of_le_of_lt first spelled)).symm
    have bytes : layoutOpen (frame :: before) ++ later =
        frameHeader true frame.length ++ (frame ++ (layoutOpen before ++ later)) := by
      simp [layoutOpen]
    rw [bytes, yieldBehind_frame true (whole ▸ first) whole, if_pos rfl, ih rest, List.append_assoc,
      List.singleton_append]

end Frame

/-- What a push returns. -/
def answer (found : List Message × Option Flaw) : Except Flaw (List Message) :=
  found.2.elim (.ok found.1) .error

theorem push_eq_answer (limit : Nat) (frames : List Bytes) (bytes : Bytes) :
    (push { limit, held := frames.reverse } bytes).1 = answer (yieldBehind limit frames bytes) := by
  have added : (Backlog.ofBytes []).add bytes = .ofBytes bytes := rfl
  simp only [push, added, answer, yieldBehind, yield]
  split <;> simp [*]

theorem answer_cons (m : Message) (found : List Message × Option Flaw) :
    answer (m :: found.1, found.2) = (answer found).map (m :: ·) := by
  obtain ⟨messages, flaw⟩ := found
  cases flaw <;> rfl

/-- Behind frames within the limit a frame is received as far as its header spells, or refused if that is
beyond the limit. -/
theorem push_spelled {limit : Nat} {before after : List Bytes} {frame : Bytes}
    (spelled : limit < UInt32.size) (fits : ∀ frame ∈ before, frame.length ≤ limit) :
    let size := frame.length % UInt32.size
    (push { limit } (Message.layout (before ++ frame :: after))).1 =
      if limit < size then .error (.frameSize size limit)
      else if after = [] then
        (push { limit } (frame.drop size)).1.map ((before ++ [frame.take size]) :: ·)
      else
        (push { limit, held := (before ++ [frame.take size]).reverse }
          (frame.drop size ++ Message.layout after)).1 := by
  intro size
  have bytes : Message.layout (before ++ frame :: after) =
      layoutOpen before ++ (frameHeader (!after.isEmpty) frame.length ++
        (frame.take size ++ (frame.drop size ++ Message.layout after))) := by
    rw [layout_append before (List.cons_ne_nil _ _), layout_cons, List.append_assoc,
      ← List.append_assoc (frame.take size), List.take_append_drop]
  have cut_off : (frame.take size).length = size :=
    List.length_take_of_le (Nat.mod_le ..)
  rw [bytes]
  refine (push_eq_answer limit [] _).trans ?_
  rw [yieldBehind_layoutOpen spelled fits, List.nil_append]
  by_cases beyond : limit < size
  · rw [if_pos beyond, yieldBehind_beyond _ beyond]
    rfl
  rw [if_neg beyond, yieldBehind_frame _ (Nat.not_lt.mp beyond) cut_off, push_eq_answer]
  cases after with
  | nil =>
    rw [if_pos rfl, if_neg (by simp), answer_cons, Message.layout, List.append_nil,
      ← yieldBehind_nil, ← push_eq_answer]
    rfl
  | cons next after => rw [if_neg (List.cons_ne_nil _ _), if_pos (by simp)]

theorem push_admissible {limit : Nat} {messages : List Message} (ok : Admissible limit messages) :
    (push { limit } (layouts messages)).1 = .ok messages := by
  have found : cut limit (layouts messages) = (messages, none) := by simpa using cut_layouts ok []
  exact (push_eq_answer limit [] _).trans (congrArg answer found)

theorem push_delivers_iff {limit : Nat} (spelled : limit < UInt32.size) {m : Message}
    (filled : m ≠ []) :
    (push { limit } m.layout).1 = .ok [m] ↔ ∀ frame ∈ m, frame.length ≤ limit := by
  constructor
  · intro delivered
    have pushed : push { limit } m.layout = (.ok [m], (push { limit } m.layout).2) :=
      Prod.ext delivered rfl
    obtain ⟨-, -, ok⟩ := push_within pushed ⟨nofun, nofun⟩
    exact (ok m (.head _)).2
  · intro fits
    have ok : Admissible limit [m] :=
      ⟨spelled, List.forall_mem_singleton.mpr filled, List.forall_mem_singleton.mpr fits⟩
    simpa using push_admissible ok

/-- If a frame is beyond the limit, one of them comes first. -/
theorem exists_first_beyond {limit : Nat} {m : Message}
    (beyond : ¬ ∀ frame ∈ m, frame.length ≤ limit) :
    ∃ before frame after, m = before ++ frame :: after ∧
      (∀ frame ∈ before, frame.length ≤ limit) ∧ limit < frame.length := by
  induction m with
  | nil => exact absurd nofun beyond
  | cons frame m ih =>
    by_cases fits : frame.length ≤ limit
    · obtain ⟨before, other, after, rfl, first, long⟩ :=
        ih fun rest => beyond (List.forall_mem_cons.mpr ⟨fits, rest⟩)
      exact ⟨frame :: before, other, after, rfl, List.forall_mem_cons.mpr ⟨fits, first⟩, long⟩
    · exact ⟨[], frame, m, rfl, nofun, Nat.lt_of_not_le fits⟩

/-- If other messages have been put into the last frame of a message, behind as many bytes as the frame's
header spells, they are received. -/
theorem push_smuggled {limit : Nat} {before : List Bytes} {front : Bytes} {extra : List Message}
    (ok : Admissible limit ((before ++ [front]) :: extra))
    (round : (layouts extra).length % UInt32.size = 0) :
    (push { limit } (Message.layout (before ++ [front ++ layouts extra]))).1 =
      .ok ((before ++ [front]) :: extra) := by
  have same : (front ++ layouts extra).length % UInt32.size = front.length % UInt32.size := by
    rw [List.length_append, Nat.add_mod, round, Nat.add_zero, Nat.mod_mod]
  have bytes : Message.layout (before ++ [front ++ layouts extra]) =
      layouts ((before ++ [front]) :: extra) := by
    rw [layout_concat, frameHeader_congr false same, layouts_cons, layout_concat]
    simp only [List.append_assoc]
  rw [bytes, push_admissible ok]

/-- Zeros are the headers of messages of one empty frame. -/
theorem layouts_replicate (n : Nat) : layouts (List.replicate n [[]]) = List.replicate (5 * n) 0 := by
  induction n with
  | zero => rfl
  | succ n ih =>
    have first : Message.layout [[]] = List.replicate 5 0 := rfl
    rw [List.replicate_succ, layouts_cons, ih, first, List.replicate_append_replicate, Nat.mul_succ,
      Nat.add_comm]

theorem cut_replicate {limit : Nat} (spelled : limit < UInt32.size) (n : Nat) {left : Nat}
    (few : left < headerSize) :
    cut limit (List.replicate (5 * n + left) 0) = (List.replicate n [[]], none) := by
  have ok : Admissible limit (List.replicate n [[]]) := by
    refine ⟨spelled, fun m mem => ?_, fun m mem frame mem' => ?_⟩ <;>
      obtain rfl := List.eq_of_mem_replicate mem
    · exact List.cons_ne_nil _ _
    · exact List.mem_singleton.mp mem' ▸ Nat.zero_le _
  have short : (List.replicate left (0 : UInt8)).length < headerSize := by rwa [List.length_replicate]
  have waits : cut limit (List.replicate left 0) = ([], none) :=
    yield_of_wait (step_of_short_header rfl short)
  rw [← List.replicate_append_replicate, ← layouts_replicate, cut_layouts ok, waits, List.append_nil]

/-- A message that is laid out and pushed into a fresh buffer is delivered, and nothing else is, just if
none of its frames is beyond the limit. If all its frames have less than 2^32 bytes and it is not delivered,
then it is refused because of the size of a frame. Of any frame that comes behind frames within the limit
the receiver sees the length modulo 2^32: it refuses that if it is beyond the limit, and else it takes so
many bytes for the frame and goes on reading behind them, with the rest of the frame if there is one. -/
theorem push_layout (limit : UInt32) {m : Message} (filled : m ≠ []) :
    let result := (push { limit := limit.toNat } m.layout).1
    (result = .ok [m] ↔ ∀ frame ∈ m, frame.length ≤ limit.toNat) ∧
      ((∀ frame ∈ m, frame.length < UInt32.size) → result ≠ .ok [m] →
        ∃ frame ∈ m, result = .error (.frameSize frame.length limit.toNat)) ∧
      ∀ before frame after, m = before ++ frame :: after →
        (∀ frame ∈ before, frame.length ≤ limit.toNat) →
        let size := frame.length % UInt32.size
        result =
          if limit.toNat < size then .error (.frameSize size limit.toNat)
          else if after = [] then
            (push { limit := limit.toNat } (frame.drop size)).1.map
              ((before ++ [frame.take size]) :: ·)
          else
            (push { limit := limit.toNat, held := (before ++ [frame.take size]).reverse }
              (frame.drop size ++ Message.layout after)).1 := by
  intro result
  have spelled : limit.toNat < UInt32.size := limit.toNat_lt
  have delivered := push_delivers_iff spelled filled
  refine ⟨delivered, fun short other => ?_, ?_⟩
  · obtain ⟨before, frame, after, rfl, first, long⟩ :=
      exists_first_beyond fun fits => other (delivered.mpr fits)
    have mem : frame ∈ before ++ frame :: after := List.mem_append_right _ (.head _)
    refine ⟨frame, mem, (push_spelled spelled first).trans ?_⟩
    rw [Nat.mod_eq_of_lt (short frame mem), if_pos long]
  · rintro before frame after rfl first
    exact push_spelled spelled first

/-- A frame of one byte for a receiver that takes no bytes. -/
theorem push_layout_one_byte :
    ∃ frame ∈ ([[7]] : Message), (push { limit := (0 : UInt32).toNat } (Message.layout [[7]])).1 =
      .error (.frameSize frame.length (0 : UInt32).toNat) := by
  obtain ⟨delivered, refused, -⟩ := push_layout 0 (m := [[7]]) (List.cons_ne_nil _ _)
  exact refused (by decide) fun same => absurd (delivered.mp same) (by decide)

/-- A frame of 2^32 zeros is received as an empty one, and then as empty messages for as long as it
lasts. -/
theorem push_zeros :
    let m : Message := [List.replicate UInt32.size 0]
    ∃ messages, (push {} m.layout).1 = .ok messages ∧ messages = List.replicate 858993460 [[]] ∧
      messages ≠ [m] := by
  intro m
  refine ⟨_, ?_, rfl, fun same => ?_⟩
  · have spelled : defaultFrameLimit < UInt32.size := by decide
    have bytes : UInt32.size = 5 * 858993459 + 1 := by decide
    have rest : (push {} (List.replicate UInt32.size 0)).1 = .ok (List.replicate 858993459 [[]]) := by
      rw [bytes]
      exact (push_eq_answer _ [] _).trans (congrArg answer (cut_replicate spelled _ (by decide)))
    have pushed := @push_spelled _ [] [] (List.replicate UInt32.size 0) spelled nofun
    rw [List.length_replicate, Nat.mod_self] at pushed
    refine pushed.trans ?_
    rw [if_neg (Nat.not_lt_zero _), if_pos rfl, List.drop_zero, rest, List.replicate_succ]
    rfl
  · have lengths := congrArg List.length same
    rw [List.length_replicate, List.length_singleton] at lengths
    exact absurd lengths (by decide)

end Buffer

end Switchboard.Wire
