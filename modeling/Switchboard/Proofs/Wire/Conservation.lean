import Switchboard.Proofs.Wire.Streaming

/-!
# A buffer loses nothing and makes nothing up

Whatever bytes are pushed, what comes out of a buffer laid out again and what stays in it are the bytes
that went in. `Taken` lists what a step can do; `unfinished` are the bytes that a buffer still has, with
the headers it has read put back. A header can be put back since it has one spelling only: its flag is
zero or one, and four bytes spell every length in one way.
-/

namespace Switchboard.Wire

/-- Frames behind which more frames of their message follow, as they travel on a stream. -/
def layoutOpen (frames : List Bytes) : Bytes :=
  frames.flatMap fun frame => frameHeader true frame.length ++ frame

theorem layoutOpen_append (first later : List Bytes) :
    layoutOpen (first ++ later) = layoutOpen first ++ layoutOpen later :=
  List.flatMap_append

theorem layoutOpen_singleton (frame : Bytes) :
    layoutOpen [frame] = frameHeader true frame.length ++ frame :=
  List.flatMap_singleton ..

/-- A message ends with the frame that says so. -/
theorem layout_concat (frames : List Bytes) (last : Bytes) :
    Message.layout (frames ++ [last]) =
      layoutOpen frames ++ (frameHeader false last.length ++ last) := by
  induction frames with
  | nil => rfl
  | cons frame frames ih =>
    have more : (!(frames ++ [last]).isEmpty) = true := by simp
    rw [List.cons_append, layout_cons, ih, more]
    simp [layoutOpen]

namespace Buffer

/-- The bytes of all that a buffer has and has not delivered: the frames of the message that is not
complete, the header read last, and the bytes not looked at yet. -/
def unfinished (b : Buffer) : Bytes :=
  layoutOpen b.held.reverse ++ (b.opened.elim [] fun (more, size) => frameHeader more size) ++
    b.pending.toBytes

theorem unfinished_add (b : Buffer) (bytes : Bytes) :
    ({ b with pending := b.pending.add bytes } : Buffer).unfinished = b.unfinished ++ bytes := by
  simp only [unfinished, Backlog.toBytes_add, List.append_assoc]

theorem toBytes_eq_nil {b : Buffer} : b.pending.toBytes = [] ↔ b.length = 0 := by
  rw [← List.length_eq_zero_iff, Backlog.length_toBytes]
  rfl

/-- Nothing is unfinished in a buffer that has no bytes and no part of a message. -/
theorem unfinished_eq_nil {b : Buffer} :
    b.unfinished = [] ↔ b.length = 0 ∧ b.opened = none ∧ b.held = [] := by
  have opened : (b.opened.elim [] fun (more, size) => frameHeader more size) = [] ↔
      b.opened = none := by
    cases b.opened <;> simp [frameHeader]
  have held : layoutOpen b.held.reverse = [] ↔ b.held = [] := by
    cases b.held <;> simp [layoutOpen, frameHeader]
  rw [unfinished, List.append_eq_nil_iff, List.append_eq_nil_iff, toBytes_eq_nil, opened, held]
  constructor
  · rintro ⟨⟨held, opened⟩, bytes⟩
    exact ⟨bytes, opened, held⟩
  · rintro ⟨bytes, opened, held⟩
    exact ⟨⟨held, opened⟩, bytes⟩

/-- A header that is taken is the one way to write what it says. -/
theorem readHeader_ok {limit size : Nat} {flag : UInt8} {length : Bytes} {more : Bool}
    (width : length.length = 4) (h : readHeader limit flag length = .ok (more, size)) :
    flag :: length = frameHeader more size ∧ size ≤ limit := by
  unfold readHeader at h
  dsimp only at h
  split at h
  · cases h
  · next low =>
    split at h
    · cases h
    · next fits =>
      obtain ⟨rfl, rfl⟩ := Prod.mk.inj (Except.ok.inj h)
      have spelled : Bytes.ofNat 4 length.toNat = length := width ▸ Bytes.ofNat_toNat length
      have flags : flag = if decide (flag = 1) then 1 else 0 := by
        by_cases one : flag = 1
        · simp [one]
        · have : flag.toNat ≤ 1 := UInt8.le_iff_toNat_le.mp (UInt8.not_lt.mp low)
          have : flag.toNat ≠ 1 := fun same => one (UInt8.toNat_inj.mp same)
          have zero : flag = 0 := UInt8.toNat_inj.mp (by change flag.toNat = 0; omega)
          simp [zero]
      refine ⟨?_, Nat.le_of_not_lt fits⟩
      rw [frameHeader, spelled, ← flags]

/-- All that a step can take: a header, a frame with more frames to follow, or the last frame of a
message, which is then delivered. -/
inductive Taken (b : Buffer) : Buffer → Option Message → Prop
  | header (more : Bool) (size : Nat) (pending : Backlog) (closed : b.opened = none)
      (bytes : b.pending.toBytes = frameHeader more size ++ pending.toBytes)
      (fits : size ≤ b.limit) :
      Taken b { b with pending, opened := some (more, size) } none
  | frame (frame : Bytes) (pending : Backlog) (opened : b.opened = some (true, frame.length))
      (bytes : b.pending.toBytes = frame ++ pending.toBytes) :
      Taken b { b with pending, opened := none, held := frame :: b.held } none
  | message (last : Bytes) (pending : Backlog) (opened : b.opened = some (false, last.length))
      (bytes : b.pending.toBytes = last ++ pending.toBytes) :
      Taken b { b with pending, opened := none, held := [] } (some (b.held.reverse ++ [last]))

theorem taken_of_step {b next : Buffer} {message : Option Message}
    (h : b.step = .take next message) : Taken b next message := by
  unfold step at h
  split at h
  · next closed =>
    split at h
    · cases h
    · cases h
    · next flag length pending taken =>
      obtain ⟨size, bytes, -⟩ := Backlog.take?_eq_some taken
      split at h
      · cases h
      · next header read =>
        cases h
        obtain ⟨spelled, fits⟩ := readHeader_ok (Nat.succ.inj size) read
        exact .header header.1 header.2 pending closed (spelled ▸ bytes) fits
  · next more size opened =>
    split at h
    · cases h
    · next frame pending taken =>
      obtain ⟨rfl, bytes, -⟩ := Backlog.take?_eq_some taken
      split at h
      · next goesOn =>
        cases h
        exact .frame frame pending (goesOn ▸ opened) bytes
      · next ends =>
        cases h
        rw [List.reverse_cons]
        exact .message frame pending (Bool.eq_false_iff.mpr ends ▸ opened) bytes

/-- A step moves bytes on and changes none of them. -/
theorem Taken.unfinished_eq {b next : Buffer} {message : Option Message}
    (taken : Taken b next message) :
    b.unfinished = layouts message.toList ++ next.unfinished := by
  cases taken with
  | header more size pending closed bytes fits => simp [unfinished, closed, bytes]
  | frame frame pending opened bytes =>
    simp [unfinished, opened, bytes, layoutOpen_append, layoutOpen_singleton]
  | message last pending opened bytes =>
    simp [unfinished, opened, bytes, layout_concat, layoutOpen]

/-- The buffer keeps to its limit with all that it has taken. -/
structure Within (b : Buffer) : Prop where
  held : ∀ frame ∈ b.held, frame.length ≤ b.limit
  opened : ∀ header, b.opened = some header → header.2 ≤ b.limit

/-- What a buffer may deliver: messages of frames within its limit, one at least in each. -/
def Deliverable (limit : Nat) (messages : List Message) : Prop :=
  ∀ m ∈ messages, m ≠ [] ∧ ∀ frame ∈ m, frame.length ≤ limit

theorem deliverable_nil (limit : Nat) : Deliverable limit [] := by
  intro m mem
  cases mem

theorem Taken.within {b next : Buffer} {message : Option Message} (taken : Taken b next message)
    (within : b.Within) : next.Within ∧ Deliverable b.limit message.toList := by
  have fits {more : Bool} {frame : Bytes} (opened : b.opened = some (more, frame.length)) :
      frame.length ≤ b.limit := within.opened _ opened
  cases taken with
  | header more size pending closed bytes fits =>
    refine ⟨⟨within.held, ?_⟩, deliverable_nil b.limit⟩
    rintro header ⟨⟩
    exact fits
  | frame frame pending opened bytes =>
    exact ⟨⟨List.forall_mem_cons.mpr ⟨fits opened, within.held⟩, nofun⟩, deliverable_nil b.limit⟩
  | message last pending opened bytes =>
    refine ⟨⟨nofun, nofun⟩, fun m mem => ?_⟩
    obtain rfl := Option.mem_some.mp (Option.mem_toList.mp mem)
    refine ⟨List.concat_ne_nil _ _, fun frame mem => ?_⟩
    rcases List.mem_append.mp mem with held | last
    · exact within.held frame (List.mem_reverse.mp held)
    · exact List.mem_singleton.mp last ▸ fits opened

theorem Taken.limit_eq {b next : Buffer} {message : Option Message}
    (taken : Taken b next message) : next.limit = b.limit := by
  cases taken <;> rfl

theorem drain_of_refuse {b : Buffer} {flaw : Flaw} (h : b.step = .refuse flaw) :
    drain b = ⟨[], some flaw, b⟩ := by
  rw [drain]
  split <;> simp_all

/-- Draining moves bytes on and changes none of them. -/
theorem drain_unfinished (b : Buffer) :
    b.unfinished = layouts (drain b).messages ++ (drain b).rest.unfinished := by
  induction b using drain.induct with
  | case1 b wait => simp [drain_of_wait wait]
  | case2 b flaw refuse => simp [drain_of_refuse refuse]
  | case3 b next message take ih =>
    rw [drain_of_take take, (taken_of_step take).unfinished_eq, layouts_append,
      List.append_assoc, ← ih]

theorem limit_drain (b : Buffer) : (drain b).rest.limit = b.limit := by
  induction b using drain.induct with
  | case1 b wait => rw [drain_of_wait wait]
  | case2 b flaw refuse => rw [drain_of_refuse refuse]
  | case3 b next message take ih =>
    rw [drain_of_take take]
    exact ih.trans (taken_of_step take).limit_eq

theorem drain_within {b : Buffer} (within : b.Within) :
    (drain b).rest.Within ∧ Deliverable b.limit (drain b).messages := by
  induction b using drain.induct with
  | case1 b wait =>
    rw [drain_of_wait wait]
    exact ⟨within, deliverable_nil b.limit⟩
  | case2 b flaw refuse =>
    rw [drain_of_refuse refuse]
    exact ⟨within, deliverable_nil b.limit⟩
  | case3 b next message take ih =>
    have taken := taken_of_step take
    obtain ⟨within', delivered⟩ := taken.within within
    obtain ⟨rest, later⟩ := ih within'
    rw [taken.limit_eq] at later
    rw [drain_of_take take]
    refine ⟨rest, fun m mem => ?_⟩
    exact (List.mem_append.mp mem).elim (delivered m) (later m)

theorem drain_of_push_ok {b next : Buffer} {bytes : Bytes} {messages : List Message}
    (h : b.push bytes = (.ok messages, next)) :
    drain { b with pending := b.pending.add bytes } = ⟨messages, none, next⟩ := by
  unfold push at h
  dsimp only at h
  split at h <;> cases h
  next sound => rw [← sound]

/-- A push that succeeds delivers the front of what there is then, and keeps the rest. -/
theorem push_unfinished {b next : Buffer} {bytes : Bytes} {messages : List Message}
    (h : b.push bytes = (.ok messages, next)) :
    b.unfinished ++ bytes = layouts messages ++ next.unfinished := by
  rw [← unfinished_add, drain_unfinished, drain_of_push_ok h]

theorem push_within {b next : Buffer} {bytes : Bytes} {messages : List Message}
    (h : b.push bytes = (.ok messages, next)) (within : b.Within) :
    next.limit = b.limit ∧ next.Within ∧ Deliverable b.limit messages := by
  let added : Buffer := { b with pending := b.pending.add bytes }
  have limit := limit_drain added
  have kept := drain_within (b := added) ⟨within.held, within.opened⟩
  rw [drain_of_push_ok h] at limit kept
  exact ⟨limit, kept⟩

/-- Every push of a run has succeeded; what they delivered and what is left make up the stream. -/
theorem pushAll_unfinished {b last : Buffer} {chunks : List Bytes}
    {deliveries : List (List Message)} (ok : b.pushAll chunks = .ok (deliveries, last)) :
    b.unfinished ++ chunks.flatten = layouts deliveries.flatten ++ last.unfinished ∧
      (b.Within → Deliverable b.limit deliveries.flatten) := by
  induction chunks generalizing b deliveries with
  | nil =>
    cases ok
    exact ⟨List.append_nil _, fun _ => deliverable_nil _⟩
  | cons chunk chunks ih =>
    unfold pushAll at ok
    split at ok
    · cases ok
    · next messages next push =>
      split at ok
      · cases ok
      · next later last' pushes =>
        cases ok
        obtain ⟨bytes, delivered⟩ := ih pushes
        refine ⟨?_, fun within m mem => ?_⟩
        · rw [List.flatten_cons, ← List.append_assoc, push_unfinished push, List.append_assoc,
            bytes, List.flatten_cons, layouts_append, List.append_assoc]
        · obtain ⟨limit, within', first⟩ := push_within push within
          rcases List.mem_append.mp (List.flatten_cons ▸ mem) with now | later
          · exact first m now
          · exact limit ▸ delivered within' m later

/-- Whatever is pushed into a fresh buffer, in whatever chunks: as long as no push fails, the pushed
bytes are those of the messages delivered so far, laid out one after another, followed by those of the
frames held of the next message, of the header read last, and the bytes not looked at yet, of which
there are `last.length`. No message is delivered that has no frames or a frame beyond the limit. -/
theorem pushAll_conserves (limit : UInt32) (chunks : List Bytes)
    {deliveries : List (List Message)} {last : Buffer}
    (ok : pushAll { limit := limit.toNat } chunks = .ok (deliveries, last)) :
    chunks.flatten = layouts deliveries.flatten ++
        ((last.held.reverse.flatMap fun frame => frameHeader true frame.length ++ frame) ++
          (last.opened.elim [] fun (more, size) => frameHeader more size) ++
          last.pending.toBytes) ∧
      last.pending.toBytes.length = last.length ∧
      ∀ m ∈ deliveries.flatten, m ≠ [] ∧ ∀ frame ∈ m, frame.length ≤ limit.toNat := by
  obtain ⟨bytes, delivered⟩ := pushAll_unfinished ok
  exact ⟨bytes, last.pending.length_toBytes, delivered ⟨nofun, nofun⟩⟩

/-- A message, and another of which a frame and a header have come and half of a frame. -/
theorem pushAll_half_message :
    ∃ deliveries last,
      pushAll { limit := (2 : UInt32).toNat }
          [[0, 0, 0], [0, 1, 7, 1, 0, 0, 0, 0], [0, 0, 0, 0, 2, 5]] = .ok (deliveries, last) ∧
      ([0, 0, 0, 0, 1, 7, 1, 0, 0, 0, 0, 0, 0, 0, 0, 2, 5] : Bytes) = layouts deliveries.flatten ++
        ((last.held.reverse.flatMap fun frame => frameHeader true frame.length ++ frame) ++
          (last.opened.elim [] fun (more, size) => frameHeader more size) ++
          last.pending.toBytes) ∧
      ∀ m ∈ deliveries.flatten, m ≠ [] ∧ ∀ frame ∈ m, frame.length ≤ 2 := by
  have ok : pushAll { limit := (2 : UInt32).toNat }
      [[0, 0, 0], [0, 1, 7, 1, 0, 0, 0, 0], [0, 0, 0, 0, 2, 5]] =
      .ok ([[], [[[7]]], []],
        { limit := 2, pending := .ofBytes [5], opened := some (false, 2), held := [[]] }) := by
    cbv
  obtain ⟨bytes, -, delivered⟩ := pushAll_conserves 2 _ ok
  exact ⟨_, _, ok, bytes, delivered⟩

end Buffer

end Switchboard.Wire
