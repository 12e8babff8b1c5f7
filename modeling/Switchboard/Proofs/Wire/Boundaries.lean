import Mathlib.Data.Nat.Find
import Switchboard.Proofs.Wire.Cutting

/-!
# Where frames begin

The frames of a stream begin at its start, and behind every frame that is all there. A header at such a
boundary is bad if its flag is neither zero nor one or if its frame is larger than the limit. What a
buffer finds wrong with a stream is what is wrong with the first bad header (`flaw_eq_some_iff`), and
nothing that comes later can change that (`FirstBad.append`).
-/

namespace Switchboard.Wire

/-- The positions at which the frames of a stream begin. -/
inductive Boundary : Bytes → Nat → Prop
  | start (stream : Bytes) : Boundary stream 0
  | next {flag : UInt8} {length frame later : Bytes} {pos : Nat} (width : length.length = 4)
      (whole : frame.length = length.toNat) (behind : Boundary later pos) :
      Boundary (flag :: (length ++ (frame ++ later))) (Buffer.headerSize + frame.length + pos)

/-- All of a header stands at a position of a stream. -/
def HeaderAt (stream : Bytes) (pos : Nat) (flag : UInt8) (size : Nat) : Prop :=
  ∃ length later : Bytes,
    length.length = 4 ∧ length.toNat = size ∧ stream.drop pos = flag :: (length ++ later)

/-- What is wrong with a header. The flag is looked at first. -/
inductive BadHeader (limit : Nat) (flag : UInt8) (size : Nat) : Flaw → Prop
  | flag (unknown : flag ≠ 0 ∧ flag ≠ 1) : BadHeader limit flag size (.frameFlag flag)
  | size (known : flag = 0 ∨ flag = 1) (beyond : limit < size) :
      BadHeader limit flag size (.frameSize size limit)

/-- A bad header stands where a frame begins. -/
def BadAt (limit : Nat) (stream : Bytes) (pos : Nat) (flaw : Flaw) : Prop :=
  Boundary stream pos ∧ ∃ flag size, HeaderAt stream pos flag size ∧ BadHeader limit flag size flaw

/-- What is wrong with the first bad header of a stream. -/
def FirstBad (limit : Nat) (stream : Bytes) (flaw : Flaw) : Prop :=
  ∃ pos, BadAt limit stream pos flaw ∧ ∀ earlier other, BadAt limit stream earlier other → pos ≤ earlier

theorem badHeader_iff {limit : Nat} {flag : UInt8} {size : Nat} :
    (∃ flaw, BadHeader limit flag size flaw) ↔ (flag ≠ 0 ∧ flag ≠ 1) ∨ limit < size := by
  constructor
  · rintro ⟨_, unknown | ⟨known, beyond⟩⟩
    · exact .inl unknown
    · exact .inr beyond
  · intro bad
    by_cases known : flag = 0 ∨ flag = 1
    · exact ⟨_, .size known (bad.resolve_left fun unknown => known.elim unknown.1 unknown.2)⟩
    · exact ⟨_, .flag (not_or.mp known)⟩

/-- There is a first bad header just if some header at a boundary is bad. -/
theorem exists_firstBad_iff {limit : Nat} {stream : Bytes} :
    (∃ flaw, FirstBad limit stream flaw) ↔
      ∃ pos flag size, Boundary stream pos ∧ HeaderAt stream pos flag size ∧
        ((flag ≠ 0 ∧ flag ≠ 1) ∨ limit < size) := by
  constructor
  · rintro ⟨flaw, pos, ⟨boundary, flag, size, header, bad⟩, -⟩
    exact ⟨pos, flag, size, boundary, header, badHeader_iff.mp ⟨flaw, bad⟩⟩
  · rintro ⟨pos, flag, size, boundary, header, bad⟩
    obtain ⟨flaw, bad⟩ := badHeader_iff.mpr bad
    have some_bad : ∃ pos flaw, BadAt limit stream pos flaw :=
      ⟨pos, flaw, boundary, flag, size, header, bad⟩
    classical
    obtain ⟨flaw, found⟩ := Nat.find_spec some_bad
    exact ⟨flaw, _, found, fun earlier other also => Nat.find_min' some_bad ⟨other, also⟩⟩

theorem BadHeader.unique {limit : Nat} {flag : UInt8} {size : Nat} {flaw other : Flaw}
    (bad : BadHeader limit flag size flaw) (also : BadHeader limit flag size other) :
    flaw = other := by
  cases bad <;> cases also <;> grind

/-- A buffer refuses just the bad headers. -/
theorem Buffer.readHeader_eq_error {limit : Nat} {flag : UInt8} {length : Bytes} {flaw : Flaw} :
    readHeader limit flag length = .error flaw ↔ BadHeader limit flag length.toNat flaw := by
  have flags : 1 < flag ↔ flag ≠ 0 ∧ flag ≠ 1 := by
    rw [UInt8.lt_iff_toNat_lt, ne_eq, ne_eq, ← UInt8.toNat_inj, ← UInt8.toNat_inj]
    change 1 < flag.toNat ↔ ¬ flag.toNat = 0 ∧ ¬ flag.toNat = 1
    omega
  unfold readHeader
  dsimp only
  constructor
  · intro refused
    split at refused
    · next unknown =>
      cases refused
      exact .flag (flags.mp unknown)
    · next known =>
      split at refused <;> cases refused
      next beyond => exact .size (by grind) beyond
  · rintro (unknown | ⟨known, beyond⟩)
    · rw [if_pos (flags.mpr unknown)]
    · rw [if_neg (by grind), if_pos beyond]

theorem headerAt_zero {flag flag' : UInt8} {length part : Bytes} {size : Nat}
    (width : length.length = 4) :
    HeaderAt (flag :: (length ++ part)) 0 flag' size ↔ flag' = flag ∧ size = length.toNat := by
  constructor
  · rintro ⟨length', later, width', rfl, same⟩
    obtain ⟨rfl, tails⟩ := List.cons.inj same
    obtain ⟨rfl, -⟩ := List.append_inj tails (width.trans width'.symm)
    exact ⟨rfl, rfl⟩
  · rintro ⟨rfl, rfl⟩
    exact ⟨length, part, width, rfl, rfl⟩

theorem headerAt_behind {flag : UInt8} {front later : Bytes} {pos size : Nat} :
    HeaderAt (front ++ later) (front.length + pos) flag size ↔ HeaderAt later pos flag size := by
  unfold HeaderAt
  rw [List.drop_append, List.drop_eq_nil_of_le (Nat.le_add_right ..), List.nil_append,
    Nat.add_sub_cancel_left]

section Frame

variable {limit : Nat} {flag : UInt8} {length frame later part : Bytes} {pos : Nat} {flaw : Flaw}

/-- The frames that begin behind a first one are those of what is behind it. -/
theorem boundary_frame (width : length.length = 4) (whole : frame.length = length.toNat) :
    Boundary (flag :: (length ++ (frame ++ later))) pos ↔
      pos = 0 ∨ ∃ p, pos = Buffer.headerSize + frame.length + p ∧ Boundary later p := by
  constructor
  · intro boundary
    generalize same : flag :: (length ++ (frame ++ later)) = stream at boundary
    cases boundary with
    | start => exact .inl rfl
    | @next flag' length' frame' later' p width' whole' behind =>
      obtain ⟨rfl, tails⟩ := List.cons.inj same
      obtain ⟨rfl, bodies⟩ := List.append_inj tails (width.trans width'.symm)
      obtain ⟨rfl, rfl⟩ := List.append_inj bodies (whole.trans whole'.symm)
      exact .inr ⟨p, rfl, behind⟩
  · rintro (rfl | ⟨p, rfl, behind⟩)
    · exact .start _
    · exact .next width whole behind

/-- Nothing begins behind a frame that is not all there. -/
theorem boundary_part (width : length.length = 4) (short : part.length < length.toNat) :
    Boundary (flag :: (length ++ part)) pos ↔ pos = 0 := by
  constructor
  · intro boundary
    generalize same : flag :: (length ++ part) = stream at boundary
    cases boundary with
    | start => rfl
    | @next flag' length' frame' later' p width' whole' behind =>
      obtain ⟨rfl, tails⟩ := List.cons.inj same
      obtain ⟨rfl, rfl⟩ := List.append_inj tails (width.trans width'.symm)
      rw [List.length_append] at short
      omega
  · rintro rfl
    exact .start _

theorem badAt_zero (width : length.length = 4) :
    BadAt limit (flag :: (length ++ part)) 0 flaw ↔ BadHeader limit flag length.toNat flaw := by
  simp [BadAt, Boundary.start, headerAt_zero width, and_assoc]

theorem badAt_frame (width : length.length = 4) (whole : frame.length = length.toNat) :
    BadAt limit (flag :: (length ++ (frame ++ later))) pos flaw ↔
      (pos = 0 ∧ BadHeader limit flag length.toNat flaw) ∨
        ∃ p, pos = Buffer.headerSize + frame.length + p ∧ BadAt limit later p flaw := by
  have shifted (p : Nat) (flag' : UInt8) (size : Nat) :
      HeaderAt (flag :: (length ++ (frame ++ later))) (Buffer.headerSize + frame.length + p) flag'
        size ↔ HeaderAt later p flag' size := by
    have front : (flag :: (length ++ frame)).length = Buffer.headerSize + frame.length := by
      simp only [List.length_cons, List.length_append, width, Buffer.headerSize]
      omega
    have split : flag :: (length ++ (frame ++ later)) = flag :: (length ++ frame) ++ later := by
      simp
    rw [← front, split, headerAt_behind]
  constructor
  · rintro ⟨boundary, flag', size, header, bad⟩
    rcases (boundary_frame width whole).mp boundary with rfl | ⟨p, rfl, behind⟩
    · exact .inl ⟨rfl, (badAt_zero width).mp ⟨.start _, flag', size, header, bad⟩⟩
    · exact .inr ⟨p, rfl, behind, flag', size, (shifted p flag' size).mp header, bad⟩
  · rintro (⟨rfl, bad⟩ | ⟨p, rfl, behind, flag', size, header, bad⟩)
    · exact (badAt_zero width).mpr bad
    · exact ⟨.next width whole behind, flag', size, (shifted p flag' size).mpr header, bad⟩

/-- A bad header at the start of a stream is the first one. -/
theorem firstBad_of_bad (width : length.length = 4)
    (bad : BadHeader limit flag length.toNat flaw) {other : Flaw} :
    FirstBad limit (flag :: (length ++ part)) other ↔ other = flaw := by
  constructor
  · rintro ⟨pos, found, first⟩
    obtain rfl := Nat.le_zero.mp (first 0 flaw ((badAt_zero width).mpr bad))
    exact ((badAt_zero width).mp found).unique bad
  · rintro rfl
    exact ⟨0, (badAt_zero width).mpr bad, fun _ _ _ => Nat.zero_le _⟩

/-- Behind a good frame the first bad header is that of what is behind the frame. -/
theorem firstBad_behind (width : length.length = 4) (whole : frame.length = length.toNat)
    (good : ∀ other, ¬ BadHeader limit flag length.toNat other) :
    FirstBad limit (flag :: (length ++ (frame ++ later))) flaw ↔ FirstBad limit later flaw := by
  have shifted (pos : Nat) (other : Flaw) :
      BadAt limit (flag :: (length ++ (frame ++ later))) pos other ↔
        ∃ p, pos = Buffer.headerSize + frame.length + p ∧ BadAt limit later p other := by
    simp [badAt_frame width whole, good]
  constructor
  · rintro ⟨pos, found, first⟩
    obtain ⟨p, rfl, behind⟩ := (shifted pos flaw).mp found
    refine ⟨p, behind, fun earlier other also => ?_⟩
    have := first _ other ((shifted _ other).mpr ⟨earlier, rfl, also⟩)
    omega
  · rintro ⟨p, behind, first⟩
    refine ⟨_, (shifted _ flaw).mpr ⟨p, rfl, behind⟩, fun earlier other also => ?_⟩
    obtain ⟨q, rfl, found⟩ := (shifted earlier other).mp also
    have := first q other found
    omega

/-- A stream that ends within its first frame has no bad header but the first one. -/
theorem not_firstBad_part (width : length.length = 4) (short : part.length < length.toNat)
    (good : ∀ other, ¬ BadHeader limit flag length.toNat other) :
    ¬ FirstBad limit (flag :: (length ++ part)) flaw := by
  rintro ⟨pos, ⟨boundary, found⟩, -⟩
  obtain rfl := (boundary_part width short).mp boundary
  exact good flaw ((badAt_zero width).mp ⟨boundary, found⟩)

end Frame

/-- A stream that ends within its first header has no bad header. -/
theorem not_firstBad_short {limit : Nat} {stream : Bytes} {flaw : Flaw}
    (short : stream.length < Buffer.headerSize) : ¬ FirstBad limit stream flaw := by
  rintro ⟨pos, ⟨-, flag, size, ⟨length, later, width, -, split⟩, -⟩, -⟩
  have lengths := congrArg List.length split
  simp only [List.length_drop, List.length_append, List.length_cons, width] at lengths
  simp only [Buffer.headerSize] at short
  omega

/-- A stream that is long enough begins with a header. -/
theorem exists_header {stream : Bytes} (enough : Buffer.headerSize ≤ stream.length) :
    ∃ (flag : UInt8) (length part : Bytes), length.length = 4 ∧ stream = flag :: (length ++ part) := by
  cases stream with
  | nil => simp [Buffer.headerSize] at enough
  | cons flag rest =>
    have room : 4 ≤ rest.length := by simpa [Buffer.headerSize] using enough
    exact ⟨flag, rest.take 4, rest.drop 4, by rw [List.length_take]; omega, by simp⟩

namespace Buffer

section Step

variable {b : Buffer}

/-- Behind a header a buffer that has all of the frame is at a boundary again. -/
theorem yield_of_frame {more : Bool} {frame later : Bytes}
    (opened : b.opened = some (more, frame.length)) (bytes : b.pending.toBytes = frame ++ later) :
    ∃ next : Buffer, b.yield.2 = next.yield.2 ∧ next.limit = b.limit ∧ next.opened = none ∧
      next.pending.toBytes = later := by
  have taken : b.pending.take? frame.length = some (frame, .ofBytes later) := by
    simp [Backlog.take?_eq, bytes]
  let held := frame :: b.held
  cases more with
  | true =>
    have step : b.step = .take { b with pending := .ofBytes later, opened := none, held } none := by
      simp [Buffer.step, opened, taken, held]
    refine ⟨{ b with pending := .ofBytes later, opened := none, held }, ?_, rfl, rfl, rfl⟩
    rw [yield_of_take step]
  | false =>
    have step : b.step = .take { b with pending := .ofBytes later, opened := none, held := [] }
        (some held.reverse) := by
      simp [Buffer.step, opened, taken, held]
    refine ⟨{ b with pending := .ofBytes later, opened := none, held := [] }, ?_, rfl, rfl, rfl⟩
    rw [yield_of_take step]

theorem step_of_short_header (closed : b.opened = none) (short : b.pending.size < headerSize) :
    b.step = .wait := by
  simp [step, closed, Backlog.take?_eq_none.mpr short]

theorem step_of_short_frame {more : Bool} {size : Nat} (opened : b.opened = some (more, size))
    (short : b.pending.size < size) : b.step = .wait := by
  simp [step, opened, Backlog.take?_eq_none.mpr short]

end Step

/-- What a buffer at a boundary finds wrong with the bytes it has is what is wrong with the first bad
header among them. -/
theorem flaw_eq_some_iff {b : Buffer} (closed : b.opened = none) {flaw : Flaw} :
    b.yield.2 = some flaw ↔ FirstBad b.limit b.pending.toBytes flaw := by
  -- From one boundary to the next the bytes get fewer.
  induction size : b.pending.size using Nat.strongRecOn generalizing b with
  | ind size ih =>
  subst size
  by_cases short : b.pending.size < headerSize
  · rw [yield_of_wait (step_of_short_header closed short)]
    simp [not_firstBad_short (by rwa [Backlog.length_toBytes])]
  have enough : headerSize ≤ b.pending.toBytes.length := by
    rw [Backlog.length_toBytes]
    omega
  obtain ⟨flag, length, part, width, bytes⟩ := exists_header enough
  have step := step_of_header closed width bytes
  rw [bytes]
  cases read : readHeader b.limit flag length with
  | error bad =>
    rw [read] at step
    rw [yield_of_refuse step, firstBad_of_bad width (readHeader_eq_error.mp read)]
    simp [eq_comm]
  | ok header =>
    obtain ⟨more, announced⟩ := header
    have good (other : Flaw) : ¬ BadHeader b.limit flag length.toNat other := fun bad => by
      simp [readHeader_eq_error.mpr bad] at read
    obtain rfl : length.toNat = announced := by
      unfold readHeader at read
      dsimp only at read
      grind
    rw [read] at step
    rw [yield_of_take step]
    by_cases part_short : part.length < length.toNat
    · rw [yield_of_wait (step_of_short_frame rfl part_short)]
      simp [not_firstBad_part width part_short good]
    · obtain ⟨frame, later, whole, rfl⟩ :
          ∃ frame later : Bytes, frame.length = length.toNat ∧ part = frame ++ later :=
        ⟨part.take length.toNat, part.drop length.toNat, by rw [List.length_take]; omega,
          (List.take_append_drop ..).symm⟩
      let reader : Buffer :=
        { b with pending := .ofBytes (frame ++ later), opened := some (more, length.toNat) }
      have announces : reader.opened = some (more, frame.length) :=
        congrArg (fun n => some (more, n)) whole.symm
      obtain ⟨next, same, limit, closed', rest⟩ := yield_of_frame announces rfl
      have fewer : next.pending.size < b.pending.size := by
        have lengths := congrArg List.length bytes
        rw [← Backlog.length_toBytes, ← Backlog.length_toBytes, rest, lengths]
        simp only [List.length_append, List.length_cons]
        omega
      rw [same, ih _ fewer closed' rfl, limit, rest, ← firstBad_behind width whole good]

end Buffer

/-- A bad header stays the first one whatever comes later. -/
theorem FirstBad.append {limit : Nat} {stream : Bytes} {flaw : Flaw}
    (first : FirstBad limit stream flaw) (later : Bytes) : FirstBad limit (stream ++ later) flaw := by
  let b : Buffer := { limit, pending := .ofBytes stream }
  have found : (Buffer.drain b).flaw = some flaw := (Buffer.flaw_eq_some_iff rfl).mpr first
  have kept : (b.more later).yield = b.yield := Buffer.yield_more_of_flaw later (by simp [found])
  exact (Buffer.flaw_eq_some_iff (b := b.more later) rfl).mp (kept ▸ found)

end Switchboard.Wire
