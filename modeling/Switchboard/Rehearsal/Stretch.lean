import Switchboard.Rehearsal.Line

/-!
# Long stretches of bytes

What a peer sends may be too long to be written out, such as a frame of more bytes than a header can
count. A `Stretch` describes bytes by runs, and `toBytes` is what it describes. It is read portion by
portion; the portions of a long run are all the same, so they are written out once.
-/

namespace Switchboard.Rehearsal

inductive Run where
  | bytes (b : Bytes)
  /-- One byte many times. -/
  | fill (byte : UInt8) (count : Nat)
  deriving DecidableEq, Repr

namespace Run

def toBytes : Run → Bytes
  | .bytes b => b
  | .fill byte count => List.replicate count byte

def length : Run → Nat
  | .bytes b => b.length
  | .fill _ count => count

@[simp] theorem length_toBytes (r : Run) : r.toBytes.length = r.length := by
  cases r <;> simp [toBytes, length]

def isEmpty : Run → Bool
  | .bytes b => b.isEmpty
  | .fill _ count => count == 0

@[simp] theorem isEmpty_iff_length (r : Run) : r.isEmpty = true ↔ r.length = 0 := by
  cases r <;> simp [isEmpty, length]

/-- The first `n` bytes. -/
def front (r : Run) (n : Nat) : Bytes :=
  match r with
  | .bytes b => b.take n
  | .fill byte count => List.replicate (min n count) byte

@[simp] theorem front_eq (r : Run) (n : Nat) : r.front n = r.toBytes.take n := by
  cases r <;> simp [toBytes, front]

def drop (r : Run) (n : Nat) : Run :=
  match r with
  | .bytes b => .bytes (b.drop n)
  | .fill byte count => .fill byte (count - n)

@[simp] theorem toBytes_drop (r : Run) (n : Nat) : (r.drop n).toBytes = r.toBytes.drop n := by
  cases r <;> simp [toBytes, drop]

@[simp] theorem length_drop (r : Run) (n : Nat) : (r.drop n).length = r.length - n := by
  cases r <;> simp [length, drop]

end Run

abbrev Stretch := List Run

namespace Stretch

def toBytes (s : Stretch) : Bytes :=
  s.flatMap Run.toBytes

@[simp] theorem toBytes_cons (r : Run) (rest : Stretch) :
    toBytes (r :: rest) = r.toBytes ++ toBytes rest := rfl

def length : Stretch → Nat
  | [] => 0
  | r :: rest => r.length + length rest

@[simp] theorem length_toBytes (s : Stretch) : s.toBytes.length = s.length := by
  induction s with
  | nil => rfl
  | cons r rest ih => rw [toBytes_cons, List.length_append, ih, r.length_toBytes, length]

def isEmpty (s : Stretch) : Bool :=
  s.all Run.isEmpty

@[simp] theorem isEmpty_iff_length (s : Stretch) : s.isEmpty = true ↔ s.length = 0 := by
  induction s with
  | nil => exact ⟨fun _ => rfl, fun _ => rfl⟩
  | cons r rest ih =>
    rw [isEmpty, List.all_cons, Bool.and_eq_true, r.isEmpty_iff_length, length, Nat.add_eq_zero_iff]
    exact and_congr_right fun _ => ih

/-- The first `n` bytes. -/
def front (s : Stretch) (n : Nat) : Bytes :=
  match s with
  | [] => []
  | r :: rest =>
    let first := r.front n
    first ++ front rest (n - first.length)

@[simp] theorem front_eq (s : Stretch) (n : Nat) : s.front n = s.toBytes.take n := by
  induction s generalizing n with
  | nil => exact List.take_nil.symm
  | cons r rest ih =>
    have left : n - (r.toBytes.take n).length = n - r.toBytes.length := by
      rw [List.length_take]
      omega
    simp only [front, r.front_eq, ih, left, toBytes_cons, List.take_append]

def drop (s : Stretch) (n : Nat) : Stretch :=
  match s with
  | [] => []
  | r :: rest =>
    let left := r.drop n
    if left.isEmpty then drop rest (n - r.length) else left :: rest

@[simp] theorem toBytes_drop (s : Stretch) (n : Nat) : (s.drop n).toBytes = s.toBytes.drop n := by
  induction s generalizing n with
  | nil => exact List.drop_nil.symm
  | cons r rest ih =>
    simp only [drop, toBytes_cons, List.drop_append, r.length_toBytes]
    split
    · next gone =>
      rw [Run.isEmpty_iff_length, r.length_drop] at gone
      have nothing : r.toBytes.drop n = [] := List.drop_eq_nil_of_le (by rw [r.length_toBytes]; omega)
      rw [ih, nothing, List.nil_append]
    · next part =>
      rw [Run.isEmpty_iff_length, r.length_drop] at part
      have all : n - r.length = 0 := by omega
      rw [toBytes_cons, r.toBytes_drop, all, List.drop_zero]

@[simp] theorem length_drop (s : Stretch) (n : Nat) : (s.drop n).length = s.length - n := by
  rw [← length_toBytes, toBytes_drop, List.length_drop, length_toBytes]

/-- A message as it travels on a stream. -/
def layout : List Stretch → Stretch
  | [] => []
  | [frame] => .bytes (Wire.frameHeader false frame.length) :: frame
  | frame :: next :: rest =>
    .bytes (Wire.frameHeader true frame.length) :: frame ++ layout (next :: rest)

/-- Some first portions, and what is behind them. -/
def split (s : Stretch) : List Bytes × Stretch :=
  let portion := fun () => ([s.front readBufferSize], s.drop readBufferSize)
  match s with
  | [] | .bytes _ :: _ => portion ()
  | .fill byte count :: rest =>
    if count < readBufferSize then portion ()
    else
      (List.replicate (count / readBufferSize) (List.replicate readBufferSize byte),
        .fill byte (count % readBufferSize) :: rest)

theorem length_split {s : Stretch} (some : s.length ≠ 0) : s.split.2.length < s.length := by
  have fewer : (s.drop readBufferSize).length < s.length := by
    rw [length_drop, readBufferSize]
    omega
  unfold split
  dsimp only
  split
  · exact fewer
  · exact fewer
  · next byte count rest =>
    split
    · dsimp only
      exact fewer
    · next long =>
      have left : count % readBufferSize < readBufferSize := Nat.mod_lt _ (by decide)
      exact Nat.add_lt_add_right (Nat.lt_of_lt_of_le left (Nat.le_of_not_lt long)) _

/-- What is read, read by read. -/
def portions (s : Stretch) : List Bytes :=
  if _h : s.isEmpty then [] else s.split.1 ++ portions s.split.2
termination_by s.length
decreasing_by exact length_split fun none => _h (s.isEmpty_iff_length.mpr none)

/-- What a script gives to read. -/
def items (s : Stretch) : List ReadItem :=
  if s.isEmpty then [.bytes []] else s.portions.map .bytes

end Stretch

/-- How many of the things that a script gives to read no read has come to yet, if each of them is given by
some items and so many items are left. -/
def unbegun (given : List (List ReadItem)) (left : Nat) : Nat :=
  match given with
  | [] => 0
  | items :: rest =>
    if (items :: rest).flatten.length ≤ left then rest.length + 1 else unbegun rest left

end Switchboard.Rehearsal
