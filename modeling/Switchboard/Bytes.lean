/-!
# Byte strings

Frames, streams and packed records are lists of bytes. Numbers travel big-endian, and a byte is
shown to readers as two hexadecimal digits.
-/

namespace Switchboard

abbrev Bytes := List UInt8

namespace Bytes

/-- How many numbers `n` bytes can spell. -/
def capacity (n : Nat) : Nat :=
  1 <<< (8 * n)

/-- The low `n` bytes of a number, the most significant first. -/
def ofNat : Nat → Nat → Bytes
  | 0, _ => []
  | n + 1, value => ofNat n (value / 256) ++ [UInt8.ofNat (value % 256)]

/-- The number that big-endian bytes spell. -/
def toNat (bytes : Bytes) : Nat :=
  bytes.foldl (fun value byte => value * 256 + byte.toNat) 0

@[simp] theorem length_ofNat (n value : Nat) : (ofNat n value).length = n := by
  induction n generalizing value with
  | zero => rfl
  | succ n ih => simp [ofNat, ih]

theorem toNat_append_singleton (bytes : Bytes) (byte : UInt8) :
    toNat (bytes ++ [byte]) = toNat bytes * 256 + byte.toNat := by
  simp [toNat, List.foldl_append]

theorem capacity_succ (n : Nat) : capacity (n + 1) = 256 * capacity n := by
  rw [capacity, capacity, Nat.mul_succ, Nat.shiftLeft_add, Nat.shiftLeft_eq _ 8, Nat.mul_comm]

/-- Reading back what was written gives the number reduced to the width written. -/
theorem toNat_ofNat (n value : Nat) : toNat (ofNat n value) = value % capacity n := by
  induction n generalizing value with
  | zero => simp [ofNat, toNat, capacity, Nat.mod_one]
  | succ n ih =>
    have low : (UInt8.ofNat (value % 256)).toNat = value % 256 := by simp
    rw [ofNat, toNat_append_singleton, ih, low, capacity_succ, Nat.mod_mul]
    omega

/-- Writing what was read gives the bytes back. -/
theorem ofNat_toNat (bytes : Bytes) : ofNat bytes.length (toNat bytes) = bytes := by
  generalize length : bytes.length = n
  induction n generalizing bytes with
  | zero => exact (List.eq_nil_of_length_eq_zero length).symm
  | succ n ih =>
    have filled : bytes ≠ [] := List.ne_nil_of_length_eq_add_one length
    rw [← List.dropLast_concat_getLast filled, toNat_append_singleton, ofNat]
    have low := (bytes.getLast filled).toNat_lt
    have high : (toNat bytes.dropLast * 256 + (bytes.getLast filled).toNat) / 256 =
        toNat bytes.dropLast := by omega
    have rest : (toNat bytes.dropLast * 256 + (bytes.getLast filled).toNat) % 256 =
        (bytes.getLast filled).toNat := by omega
    rw [high, rest, ih _ (by rw [List.length_dropLast, length]; rfl), UInt8.ofNat_toNat]

/-- The value of `n` big-endian bytes as a signed number in two's complement. -/
def toInt (bytes : Bytes) : Int :=
  Int.bmod bytes.toNat (capacity bytes.length)

/-- The `n` bytes of a signed number in two's complement. -/
def ofInt (n : Nat) (value : Int) : Bytes :=
  ofNat n (value % capacity n).toNat

def hexDigit (digit : Nat) : Char :=
  if digit < 10 then Char.ofNat (48 + digit) else Char.ofNat (87 + digit)

/-- The two lower-case hexadecimal digits of a byte. -/
def hexByte (byte : UInt8) : List Char :=
  [hexDigit (byte.toNat / 16), hexDigit (byte.toNat % 16)]

def hex (bytes : Bytes) : String :=
  String.ofList (bytes.flatMap hexByte)

/-- A byte as messages for people show it, such as `0x0a`. -/
def shownByte (byte : UInt8) : String :=
  "0x" ++ hex [byte]

end Bytes

end Switchboard
