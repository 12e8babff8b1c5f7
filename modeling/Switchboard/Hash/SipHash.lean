import Switchboard.Bytes

/-!
# SipHash

The keyed hash SipHash with one round for each block and three at the end.
-/

namespace Switchboard.SipHash

structure State where
  v0 : UInt64
  v1 : UInt64
  v2 : UInt64
  v3 : UInt64
  deriving DecidableEq, Repr

/-- Rotate to the left by some bits, fewer than 64. -/
def rotate (x n : UInt64) : UInt64 :=
  x <<< n ||| x >>> (64 - n)

namespace State

def start (k0 k1 : UInt64) : State where
  v0 := k0 ^^^ 0x736f6d6570736575
  v1 := k1 ^^^ 0x646f72616e646f6d
  v2 := k0 ^^^ 0x6c7967656e657261
  v3 := k1 ^^^ 0x7465646279746573

def round (s : State) : State :=
  let v0 := s.v0 + s.v1
  let v1 := rotate s.v1 13 ^^^ v0
  let v2 := s.v2 + s.v3
  let v3 := rotate s.v3 16 ^^^ v2
  let v0' := rotate v0 32 + v3
  let v3 := rotate v3 21 ^^^ v0'
  let v2' := v2 + v1
  let v1 := rotate v1 17 ^^^ v2'
  ⟨v0', v1, rotate v2' 32, v3⟩

/-- Take in one block of 64 bits. -/
def absorb (s : State) (block : UInt64) : State :=
  let s := { s with v3 := s.v3 ^^^ block }.round
  { s with v0 := s.v0 ^^^ block }

def finish (s : State) : UInt64 :=
  let s := { s with v2 := s.v2 ^^^ 0xff }.round.round.round
  s.v0 ^^^ s.v1 ^^^ s.v2 ^^^ s.v3

end State

/-- The number that bytes spell, the least significant first. -/
def littleEndian (bytes : Bytes) : UInt64 :=
  UInt64.ofNat (Bytes.toNat bytes.reverse)

/-- Blocks of eight bytes; the last block is filled up with zeros and ends in the length's low byte. -/
def blocks (length : Nat) (bytes : Bytes) : List UInt64 :=
  match bytes with
  | a :: b :: c :: d :: e :: f :: g :: h :: rest =>
    littleEndian [a, b, c, d, e, f, g, h] :: blocks length rest
  | rest => [littleEndian rest ||| UInt64.ofNat (length % 256) <<< 56]

def hash (k0 k1 : UInt64) (bytes : Bytes) : UInt64 :=
  ((blocks bytes.length bytes).foldl State.absorb (.start k0 k1)).finish

end Switchboard.SipHash
