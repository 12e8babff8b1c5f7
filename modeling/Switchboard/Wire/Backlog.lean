import Switchboard.Bytes

/-!
# Backlogs

A backlog holds the bytes of a stream that have arrived and were not looked at yet. They arrive in
pieces of any size and are taken off the front. A piece is joined to those before it only when enough
bytes have arrived, so that adding a piece costs no more than the piece is long.

`toBytes` is what a backlog holds: `toBytes_add` and `take?_eq_some` say what adding and taking do to
it.
-/

namespace Switchboard.Wire

structure Backlog where
  /-- The bytes at the front. -/
  front : Bytes
  /-- The pieces behind them, the latest first. -/
  pieces : List Bytes := []
  size : Nat
  size_eq : size = (front ++ pieces.reverse.flatten).length
  deriving DecidableEq, Repr

namespace Backlog

def toBytes (b : Backlog) : Bytes :=
  match b.pieces with
  | [] => b.front
  | pieces => b.front ++ pieces.reverse.flatten

theorem toBytes_eq (b : Backlog) : b.toBytes = b.front ++ b.pieces.reverse.flatten := by
  unfold toBytes
  split
  · next h => simp only [h, List.reverse_nil, List.flatten_nil, List.append_nil]
  · rfl

@[simp] theorem length_toBytes (b : Backlog) : b.toBytes.length = b.size := by
  rw [toBytes_eq, b.size_eq]

def ofBytes (bytes : Bytes) : Backlog where
  front := bytes
  size := bytes.length
  size_eq := by simp only [List.reverse_nil, List.flatten_nil, List.append_nil]

@[simp] theorem toBytes_ofBytes (bytes : Bytes) : (ofBytes bytes).toBytes = bytes := rfl

/-- Bytes that arrive behind those there are. -/
def add (b : Backlog) (bytes : Bytes) : Backlog :=
  if b.size = 0 then ofBytes bytes
  else
    { front := b.front
      pieces := bytes :: b.pieces
      size := b.size + bytes.length
      size_eq := by
        rw [b.size_eq]
        simp only [List.reverse_cons, List.flatten_append, List.flatten_cons, List.flatten_nil,
          List.append_nil, List.length_append, Nat.add_assoc] }

@[simp] theorem toBytes_add (b : Backlog) (bytes : Bytes) :
    (b.add bytes).toBytes = b.toBytes ++ bytes := by
  unfold add
  split
  · next h =>
    have : b.toBytes = [] := List.eq_nil_of_length_eq_zero (b.length_toBytes.trans h)
    rw [toBytes_ofBytes, this, List.nil_append]
  · simp only [toBytes_eq, List.reverse_cons, List.flatten_append, List.flatten_cons,
      List.flatten_nil, List.append_nil, List.append_assoc]

/-- The first `n` bytes and what is behind them, if so many have arrived. -/
def take? (b : Backlog) (n : Nat) : Option (Bytes × Backlog) :=
  if b.size < n then none
  else
    let bytes := b.toBytes
    some (bytes.take n,
      { front := bytes.drop n
        size := b.size - n
        size_eq := by
          simp only [bytes, List.reverse_nil, List.flatten_nil, List.append_nil, List.length_drop,
            length_toBytes] })

theorem take?_eq_none {b : Backlog} {n : Nat} : b.take? n = none ↔ b.size < n := by
  unfold take?
  split
  · next h => simp only [h]
  · next h => simp only [h, reduceCtorEq]

/-- What is taken and what remains make up what there was. -/
theorem take?_eq_some {b rest : Backlog} {n : Nat} {taken : Bytes}
    (h : b.take? n = some (taken, rest)) :
    taken.length = n ∧ b.toBytes = taken ++ rest.toBytes ∧ b.size = n + rest.size := by
  unfold take? at h
  split at h
  · cases h
  · next enough =>
    cases h
    refine ⟨?_, ?_, ?_⟩
    · rw [List.length_take, length_toBytes]
      omega
    · exact (List.take_append_drop n b.toBytes).symm
    · show b.size = n + (b.size - n)
      omega

end Backlog

end Switchboard.Wire
