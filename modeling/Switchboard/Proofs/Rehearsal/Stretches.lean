import Switchboard.Proofs.Rehearsal.Reception
import Switchboard.Rehearsal.Stretch

/-!
# Stretches stand for their bytes

A stretch is laid out, read and received as the bytes that it describes: `toBytes_layout`, `portions_eq`
and `exhausts_items`. So `receive_until_fault` holds of a peer that sends stretches, with their bytes for
the pieces.
-/

namespace Switchboard.Rehearsal

open Wire

namespace Line

/-- A run of full portions of one byte. -/
theorem portions_replicate (count : Nat) (byte : UInt8) (later : Bytes) :
    portions (List.replicate (readBufferSize * count) byte ++ later) =
      List.replicate count (List.replicate readBufferSize byte) ++ portions later := by
  induction count with
  | zero => rfl
  | succ count ih =>
    have first : List.replicate (readBufferSize * (count + 1)) byte ++ later =
        List.replicate readBufferSize byte ++
          (List.replicate (readBufferSize * count) byte ++ later) := by
      rw [Nat.mul_succ, Nat.add_comm, ← List.replicate_append_replicate, List.append_assoc]
    have full : (List.replicate readBufferSize byte).length = readBufferSize := List.length_replicate
    have some : List.replicate (readBufferSize * (count + 1)) byte ++ later ≠ [] := by
      refine List.append_ne_nil_of_left_ne_nil (fun none => ?_) _
      rw [List.replicate_eq_nil_iff, readBufferSize] at none
      omega
    rw [portions_of_ne_nil some, first, List.take_left' full, List.drop_left' full, ih,
      List.replicate_succ, List.cons_append]

/-- One read is enough for what one read brings. -/
theorem flatMap_portions (piece : Bytes) : (portions piece).flatMap portions = portions piece := by
  induction piece using portions.induct with
  | case1 => rw [portions_nil]; rfl
  | case2 piece some ih =>
    have filled : piece.take readBufferSize ≠ [] := by
      rw [ne_eq, List.take_eq_nil_iff]
      exact not_or.mpr ⟨by decide, some⟩
    rw [portions_of_ne_nil some, List.flatMap_cons, ih,
      portions_eq_singleton filled (List.length_take_le ..), List.singleton_append]

end Line

namespace Stretch

theorem toBytes_layout (frames : List Stretch) :
    (layout frames).toBytes = Message.layout (frames.map toBytes) := by
  induction frames using layout.induct with
  | case1 => rfl
  | case2 frame => simp [layout, Message.layout, Run.toBytes]
  | case3 frame next rest ih =>
    have append (s t : Stretch) : toBytes (s ++ t) = s.toBytes ++ t.toBytes := List.flatMap_append
    rw [layout, List.cons_append, toBytes_cons, append, ih]
    simp [Message.layout, Run.toBytes]

theorem toBytes_eq_nil {s : Stretch} : s.toBytes = [] ↔ s.length = 0 := by
  rw [← List.length_eq_zero_iff, length_toBytes]

/-- What is split off is what is read first. -/
theorem portions_split {s : Stretch} (some : s.length ≠ 0) :
    Line.portions s.toBytes = s.split.1 ++ Line.portions s.split.2.toBytes := by
  have portion : Line.portions s.toBytes =
      [s.front readBufferSize] ++ Line.portions (s.drop readBufferSize).toBytes := by
    rw [Line.portions_of_ne_nil (mt toBytes_eq_nil.mp some), front_eq, toBytes_drop]
    rfl
  unfold split
  dsimp only
  split
  · exact portion
  · exact portion
  · next byte count rest =>
    split
    · dsimp only
      exact portion
    · dsimp only
      rw [toBytes_cons, toBytes_cons, Run.toBytes, Run.toBytes, ← Line.portions_replicate,
        ← List.append_assoc, List.replicate_append_replicate, Nat.div_add_mod]

theorem portions_eq (s : Stretch) : s.portions = Line.portions s.toBytes := by
  induction s using portions.induct with
  | case1 s empty =>
    rw [portions, dif_pos empty, toBytes_eq_nil.mpr (s.isEmpty_iff_length.mp empty), Line.portions_nil]
  | case2 s some ih =>
    rw [portions, dif_neg some, ih, portions_split (mt s.isEmpty_iff_length.mpr some)]

/-- The pieces that a script gives for a stretch are read as all of it. -/
theorem exists_pieces (s : Stretch) :
    ∃ pieces : List Bytes, s.items = pieces.map .bytes ∧
      pieces.flatMap Line.portions = Line.portions s.toBytes := by
  unfold items
  split
  · next empty =>
    refine ⟨[[]], rfl, ?_⟩
    rw [toBytes_eq_nil.mpr (s.isEmpty_iff_length.mp empty), List.flatMap_singleton]
  · exact ⟨s.portions, rfl, by rw [portions_eq, Line.flatMap_portions]⟩

theorem exists_pieces_flatMap (stretches : List Stretch) :
    ∃ pieces : List Bytes, stretches.flatMap items = pieces.map .bytes ∧
      pieces.flatMap Line.portions = (stretches.map toBytes).flatMap Line.portions := by
  induction stretches with
  | nil => exact ⟨[], rfl, rfl⟩
  | cons s stretches ih =>
    obtain ⟨first, items, reads⟩ := s.exists_pieces
    obtain ⟨later, items', reads'⟩ := ih
    refine ⟨first ++ later, ?_, ?_⟩
    · rw [List.flatMap_cons, items, items', List.map_append]
    · rw [List.flatMap_append, reads, reads', List.map_cons, List.flatMap_cons]

end Stretch

/-- A peer that sends stretches and then closes is received from as one that sends their bytes. -/
theorem Line.exhausts_items (p : Patience) (limit number now : Nat) (writes : List WriteRule)
    (stretches : List Stretch) (messages : List Message) (f : Fault) :
    let line (reads : List ReadItem) :=
      Script.line { reads := reads ++ [.eof], writes } number limit
    Exhausts p (line (stretches.flatMap Stretch.items)) now messages f ↔
      Exhausts p (line ((stretches.map Stretch.toBytes).map .bytes)) now messages f := by
  intro line
  obtain ⟨pieces, items, reads⟩ := Stretch.exists_pieces_flatMap stretches
  have received := exhausts_pieces p limit number now writes pieces
  have received' := exhausts_pieces p limit number now writes (stretches.map Stretch.toBytes)
  rw [reads, ← items] at received
  constructor
  · intro other
    obtain ⟨rfl, rfl⟩ := other.unique received
    exact received'
  · intro other
    obtain ⟨rfl, rfl⟩ := other.unique received'
    exact received

section Unbegun

variable {left : Nat} {given : List (List ReadItem)}

theorem unbegun_of_le (all : given.flatten.length ≤ left) : unbegun given left = given.length := by
  cases given with
  | nil => rfl
  | cons items rest => exact if_pos all

/-- If some items are left of one thing, or all of those behind it, then the things behind it are
counted. -/
theorem unbegun_append {before : List (List ReadItem)} {items : List ReadItem}
    (behind : given.flatten.length ≤ left) (begun : left < (items :: given).flatten.length) :
    unbegun (before ++ items :: given) left = given.length := by
  induction before with
  | nil => exact (if_neg (Nat.not_le.mpr begun)).trans (unbegun_of_le behind)
  | cons first before ih =>
    have more : left < (first :: (before ++ items :: given)).flatten.length := by
      rw [List.flatten_cons, List.flatten_append, List.length_append, List.length_append]
      omega
    rw [List.cons_append, unbegun, if_neg (Nat.not_le.mpr more), ih]

end Unbegun

end Switchboard.Rehearsal
