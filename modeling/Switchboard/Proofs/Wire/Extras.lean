import Mathlib.Data.List.Induction
import Mathlib.Data.List.Perm.Basic
import Switchboard.Wire.Message

/-!
# The extras of a message

Extras hold one frame for each tag byte. `Extras.get?_ofList` says that it is the last one of that tag,
and `Extras.ofList_append_replaced` what becomes of the others: putting frames in loses just those that a
later one of the same tag replaces.
-/

namespace Switchboard.Wire

open scoped List

/-- The last of some frames with a tag. -/
def lastOf? (frames : List (UInt8 × Bytes)) (tag : UInt8) : Option Bytes :=
  (frames.reverse.find? (·.1 = tag)).map Prod.snd

/-- The frames that a later one of the same tag replaces. -/
@[grind] def replaced : List (UInt8 × Bytes) → List (UInt8 × Bytes)
  | [] => []
  | entry :: rest =>
    if entry.1 ∈ rest.map Prod.fst then entry :: replaced rest else replaced rest

@[simp] theorem lastOf?_nil (tag : UInt8) : lastOf? [] tag = none := rfl

@[grind =] theorem lastOf?_concat (frames : List (UInt8 × Bytes)) (entry : UInt8 × Bytes)
    (tag : UInt8) :
    lastOf? (frames ++ [entry]) tag = if entry.1 = tag then some entry.2 else lastOf? frames tag := by
  unfold lastOf?
  by_cases same : entry.1 = tag <;> simp [same]

theorem lastOf?_eq_none {frames : List (UInt8 × Bytes)} {tag : UInt8} :
    lastOf? frames tag = none ↔ tag ∉ frames.map Prod.fst := by
  induction frames using List.reverseRecOn with
  | nil => simp
  | append_singleton frames entry ih => grind

/-- No frame is replaced where every tag is there once. -/
theorem replaced_eq_nil {frames : List (UInt8 × Bytes)} :
    replaced frames = [] ↔ (frames.map Prod.fst).Nodup := by
  induction frames with
  | nil => simp [replaced]
  | cons entry rest ih => grind

theorem lastOf?_cons (entry : UInt8 × Bytes) (rest : List (UInt8 × Bytes)) (tag : UInt8) :
    lastOf? (entry :: rest) tag =
      (lastOf? rest tag).or (if entry.1 = tag then some entry.2 else none) := by
  unfold lastOf?
  by_cases same : entry.1 = tag <;> simp [List.find?_append, same]

/-- One more frame replaces the last one of its tag. -/
theorem replaced_concat (frames : List (UInt8 × Bytes)) (entry : UInt8 × Bytes) :
    replaced (frames ++ [entry]) ~
      replaced frames ++ ((lastOf? frames entry.1).map (entry.1, ·)).toList := by
  induction frames with
  | nil => simp [replaced]
  | cons first rest ih =>
    simp only [List.cons_append, replaced, List.map_append, List.mem_append, lastOf?_cons]
    by_cases later : first.1 ∈ rest.map Prod.fst
    · -- What is replaced already stays so, and is not the last one of its tag.
      have last : (lastOf? rest entry.1).or (if first.1 = entry.1 then some first.2 else none) =
          lastOf? rest entry.1 := by
        cases found : lastOf? rest entry.1 with
        | some frame => rfl
        | none => grind [lastOf?_eq_none]
      simpa [later, last] using ih
    · by_cases same : first.1 = entry.1
      · have only : lastOf? rest entry.1 = none := lastOf?_eq_none.mpr (same ▸ later)
        have kept : replaced (rest ++ [entry]) ~ replaced rest := by simpa [only] using ih
        have whole : (entry.1, first.2) = first := by rw [← same]
        simp only [same, only, whole, List.map_cons, List.map_nil, List.mem_singleton, or_true,
          if_true, Option.none_or, Option.map_some, Option.toList_some]
        simp only [same] at later
        simp only [later, if_false]
        exact (kept.cons first).trans (List.perm_append_singleton first _).symm
      · simpa [later, same] using ih

namespace Extras

/-- The tags go up, so that each of them is there once. -/
@[grind] def Ascending (extras : Extras) : Prop :=
  extras.Pairwise fun first later => first.1 < later.1

@[grind =] theorem ascending_cons {entry : UInt8 × Bytes} {rest : Extras} :
    Ascending (entry :: rest) ↔ (∀ later ∈ rest, entry.1 < later.1) ∧ Ascending rest :=
  List.pairwise_cons

@[grind =] theorem get?_cons (entry : UInt8 × Bytes) (rest : Extras) (tag : UInt8) :
    get? (entry :: rest) tag = if entry.1 = tag then some entry.2 else get? rest tag := by
  unfold get?
  by_cases same : entry.1 = tag <;> simp [same]

@[simp, grind =] theorem get?_nil (tag : UInt8) : get? [] tag = none := rfl

/-- Putting a frame in changes what is found under its tag only. -/
theorem get?_insert (extras : Extras) (tag other : UInt8) (frame : Bytes) :
    (extras.insert tag frame).get? other =
      if tag = other then some frame else extras.get? other := by
  fun_induction insert extras tag frame <;> grind

@[grind →] theorem mem_insert {extras : Extras} {tag : UInt8} {frame : Bytes} {entry : UInt8 × Bytes}
    (mem : entry ∈ extras.insert tag frame) : entry = (tag, frame) ∨ entry ∈ extras := by
  fun_induction insert extras tag frame <;> grind

theorem Ascending.insert {extras : Extras} (ascending : extras.Ascending) (tag : UInt8)
    (frame : Bytes) : (extras.insert tag frame).Ascending := by
  fun_induction Extras.insert extras tag frame <;> grind

theorem get?_eq_none_of_lt {extras : Extras} {tag : UInt8}
    (above : ∀ later ∈ extras, tag < later.1) : extras.get? tag = none := by
  induction extras <;> grind

/-- A frame that is put in takes the place of the one found under its tag. -/
theorem insert_perm {extras : Extras} (ascending : extras.Ascending) (tag : UInt8)
    (frame : Bytes) :
    extras.insert tag frame ++ ((extras.get? tag).map (tag, ·)).toList ~
      (tag, frame) :: extras := by
  fun_induction Extras.insert extras tag frame with
  | case1 => simp
  | case2 t f rest before =>
    have absent : get? ((t, f) :: rest) tag = none := by
      apply get?_eq_none_of_lt
      grind
    simp [absent]
  | case3 f rest =>
    simp [get?_cons]
  | case4 t f rest before other ih =>
    rw [get?_cons, if_neg (Ne.symm other)]
    have rest_ascending := (ascending_cons.mp ascending).2
    exact ((ih rest_ascending).cons (t, f)).trans (List.Perm.swap ..)

theorem ofList_concat (frames : List (UInt8 × Bytes)) (entry : UInt8 × Bytes) :
    ofList (frames ++ [entry]) = (ofList frames).insert entry.1 entry.2 := by
  simp [ofList]

theorem ascending_ofList (frames : List (UInt8 × Bytes)) : (ofList frames).Ascending := by
  induction frames using List.reverseRecOn with
  | nil => exact .nil
  | append_singleton frames entry ih =>
    rw [ofList_concat]
    exact ih.insert ..

theorem Ascending.nodup {extras : Extras} (ascending : extras.Ascending) :
    (extras.map Prod.fst).Nodup := by
  rw [List.nodup_iff_pairwise_ne, List.pairwise_map]
  exact ascending.imp fun before => UInt8.ne_of_lt before

/-- Under each tag stands the last frame of that tag. -/
theorem get?_ofList (frames : List (UInt8 × Bytes)) (tag : UInt8) :
    (ofList frames).get? tag = lastOf? frames tag := by
  induction frames using List.reverseRecOn with
  | nil => rfl
  | append_singleton frames entry ih =>
    rw [ofList_concat, get?_insert, lastOf?_concat, ih]

/-- Extras keep all frames but the replaced ones. -/
theorem ofList_append_replaced (frames : List (UInt8 × Bytes)) :
    ofList frames ++ replaced frames ~ frames := by
  induction frames using List.reverseRecOn with
  | nil => rfl
  | append_singleton frames entry ih =>
    have inserted := insert_perm (ascending_ofList frames) entry.1 entry.2
    rw [get?_ofList] at inserted
    let old := ((lastOf? frames entry.1).map (entry.1, ·)).toList
    calc
      ofList (frames ++ [entry]) ++ replaced (frames ++ [entry])
        ~ (ofList frames).insert entry.1 entry.2 ++ (replaced frames ++ old) := by
          rw [ofList_concat]
          exact (replaced_concat frames entry).append_left _
      _ ~ (ofList frames).insert entry.1 entry.2 ++ old ++ replaced frames := by
          rw [List.append_assoc]
          exact List.perm_append_comm.append_left _
      _ ~ entry :: ofList frames ++ replaced frames := inserted.append_right _
      _ ~ entry :: frames := ih.cons entry
      _ ~ frames ++ [entry] := (List.perm_append_singleton entry frames).symm

end Extras

end Switchboard.Wire
