import Switchboard.Plan.Info
import Switchboard.Proofs.MsgPack.RoundTrip

/-!
# A plan record is read as it was packed

A record is packed part by part, and each part is read into a draft that lacks it, whatever else the
draft has (`Info.reads_part`). So parts of a record can be read one after the other as long as none
comes twice (`Info.rounds_parts`), and all of them make up the record (`Info.unpack_pack`).
-/

namespace Switchboard.Plan.Info

open MsgPack (packText packInt packMap)
open MsgPack.Reader (Rounds Reads member reads_member reads_record reads_integer reads_bool
  reads_choice reads_optional_none reads_optional_text)

theorem reads_int32 (x : Int32) : Reads readInt32 (packInt x.toInt) x := by
  have low : (-0x80000000 : Int) ≤ x.toInt := x.le_toInt
  have high : x.toInt < 0x80000000 := x.toInt_lt
  have below : x.toInt ≤ 0x7FFFFFFF := by omega
  have contained : (Shape.IntKind.signed 32).contains x.toInt :=
    Bool.and_eq_true_iff.mpr ⟨decide_eq_true low, decide_eq_true below⟩
  have reads := (reads_integer contained (by omega) (by omega)).map Int32.ofInt
  rwa [Int32.ofInt_toInt] at reads

theorem reads_int64 (x : Int64) : Reads readInt64 (packInt x.toInt) x := by
  have low : (-0x8000000000000000 : Int) ≤ x.toInt := x.le_toInt
  have high : x.toInt < 0x8000000000000000 := x.toInt_lt
  have below : x.toInt ≤ 0x7FFFFFFFFFFFFFFF := by omega
  have contained : (Shape.IntKind.signed 64).contains x.toInt :=
    Bool.and_eq_true_iff.mpr ⟨decide_eq_true low, decide_eq_true below⟩
  have reads := (reads_integer contained low (by omega)).map Int64.ofInt
  rwa [Int64.ofInt_toInt] at reads

inductive Part where
  | kind | value | repeats | description | noSkip | time | skips
  deriving DecidableEq, Repr

namespace Part

def all : List Part :=
  [kind, value, repeats, description, noSkip, time, skips]

def name : Part → String
  | kind => "plan_type"
  | value => "plan_value"
  | repeats => "plan_repeat"
  | description => "description"
  | noSkip => "no_skip"
  | time => "plan_time"
  | skips => "skip_set"

def packed (p : Info) : Part → Bytes
  | kind => packText p.kind.key
  | value => packInt p.value.toInt
  | repeats => packInt p.repeats.toInt
  | description => p.description.elim MsgPack.packNil packText
  | noSkip => MsgPack.packBool p.noSkip
  | time => packInt p.time.toInt
  | skips => packInt p.skips.toInt

/-- The draft with this part of a record. -/
def put (p : Info) (d : Draft) : Part → Draft
  | kind => { d with kind := some p.kind }
  | value => { d with value := some p.value }
  | repeats => { d with repeats := some p.repeats }
  | description => { d with description := some p.description }
  | noSkip => { d with noSkip := some p.noSkip }
  | time => { d with time := some p.time }
  | skips => { d with skips := some p.skips }

def isIn (d : Draft) : Part → Bool
  | kind => d.kind.isSome
  | value => d.value.isSome
  | repeats => d.repeats.isSome
  | description => d.description.isSome
  | noSkip => d.noSkip.isSome
  | time => d.time.isSome
  | skips => d.skips.isSome

theorem isIn_put_of_ne (p : Info) (d : Draft) {part other : Part} (differ : other ≠ part) :
    other.isIn (part.put p d) = other.isIn d := by
  cases part <;> cases other <;> first | rfl | exact absurd rfl differ

/-- A draft that lacks several parts still lacks the others when one of them is put. -/
theorem isIn_put_of_notMem (p : Info) {d : Draft} {part : Part} {rest : List Part}
    (once : part ∉ rest) (new : ∀ other ∈ part :: rest, other.isIn d = false) :
    ∀ other ∈ rest, other.isIn (part.put p d) = false := by
  intro other mem
  have differ : other ≠ part := by
    rintro rfl
    exact once mem
  rw [isIn_put_of_ne p d differ]
  exact new other (List.mem_cons_of_mem _ mem)

end Part

theorem pack_eq (p : Info) :
    p.pack = packMap (Part.all.map fun part => (part.name, part.packed p)) :=
  rfl

/-- MessagePack writes the length of a text in four bytes at most. -/
def Packable (p : Info) : Prop :=
  ∀ text ∈ p.description, (Utf8.encode text).length < 0x100000000

section

variable {p : Info} (fits : p.Packable)
include fits

/-- A part of a record is read from where it was packed. -/
theorem reads_part {d : Draft} {part : Part} (new : part.isIn d = false) :
    (member record d).Reads (packText part.name ++ part.packed p) (part.put p d) := by
  have short : (Utf8.encode part.name).length < 0x100000000 := by
    cases part <;> decide
  cases part with
  | kind =>
    have named : (Utf8.encode p.kind.key).length < 0x100000000 := by
      cases p.kind <;> decide
    have known : (Kind.all.map Kind.key).contains p.kind.key := by
      cases p.kind <;> decide
    have reads := (reads_choice named known).map fun key => { d with kind := Kind.ofKey? key }
    rw [Kind.ofKey?_key] at reads
    exact reads_member short rfl new reads
  | value => exact reads_member short rfl new ((reads_int32 p.value).map _)
  | repeats => exact reads_member short rfl new ((reads_int32 p.repeats).map _)
  | description =>
    have reads : (MsgPack.Reader.optional MsgPack.Reader.text).Reads
        (Part.packed p .description) p.description := by
      unfold Part.packed
      cases given : p.description with
      | none => exact reads_optional_none _
      | some text => exact reads_optional_text (fits text given)
    exact reads_member short rfl new (reads.map _)
  | noSkip => exact reads_member short rfl new ((reads_bool p.noSkip).map _)
  | time => exact reads_member short rfl new ((reads_int64 p.time).map _)
  | skips => exact reads_member short rfl new ((reads_int32 p.skips).map _)

/-- Parts that differ are read one after another, in any order. -/
theorem rounds_parts {parts : List Part} (once : parts.Nodup) {d : Draft}
    (new : ∀ part ∈ parts, part.isIn d = false) :
    Rounds (member record) d (parts.map fun part => packText part.name ++ part.packed p)
      (parts.foldl (Part.put p) d) := by
  induction parts generalizing d with
  | nil => exact .nil d
  | cons part rest ih =>
    obtain ⟨first, others⟩ := List.nodup_cons.mp once
    exact .cons (reads_part fits (new part (List.mem_cons_self ..)))
      (ih others (Part.isIn_put_of_notMem p first new))

theorem reads_pack : (MsgPack.Reader.record record).Reads p.pack p := by
  have rounds := rounds_parts fits (show Part.all.Nodup by decide)
    (d := {}) fun part _ => by cases part <;> rfl
  have few : (Part.all.map fun part => (part.name, part.packed p)).length < 0x100000000 := by
    rw [List.length_map]
    decide
  rw [pack_eq]
  exact reads_record few rounds rfl

end

theorem unpack_of_reads {p : Info} {packed : Bytes}
    (reads : (MsgPack.Reader.record record).Reads packed p) (tail : Bytes) :
    unpack (packed ++ tail) = .ok p := by
  rw [unpack, reads.decode tail]
  rfl

/-- Whatever follows a packed record, the record is read back from it. -/
theorem unpack_pack {p : Info} (fits : p.Packable) (tail : Bytes) :
    unpack (p.pack ++ tail) = .ok p :=
  unpack_of_reads (reads_pack fits) tail

/-- A record with numbers at the ends of their ranges and just beyond the ends of shorter forms, followed
by a byte that no value begins with. -/
theorem unpack_pack_least :
    let p : Info := ⟨.week, -0x80000000, -33, some "é\x00", true, -0x8000000000000000, 0x80⟩
    p.Packable ∧ unpack (p.pack ++ [0xC1]) = .ok p := by
  intro p
  have fits : p.Packable := by
    intro text given
    obtain rfl := Option.some.inj given
    decide
  exact ⟨fits, unpack_pack fits [0xC1]⟩

end Switchboard.Plan.Info
