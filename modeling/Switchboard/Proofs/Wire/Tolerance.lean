import Switchboard.Proofs.Wire.Extras
import Switchboard.Proofs.Wire.Grammar

/-!
# What decoding keeps

Decoding is tolerant of tags that it does not know. The entries of a message, its tags each with a frame,
become values or extras (`Parts.decoded_keeps`): all values stay, in order, and of the others the last
one of each tag byte. So an entry is lost just if it is no value and a later one that is no value either
has the same tag byte, and none is lost just if these have tag bytes of their own.
-/

namespace Switchboard.Wire

open scoped List

/-- The ways to decode a message. -/
inductive Reading where
  | reply
  | request
  | governed (d : Descriptor)

namespace Reading

def decode : Reading → Message → Except Flaw Decoded
  | reply => decodeReply
  | request => decodeRequest
  | governed d => decodeGoverned d

/-- How many of the first entries may be values: all of them in a reply, and else those in slots. -/
def known (p : Parts) : Reading → Nat
  | reply => p.tags.length
  | request => (Group.ofByte? p.marker).elim 0 fun group => (Descriptor.ofGroup group).slots.length
  | governed d => d.slots.length

end Reading

theorem byte_of_valueTag? {raw : UInt8} {tag : Tag} (value : valueTag? raw = some tag) :
    tag.byte = raw := by
  apply Tag.byte_of_ofByte?
  exact (Option.filter_eq_some_iff.mp value).1

namespace Parts

/-- The tags of a message, each with its frame. -/
def entries (p : Parts) : List (UInt8 × Bytes) :=
  p.tags.zip p.frames

/-- The entries that are values, of which only the first `known` may be. -/
def valued (p : Parts) (known : Nat) : List (UInt8 × Bytes) :=
  (p.entries.take known).filter fun entry => (valueTag? entry.1).isSome

/-- The entries that are no values: the first ones without a value's tag, and all later ones. -/
def others (p : Parts) (known : Nat) : List (UInt8 × Bytes) :=
  (p.entries.take known).filter (fun entry => (valueTag? entry.1).isNone) ++ p.entries.drop known

theorem valued_append_others (p : Parts) (known : Nat) :
    p.valued known ++ p.others known ~ p.entries := by
  let head := p.entries.take known
  let isValue (entry : UInt8 × Bytes) : Bool := (valueTag? entry.1).isSome
  have others : p.others known = head.filter (!isValue ·) ++ p.entries.drop known := by
    simp [Parts.others, isValue, head]
  calc
    p.valued known ++ p.others known
      = head.filter isValue ++ head.filter (!isValue ·) ++ p.entries.drop known := by
        rw [others, List.append_assoc]
        rfl
    _ ~ head ++ p.entries.drop known := (List.filter_append_perm isValue head).append_right _
    _ = p.entries := List.take_append_drop known p.entries

end Parts

/-- The entries that a decoded message holds. -/
def Decoded.entries (m : Decoded) : List (UInt8 × Bytes) :=
  m.values.map (fun (tag, frame) => (tag.byte, frame)) ++ m.extras

/-- What a decoded message keeps of the entries of its parts, if the first `known` may be values. -/
structure Decoded.Keeps (m : Decoded) (p : Parts) (known : Nat) : Prop where
  /-- Every value is kept, in order. -/
  values : m.values.map (fun (tag, frame) => (tag.byte, frame)) = p.valued known
  /-- Of the others the last one of each tag byte is kept. -/
  last : ∀ tag, m.extras.get? tag = lastOf? (p.others known) tag
  once : (m.extras.map Prod.fst).Nodup
  /-- As often as an entry is on the wire, it is kept or replaced. -/
  conserved : m.entries ++ replaced (p.others known) ~ p.entries
  count : m.values.length + m.extras.length + (replaced (p.others known)).length = p.tags.length
  complete_iff :
    m.values.length + m.extras.length = p.tags.length ↔ ((p.others known).map Prod.fst).Nodup

namespace Parts

theorem map_values_decoded (p : Parts) (known : Nat) :
    (p.decoded known).values.map (fun (tag, frame) => (tag.byte, frame)) = p.valued known := by
  have named (entry : UInt8 × Bytes) :
      ((valueTag? entry.1).map fun tag => (tag.byte, entry.2)) =
        Option.guard (fun entry => (valueTag? entry.1).isSome) entry := by
    cases value : valueTag? entry.1 with
    | none => simp [Option.guard, value]
    | some tag => simp [Option.guard, value, byte_of_valueTag? value]
  simp only [decoded, List.map_filterMap, Option.map_map, Function.comp_def, named]
  rw [List.filterMap_eq_filter]
  rfl

theorem extras_decoded (p : Parts) (known : Nat) :
    (p.decoded known).extras = Extras.ofList (p.others known) := rfl

theorem decoded_keeps {p : Parts} (count : p.frames.length = p.tags.length) (known : Nat) :
    (p.decoded known).Keeps p known := by
  have values := p.map_values_decoded known
  have conserved : (p.decoded known).entries ++ replaced (p.others known) ~ p.entries := by
    calc
      (p.decoded known).entries ++ replaced (p.others known)
        = p.valued known ++ (Extras.ofList (p.others known) ++ replaced (p.others known)) := by
          rw [Decoded.entries, values, extras_decoded, List.append_assoc]
      _ ~ p.valued known ++ p.others known :=
          (Extras.ofList_append_replaced (p.others known)).append_left _
      _ ~ p.entries := p.valued_append_others known
  have total : (p.decoded known).values.length + (p.decoded known).extras.length +
      (replaced (p.others known)).length = p.tags.length := by
    have length := conserved.length_eq
    simpa [Decoded.entries, entries, count, Nat.add_assoc] using length
  refine ⟨values, fun tag => ?_, ?_, conserved, total, ?_⟩
  · rw [extras_decoded, Extras.get?_ofList]
  · exact (Extras.ascending_ofList _).nodup
  · rw [← replaced_eq_nil, ← List.length_eq_zero_iff]
    omega

end Parts

theorem decodeGoverned_eq_ok {d : Descriptor} {m : Message} {decoded : Decoded}
    (read : decodeGoverned d m = .ok decoded) :
    ∃ p, m.parts = .ok p ∧ decoded = p.decoded d.slots.length := by
  cases taken : m.parts with
  | error flaw => simp [decodeGoverned, taken, bind, Except.bind] at read
  | ok p =>
    refine ⟨p, rfl, ?_⟩
    simp only [decodeGoverned, taken, bind, Except.bind] at read
    split at read
    · cases read
    · split at read
      · exact (Except.ok.inj read).symm
      · cases read

/-- Whatever is decoded, it is decoded from the parts of the message. -/
theorem Reading.exists_parts {reading : Reading} {m : Message} {decoded : Decoded}
    (read : reading.decode m = .ok decoded) :
    ∃ p, m.Lists p ∧ decoded = p.decoded (reading.known p) := by
  simp only [← Message.parts_eq_ok_iff]
  cases reading with
  | governed d => exact decodeGoverned_eq_ok read
  | reply =>
    cases taken : m.parts with
    | error flaw => simp [decode, decodeReply, taken, bind, Except.bind] at read
    | ok p =>
      refine ⟨p, rfl, ?_⟩
      simpa [decode, decodeReply, known, taken, bind, Except.bind, eq_comm] using read
  | request =>
    cases taken : m.parts with
    | error flaw => simp [decode, decodeRequest, taken, bind, Except.bind] at read
    | ok p =>
      simp only [decode, decodeRequest, taken, bind, Except.bind] at read
      split at read
      · cases read
      · next group named =>
        obtain ⟨p', taken', rfl⟩ := decodeGoverned_eq_ok read
        obtain rfl := Except.ok.inj (taken.symm.trans taken')
        exact ⟨p, rfl, by simp [known, named]⟩

/-- In whatever way a message is decoded, every entry of it is kept as often as it is on the wire, in the
order of the wire if it is a value and among the extras if not, unless a later entry that is no value
either has the same tag byte and takes its place there. So there are as many values and extras as
frames just if no two entries that are no values have the same tag byte. -/
theorem decode_keeps {reading : Reading} {m : Message} {decoded : Decoded}
    (read : reading.decode m = .ok decoded) :
    ∃ p, m.Lists p ∧ decoded.Keeps p (reading.known p) := by
  obtain ⟨p, lists, rfl⟩ := Reading.exists_parts read
  exact ⟨p, lists, Parts.decoded_keeps lists.count _⟩

/-- A command to a station with three entries more, two of them with one unknown tag. The first of
these is replaced. -/
theorem decode_keeps_repeated :
    let slots : Bytes := Descriptor.planCommand.slots.map Tag.byte
    let m : Message := [7 :: 4 :: slots ++ [122, Tag.jsonValue.byte, 122, endByte],
      [0xC0], [112], [], [], [1], [123, 125], [2]]
    ∃ p decoded, decodeRequest m = .ok decoded ∧ decoded.Keeps p 4 ∧
      decoded.values.length = 4 ∧
      decoded.extras = [(Tag.jsonValue.byte, [123, 125]), (122, [2])] ∧
      replaced (p.others 4) = [(122, [1])] := by
  intro slots m
  have read : Reading.request.decode m = .ok ⟨4,
      [(.plan, [0xC0]), (.command, [112]), (.argument, []), (.serviceKey, [])],
      [(Tag.jsonValue.byte, [123, 125]), (122, [2])]⟩ := by decide
  obtain ⟨p, lists, keeps⟩ := decode_keeps read
  have taken : m.parts = .ok ⟨4, slots ++ [122, Tag.jsonValue.byte, 122],
      [[0xC0], [112], [], [], [1], [123, 125], [2]]⟩ := by decide
  obtain rfl := Except.ok.inj ((Message.parts_eq_ok_iff.mpr lists).symm.trans taken)
  exact ⟨_, _, read, keeps, rfl, rfl, by decide⟩

/-- Of two entries with one unknown tag the first is neither a value nor an extra afterwards, so not
every entry is kept. -/
theorem decodeReply_drops_repeated :
    let m : Message := [[2, 1, 122, 122, endByte], [1], [2]]
    let decoded : Decoded := ⟨1, [], [(122, [2])]⟩
    decodeReply m = .ok decoded ∧ m.Lists ⟨1, [122, 122], [[1], [2]]⟩ ∧
      (122, [1]) ∈ Parts.entries ⟨1, [122, 122], [[1], [2]]⟩ ∧ (122, [1]) ∉ decoded.entries ∧
      decoded.values.length + decoded.extras.length = 1 := by
  intro m decoded
  have taken : m.parts = .ok ⟨1, [122, 122], [[1], [2]]⟩ := by decide
  exact ⟨by decide, Message.parts_eq_ok_iff.mp taken, by decide, by decide, rfl⟩

end Switchboard.Wire
