import Mathlib.Data.List.Nodup
import Mathlib.Data.List.Perm.Subperm
import Switchboard.Wire.Message

/-!
# Requests are read as they were filled in

A request whose slots are told apart by their tags is decoded to the values that it was filled with.
`Message.parts_listing` says how a message is taken apart that lists its tags in the preamble,
`Parts.decoded_slots` what decoding makes of the tags of a descriptor, and `Decoded.get?_eq_some` that
a value is found by its tag.
-/

namespace Switchboard.Wire

/-- Every slot of the descriptor has a tag of its own, and none of them ends the list of tags. -/
structure Descriptor.Proper (d : Descriptor) : Prop where
  distinct : d.slots.Nodup
  noEnd : Tag.end ∉ d.slots

theorem Descriptor.proper_ofGroup (group : Group) : (ofGroup group).Proper := by
  cases group <;> exact ⟨by decide, by decide⟩

theorem Tag.mem_all (tag : Tag) : tag ∈ all := by
  cases tag <;> decide

/-- There are not enough tags for more slots than a message may carry. -/
theorem Descriptor.Proper.length_le {d : Descriptor} (proper : d.Proper) :
    d.slots.length ≤ maxSlots := by
  have known : d.slots ⊆ Tag.all := fun tag _ => tag.mem_all
  have few := (List.subperm_of_subset proper.distinct known).length_le
  exact Nat.le_trans few (by decide)

/-- A message that lists a tag for each of its frames is taken apart into the tags and the frames,
whatever stands behind the end byte. -/
theorem Message.parts_listing {tags : Bytes} {frames : List Bytes} (marker : UInt8)
    (few : tags.length ≤ maxSlots) (count : frames.length = tags.length) (junk : Bytes) :
    Message.parts ((UInt8.ofNat tags.length :: marker :: tags ++ endByte :: junk) :: frames) =
      .ok ⟨marker, tags, frames⟩ := by
  have spelled : (UInt8.ofNat tags.length).toNat = tags.length := by
    rw [UInt8.toNat_ofNat', Nat.mod_eq_of_lt]
    exact Nat.lt_of_le_of_lt few (by decide)
  have ended : (tags ++ endByte :: junk)[tags.length]? = some endByte := by simp
  obtain ⟨first, tail, split⟩ : ∃ first tail, tags ++ endByte :: junk = first :: tail :=
    List.exists_cons_of_ne_nil (by simp)
  have listed : (first :: tail).take tags.length = tags := by
    rw [← split, List.take_left]
  rw [List.cons_append, List.cons_append, split]
  rw [split] at ended
  simp only [Message.parts, spelled, Nat.not_lt.mpr few, ended, count, listed, if_false,
    ne_eq, not_true_eq_false]

theorem Message.parts_fill {d : Descriptor} (few : d.slots.length ≤ maxSlots)
    {values : List (Option Bytes)} (count : values.length = d.slots.length) :
    Message.parts (d.fill values) =
      .ok ⟨d.group.byte, d.slots.map Tag.byte, values.map (·.getD [])⟩ := by
  have few : (d.slots.map Tag.byte).length ≤ maxSlots := by rwa [List.length_map]
  have parts := @parts_listing (d.slots.map Tag.byte) (values.map (·.getD [])) d.group.byte few
    (by simpa) []
  rwa [List.length_map] at parts

theorem valueTag?_byte {tag : Tag} (value : tag ≠ .end) : valueTag? tag.byte = some tag := by
  simp [valueTag?, value]

/-- Under the tags of slots every frame is a value. -/
theorem Parts.decoded_slots {slots : List Tag} (noEnd : Tag.end ∉ slots) (marker : UInt8)
    (frames : List Bytes) :
    (Parts.decoded ⟨marker, slots.map Tag.byte, frames⟩ slots.length) =
      ⟨marker, slots.zip frames, []⟩ := by
  have named (entry : Tag × Bytes) (mem : entry ∈ slots.zip frames) :
      valueTag? entry.1.byte = some entry.1 :=
    valueTag?_byte fun same => noEnd (same ▸ (List.of_mem_zip mem).1)
  have whole : (slots.zip frames).length ≤ slots.length := by
    rw [List.length_zip]
    exact Nat.min_le_left ..
  have kept : (slots.zip frames).filterMap
      (fun entry => (valueTag? entry.1.byte).map (·, entry.2)) = slots.zip frames := by
    rw [List.filterMap_congr fun entry mem => by rw [named entry mem]]
    exact List.filterMap_some
  have known : (slots.zip frames).filter (fun entry => (valueTag? entry.1.byte).isNone) = [] := by
    refine List.filter_eq_nil_iff.mpr fun entry mem => ?_
    simp [named entry mem]
  simp only [Parts.decoded, List.zip_map_left, ← List.map_take, ← List.map_drop,
    List.take_of_length_le whole, List.drop_of_length_le whole, List.filterMap_map,
    List.filter_map, Function.comp_def, Prod.map, id_eq, kept, known]
  rfl

namespace Decoded

/-- Where every tag has one value, the value of a tag is found. -/
theorem get?_eq_some {m : Decoded} (distinct : (m.values.map Prod.fst).Nodup) {tag : Tag}
    {value : Bytes} (mem : (tag, value) ∈ m.values) : m.get? tag = some value := by
  have isThere : (m.values.reverse.find? (·.1 = tag)).isSome :=
    List.find?_isSome.mpr ⟨(tag, value), List.mem_reverse.mpr mem, by simp⟩
  obtain ⟨entry, found⟩ := Option.isSome_iff_exists.mp isThere
  have same : entry.1 = tag := by simpa using List.find?_some found
  have mem' := List.mem_reverse.mp (List.mem_of_find?_eq_some found)
  have once := List.inj_on_of_nodup_map distinct mem' mem same
  rw [get?, found, once]
  rfl

theorem get?_eq_none {m : Decoded} {tag : Tag} (absent : tag ∉ m.values.map Prod.fst) :
    m.get? tag = none := by
  have nothing : m.values.reverse.find? (·.1 = tag) = none := by
    refine List.find?_eq_none.mpr fun entry mem same => absent ?_
    exact List.mem_map.mpr ⟨entry, List.mem_reverse.mp mem, by simpa using same⟩
  rw [get?, nothing]
  rfl

/-- The message has just the given values in the slots of a descriptor. -/
structure Carries (m : Decoded) (d : Descriptor) (values : List (Option Bytes)) : Prop where
  group : m.group? = some d.group
  inOrder : m.valuesFor d = values.map (·.getD [])
  byTag : ∀ tag ∈ d.slots, ∃ i value,
    d.position? tag = some i ∧ values[i]? = some value ∧ m.get? tag = some (value.getD [])
  otherwise : ∀ tag ∉ d.slots, m.get? tag = none
  extras : m.extras = []

theorem carries_zip {d : Descriptor} (distinct : d.slots.Nodup) {values : List (Option Bytes)}
    (count : values.length = d.slots.length) :
    Carries ⟨d.group.byte, d.slots.zip (values.map (·.getD [])), []⟩ d values := by
  have tags : (d.slots.zip (values.map (·.getD []))).map Prod.fst = d.slots :=
    List.map_fst_zip (by simp [count])
  have found {i : Nat} {tag : Tag} {value : Option Bytes} (slot : d.slots[i]? = some tag)
      (given : values[i]? = some value) :
      get? ⟨d.group.byte, d.slots.zip (values.map (·.getD [])), []⟩ tag =
        some (value.getD []) := by
    refine get?_eq_some (tags.symm ▸ distinct) (List.mem_of_getElem? (i := i) ?_)
    simp [List.getElem?_zip_eq_some, slot, given]
  refine ⟨Group.ofByte?_byte d.group, ?_, fun tag mem => ?_, fun tag absent => ?_, rfl⟩
  · refine List.ext_getElem (by simp [valuesFor, count]) fun i inSlots inValues => ?_
    rw [valuesFor, List.length_map] at inSlots
    rw [List.length_map] at inValues
    have value := found (List.getElem?_eq_getElem inSlots) (List.getElem?_eq_getElem inValues)
    simp [valuesFor, value]
  · have isThere : (d.position? tag).isSome := by
      simpa [Descriptor.position?, List.findIdx?_isSome] using mem
    obtain ⟨i, position⟩ := Option.isSome_iff_exists.mp isThere
    obtain ⟨inSlots, same, -⟩ := List.findIdx?_eq_some_iff_getElem.mp position
    have slot : d.slots[i]? = some tag := by
      rw [List.getElem?_eq_getElem inSlots, of_decide_eq_true same]
    have given := List.getElem?_eq_getElem (count ▸ inSlots)
    exact ⟨i, _, position, given, found slot given⟩
  · exact get?_eq_none (by rwa [tags])

/-- What stands in a slot is read under the tag of the slot. -/
theorem Carries.get?_of_mem {m : Decoded} {d : Descriptor} {values : List (Option Bytes)}
    (carries : m.Carries d values) (distinct : d.slots.Nodup) {tag : Tag} {value : Option Bytes}
    (mem : (tag, value) ∈ d.slots.zip values) : m.get? tag = some (value.getD []) := by
  obtain ⟨i, both⟩ := List.mem_iff_getElem?.mp mem
  obtain ⟨slot, given⟩ : d.slots[i]? = some tag ∧ values[i]? = some value :=
    List.getElem?_zip_eq_some.mp both
  obtain ⟨j, value', position, given', found⟩ := carries.byTag tag (List.mem_of_getElem? slot)
  have slot' : d.slots[j]? = some tag := by
    obtain ⟨inside, same, -⟩ := List.findIdx?_eq_some_iff_getElem.mp position
    rw [List.getElem?_eq_getElem inside, of_decide_eq_true same]
  have inside : i < d.slots.length := (List.getElem?_eq_some_iff.mp slot).1
  obtain rfl : i = j := (List.getElem?_inj inside distinct).mp (slot.trans slot'.symm)
  obtain rfl := Option.some.inj (given.symm.trans given')
  exact found

end Decoded

theorem decodeGoverned_fill_eq {d : Descriptor} (proper : d.Proper) {values : List (Option Bytes)}
    (count : values.length = d.slots.length) :
    decodeGoverned d (d.fill values) =
      .ok ⟨d.group.byte, d.slots.zip (values.map (·.getD [])), []⟩ := by
  have decoded := Parts.decoded_slots proper.noEnd d.group.byte (values.map (·.getD []))
  simp only [decodeGoverned, Message.parts_fill proper.length_le count, bind, Except.bind, decoded, ne_eq,
    not_true_eq_false, if_false, List.isPrefixOf_iff_prefix.mpr (List.prefix_refl _), if_true]

theorem decodeGoverned_fill {d : Descriptor} (proper : d.Proper) {values : List (Option Bytes)}
    (count : values.length = d.slots.length) :
    ∃ decoded, decodeGoverned d (d.fill values) = .ok decoded ∧ decoded.Carries d values :=
  ⟨_, decodeGoverned_fill_eq proper count, Decoded.carries_zip proper.distinct count⟩

/-- A message marked as a group is decoded by the descriptor of the group. -/
theorem decodeRequest_of_parts {group : Group} {message : Message} {p : Parts}
    (parts : message.parts = .ok p) (marked : p.marker = group.byte) :
    decodeRequest message = decodeGoverned (.ofGroup group) message := by
  simp only [decodeRequest, parts, bind, Except.bind, marked, Group.ofByte?_byte]

theorem decodeRequest_fill (group : Group) {values : List (Option Bytes)}
    (count : values.length = (Descriptor.ofGroup group).slots.length) :
    decodeRequest ((Descriptor.ofGroup group).fill values) =
      decodeGoverned (.ofGroup group) ((Descriptor.ofGroup group).fill values) := by
  have parts := Message.parts_fill (Descriptor.proper_ofGroup group).length_le count
  exact decodeRequest_of_parts parts (congrArg Group.byte (Descriptor.group_ofGroup group))

/-- What is filled into the slots of a descriptor is encoded, and decoding it by that descriptor gives
it back: the group, the values in order with the empty frame for one that is absent, each value under
the tag of its slot and nothing under any other tag, and no extras. For the descriptor of a group it is
enough to decode the message as a request. -/
theorem decodeGoverned_encode (values : List (Option Bytes)) :
    (∀ d : Descriptor, d.Proper → values.length = d.slots.length →
      ∃ message decoded, encode d values = .ok message ∧ decodeGoverned d message = .ok decoded ∧
        decoded.Carries d values) ∧
    ∀ group, values.length = (Descriptor.ofGroup group).slots.length →
      ∃ message decoded, encode (.ofGroup group) values = .ok message ∧
        decodeRequest message = .ok decoded ∧ decoded.Carries (.ofGroup group) values := by
  have encoded (d : Descriptor) (count : values.length = d.slots.length) :
      encode d values = .ok (d.fill values) := if_pos count
  refine ⟨fun d proper count => ?_, fun group count => ?_⟩
  · obtain ⟨decoded, read, carries⟩ := decodeGoverned_fill proper count
    exact ⟨_, decoded, encoded d count, read, carries⟩
  · obtain ⟨decoded, read, carries⟩ := decodeGoverned_fill (Descriptor.proper_ofGroup group) count
    exact ⟨_, decoded, encoded _ count, (decodeRequest_fill group count).trans read, carries⟩

/-- Two absent values, a value that looks like a preamble and one that is the end byte, in the slots of
a descriptor of its own and in those of a command to a station. -/
theorem decodeGoverned_encode_preamble :
    let values := [none, some Descriptor.planCommand.preamble, none, some [endByte]]
    let own : Descriptor := ⟨.general, [.status, .binaryValue, .station, .globalId]⟩
    (∃ message decoded, encode own values = .ok message ∧
      decodeGoverned own message = .ok decoded ∧ decoded.Carries own values) ∧
    ∃ message decoded, encode (.ofGroup .planCommand) values = .ok message ∧
      decodeRequest message = .ok decoded ∧ decoded.Carries (.ofGroup .planCommand) values := by
  intro values own
  have proper : own.Proper := ⟨by decide, by decide⟩
  exact ⟨(decodeGoverned_encode values).1 own proper rfl,
    (decodeGoverned_encode values).2 .planCommand rfl⟩

end Switchboard.Wire
