import Switchboard.Proofs.Wire.Grammar

/-!
# Requests with too many slots

A request is filled in whatever the number of its slots, and the byte that counts them goes round at 256.
Decoding by the same descriptor accepts it if there are no more slots than a message may carry, and never
otherwise: `Message.parts_overfilled` says what it finds then. Encoding by tags refuses all of these
messages beforehand (`decodeGoverned_encode_iff`).
-/

namespace Switchboard.Wire

namespace Descriptor

/-- What is wrong with a request of too many slots. The byte that counts them is beyond the maximum as
well, or it points at a tag; and if that happens to be the end of the tags, there are more frames than it
says. -/
def overflow (d : Descriptor) : Flaw :=
  let count := d.slots.length % 256
  if maxSlots < count then .tooManyFrames count
  else if d.slots[count]? ≠ some .end then .noEndMarker count
  else .frameCount count d.slots.length

/-- The same entries for encoding by tags. -/
def entries (d : Descriptor) (values : List (Option Bytes)) : List (UInt8 × Bytes) :=
  (d.slots.map Tag.byte).zip (values.map (·.getD []))

end Descriptor

section Filling

variable {d : Descriptor} {values : List (Option Bytes)}

theorem encode_eq_ok_iff {message : Message} :
    encode d values = .ok message ↔ values.length = d.slots.length ∧ message = d.fill values := by
  unfold encode
  split
  · next count => simp [count, eq_comm]
  · next other => simp [other]

/-- The byte at a place of the preamble where a tag stands closes the tags just if the tag does. -/
theorem Descriptor.tag_eq_endByte_iff {i : Nat} (inside : i < d.slots.length) :
    (d.slots.map Tag.byte ++ [endByte])[i]? = some endByte ↔ d.slots[i]? = some .end := by
  rw [List.getElem?_append_left (by rwa [List.length_map]), List.getElem?_map,
    List.getElem?_eq_getElem inside, Option.map_some, Option.some_inj, Option.some_inj]
  exact ⟨Tag.byte_injective, congrArg Tag.byte⟩

theorem Message.parts_overfilled (count : values.length = d.slots.length)
    (many : maxSlots < d.slots.length) :
    Message.parts (d.fill values) = .error d.overflow := by
  have spelled : d.count.toNat = d.slots.length % 256 := UInt8.toNat_ofNat'
  obtain ⟨first, second, tail, split⟩ : ∃ first second tail,
      d.slots.map Tag.byte ++ [endByte] = first :: second :: tail := by
    match same : d.slots with
    | [] => simp [same] at many
    | first :: rest =>
      obtain ⟨second, tail, rest⟩ := List.exists_cons_of_ne_nil
        (List.concat_ne_nil endByte (rest.map Tag.byte))
      exact ⟨_, second, tail, by rw [List.map_cons, List.cons_append, rest]⟩
  have size : (values.map (·.getD [])).length = d.slots.length := by rw [List.length_map, count]
  rw [Descriptor.fill, Descriptor.preamble, List.cons_append, List.cons_append, split]
  simp only [Message.parts, spelled, size, ← split, Descriptor.overflow]
  by_cases beyond : maxSlots < d.slots.length % 256
  · rw [if_pos beyond, if_pos beyond]
  · -- The count has gone round, so where the end byte should stand there is a tag.
    have inside : d.slots.length % 256 < d.slots.length :=
      Nat.lt_of_le_of_lt (Nat.not_lt.mp beyond) many
    simp only [if_neg beyond, ne_eq, Descriptor.tag_eq_endByte_iff inside,
      if_pos (Nat.ne_of_gt inside)]
    split <;> rfl

theorem decodeGoverned_filled (count : values.length = d.slots.length)
    (few : d.slots.length ≤ maxSlots) :
    ∃ decoded, decodeGoverned d (d.fill values) = .ok decoded :=
  (decodeGoverned_ok_iff d _).mpr
    ⟨_, Message.parts_eq_ok_iff.mp (Message.parts_fill few count), rfl, List.prefix_refl _⟩

theorem decodeGoverned_overfilled (count : values.length = d.slots.length)
    (many : maxSlots < d.slots.length) :
    decodeGoverned d (d.fill values) = .error d.overflow := by
  simp only [decodeGoverned, Message.parts_overfilled count many, bind, Except.bind]

/-- Encoding by tags gives the same message, or refuses it. -/
theorem encodeTagged_entries (count : values.length = d.slots.length) :
    encodeTagged d.group.byte (d.entries values) =
      if d.slots.length ≤ maxSlots then .ok (d.fill values)
      else .error (.tooManySlots d.slots.length) := by
  have sizes : (d.slots.map Tag.byte).length = (values.map (·.getD [])).length := by
    rw [List.length_map, List.length_map, count]
  have size : (d.entries values).length = d.slots.length := by
    rw [Descriptor.entries, List.length_zip, ← sizes, Nat.min_self, List.length_map]
  have tags : (d.entries values).map Prod.fst = d.slots.map Tag.byte :=
    List.map_fst_zip (Nat.le_of_eq sizes)
  have frames : (d.entries values).map Prod.snd = values.map (·.getD []) :=
    List.map_snd_zip (Nat.le_of_eq sizes.symm)
  rw [encodeTagged, size, tags, frames]
  rfl

end Filling

/-- A request that is encoded is decoded by the same descriptor just if the descriptor has no more slots
than a message may carry. If it has more, the request is encoded all the same, and decoding refuses it.
Encoding the same values by their tags does not: it gives the same message where that can be decoded, and
refuses it where it cannot. -/
theorem decodeGoverned_encode_iff {d : Descriptor} {values : List (Option Bytes)} {message : Message}
    (encoded : encode d values = .ok message) :
    ((∃ decoded, decodeGoverned d message = .ok decoded) ↔ d.slots.length ≤ maxSlots) ∧
      (maxSlots < d.slots.length → decodeGoverned d message = .error d.overflow) ∧
      encodeTagged d.group.byte (d.entries values) =
        if d.slots.length ≤ maxSlots then .ok message
        else .error (.tooManySlots d.slots.length) := by
  obtain ⟨count, rfl⟩ := encode_eq_ok_iff.mp encoded
  refine ⟨⟨?_, decodeGoverned_filled count⟩, decodeGoverned_overfilled count,
    encodeTagged_entries count⟩
  rintro ⟨decoded, read⟩
  by_contra many
  rw [decodeGoverned_overfilled count (Nat.lt_of_not_le many)] at read
  cases read

/-- Of 256 slots none is counted. The first of them ends the list of tags, so that the message is one of
no frames with 256 frames too many. -/
theorem decodeGoverned_encode_iff_wrapped :
    let d : Descriptor := ⟨.general, List.replicate 256 .end⟩
    let values : List (Option Bytes) := List.replicate 256 none
    ∃ message, encode d values = .ok message ∧ ¬ (∃ decoded, decodeGoverned d message = .ok decoded) ∧
      decodeGoverned d message = .error (.frameCount 0 256) ∧
      encodeTagged d.group.byte (d.entries values) = .error (.tooManySlots 256) := by
  intro d values
  have size : d.slots.length = 256 := List.length_replicate
  have count : values.length = d.slots.length := List.length_replicate.trans size.symm
  have encoded := encode_eq_ok_iff.mpr ⟨count, rfl⟩
  have overflow : d.overflow = .frameCount 0 256 := by rw [Descriptor.overflow, size]; rfl
  obtain ⟨accepted, refused, tagged⟩ := decodeGoverned_encode_iff encoded
  rw [size] at accepted refused tagged
  rw [← overflow]
  exact ⟨_, encoded, fun read => absurd (accepted.mp read) (by decide), refused (by decide), tagged⟩

/-- One slot more than a message may carry is enough for a request that is encoded and cannot be
decoded. -/
theorem overfilled_refused :
    let d : Descriptor := ⟨.general, List.replicate 251 .plan⟩
    ∃ message, encode d (List.replicate 251 none) = .ok message ∧
      decodeGoverned d message = .error (.tooManyFrames 251) := by
  intro d
  have size : d.slots.length = 251 := List.length_replicate
  have count : (List.replicate 251 none : List (Option Bytes)).length = d.slots.length :=
    List.length_replicate.trans size.symm
  have many : maxSlots < d.slots.length := by rw [size]; decide
  have overflow : d.overflow = .tooManyFrames 251 := by rw [Descriptor.overflow, size]; rfl
  rw [← overflow]
  exact ⟨_, encode_eq_ok_iff.mpr ⟨count, rfl⟩, decodeGoverned_overfilled count many⟩

end Switchboard.Wire
