import Switchboard.Proofs.Wire.Tolerance

/-!
# What is found under a tag

A decoded message is looked into by tags, and under a tag stands the last of its values
(`Decoded.get?_eq_lastOf?`). A reply lists its own tags, so that this is the last entry with the byte of
the tag (`decodeReply_encodeTagged`). In a request only the slots hold values, so that nothing behind
them takes the place of what stands in a slot, whatever its tag (`decodeRequest_behind_slots`).
-/

namespace Switchboard.Wire

/-- The byte is that of a tag with values: of any tag but the one that ends the list of tags. -/
def NamesValue (raw : UInt8) : Prop :=
  ∃ tag ∈ Tag.all, tag ≠ .end ∧ tag.byte = raw

instance : DecidablePred NamesValue :=
  fun raw => inferInstanceAs (Decidable (∃ tag ∈ Tag.all, tag ≠ .end ∧ tag.byte = raw))

theorem namesValue_byte {tag : Tag} : NamesValue tag.byte ↔ tag ≠ .end := by
  constructor
  · rintro ⟨other, -, value, same⟩
    exact Tag.byte_injective same ▸ value
  · exact fun value => ⟨tag, tag.mem_all, value, rfl⟩

theorem isSome_valueTag?_iff {raw : UInt8} : (valueTag? raw).isSome ↔ NamesValue raw := by
  constructor
  · intro isValue
    obtain ⟨tag, found⟩ := Option.isSome_iff_exists.mp isValue
    have value : tag ≠ .end := by simpa using (Option.filter_eq_some_iff.mp found).2
    exact ⟨tag, tag.mem_all, value, byte_of_valueTag? found⟩
  · rintro ⟨tag, -, value, rfl⟩
    rw [valueTag?_byte value]
    rfl

/-- Leaving out the frames of other tags does not change which one is the last of a tag. -/
theorem lastOf?_filter (p : UInt8 → Bool) (frames : List (UInt8 × Bytes)) (tag : UInt8) :
    lastOf? (frames.filter (p ·.1)) tag = if p tag then lastOf? frames tag else none := by
  induction frames with
  | nil => simp
  | cons entry rest ih =>
    rw [List.filter_cons, lastOf?_cons]
    by_cases same : entry.1 = tag
    · subst same
      cases kept : p entry.1 <;> simp [kept, ih, lastOf?_cons]
    · cases p entry.1 <;> simp [ih, lastOf?_cons, same]

namespace Decoded

/-- Under a tag stands the last value with its byte. -/
theorem get?_eq_lastOf? (m : Decoded) (tag : Tag) :
    m.get? tag = lastOf? (m.values.map fun (tag, frame) => (tag.byte, frame)) tag.byte := by
  have same (entry : Tag × Bytes) : decide (entry.1.byte = tag.byte) = decide (entry.1 = tag) :=
    decide_eq_decide.mpr ⟨Tag.byte_injective, congrArg Tag.byte⟩
  simp only [get?, lastOf?, ← List.map_reverse, List.find?_map, Function.comp_def, same,
    Option.map_map]

end Decoded

namespace Parts

/-- Under a tag stands the last frame that has its byte and may be a value. -/
theorem get?_decoded (p : Parts) (known : Nat) (tag : Tag) :
    (p.decoded known).get? tag =
      if tag ≠ .end then lastOf? (p.entries.take known) tag.byte else none := by
  rw [Decoded.get?_eq_lastOf?, map_values_decoded, valued,
    lastOf?_filter fun raw => (valueTag? raw).isSome]
  simp only [isSome_valueTag?_iff, namesValue_byte]

end Parts

/-! ## Replies -/

/-- The decoded reply sorts its entries by what their bytes name: those that name a value are values, in
the order of the wire, and of the others each byte has its last frame among the extras. -/
structure Decoded.Sorts (m : Decoded) (marker : UInt8) (entries : List (UInt8 × Bytes)) : Prop where
  marker : m.marker = marker
  values : m.values.map (fun (tag, frame) => (tag.byte, frame)) =
    entries.filter fun (raw, _) => NamesValue raw
  byTag : ∀ tag, m.get? tag = if tag = .end then none else lastOf? entries tag.byte
  extras : ∀ raw, m.extras.get? raw = if NamesValue raw then none else lastOf? entries raw
  ascending : m.extras.Ascending

theorem Parts.decoded_sorts {p : Parts} (count : p.frames.length = p.tags.length) :
    (p.decoded p.tags.length).Sorts p.marker p.entries := by
  have whole : p.entries.length = p.tags.length := by simp [entries, count]
  have others : p.others p.tags.length =
      p.entries.filter fun entry => (valueTag? entry.1).isNone := by
    simp [Parts.others, ← whole]
  refine ⟨rfl, ?_, fun tag => ?_, fun raw => ?_, Extras.ascending_ofList _⟩
  · rw [map_values_decoded, valued, ← whole, List.take_length]
    simp only [← isSome_valueTag?_iff, Bool.decide_eq_true]
  · rw [get?_decoded, ← whole, List.take_length, ite_not]
  · rw [extras_decoded, Extras.get?_ofList, others, lastOf?_filter fun raw => (valueTag? raw).isNone]
    simp only [← isSome_valueTag?_iff]
    cases valueTag? raw <;> rfl

/-- A self-describing message is taken apart into the entries it was made of. -/
theorem parts_of_encodeTagged {entries : List (UInt8 × Bytes)} (few : entries.length ≤ maxSlots)
    (marker : UInt8) :
    ∃ message, encodeTagged marker entries = .ok message ∧
      message.parts = .ok ⟨marker, entries.map Prod.fst, entries.map Prod.snd⟩ := by
  refine ⟨_, if_pos few, ?_⟩
  have few : (entries.map Prod.fst).length ≤ maxSlots := by simpa
  have count : (entries.map Prod.snd).length = (entries.map Prod.fst).length := by simp
  have parts := Message.parts_listing marker few count []
  rwa [List.length_map] at parts

/-- A self-describing message can be made of up to 250 entries, whatever their tag bytes. It is read as a
reply with this marker, in which the entries are sorted by what their bytes name, so that every tag with
values leads to its last entry. -/
theorem decodeReply_encodeTagged (marker : UInt8) (entries : List (UInt8 × Bytes)) :
    (∀ flaw, encodeTagged marker entries = .error flaw ↔
      250 < entries.length ∧ flaw = .tooManySlots entries.length) ∧
    (entries.length ≤ 250 → ∃ message decoded, encodeTagged marker entries = .ok message ∧
      decodeReply message = .ok decoded ∧ decoded.Sorts marker entries) := by
  refine ⟨fun flaw => ?_, fun few => ?_⟩
  · unfold encodeTagged
    split
    · next few => exact ⟨nofun, fun ⟨many, _⟩ => absurd few (Nat.not_le.mpr many)⟩
    · next many =>
      exact ⟨fun same => ⟨Nat.lt_of_not_le many, (Except.error.inj same).symm⟩,
        fun ⟨_, same⟩ => same ▸ rfl⟩
  · obtain ⟨message, encoded, parts⟩ := parts_of_encodeTagged few marker
    have sorts := Parts.decoded_sorts
      (p := ⟨marker, entries.map Prod.fst, entries.map Prod.snd⟩) (by simp)
    rw [Parts.entries, ← List.zip_of_prod rfl rfl] at sorts
    refine ⟨message, _, encoded, ?_, sorts⟩
    rw [decodeReply, parts]
    rfl

/-- A reply in which a tag comes twice, with one that is unknown and the end byte between. -/
theorem decodeReply_encodeTagged_twice :
    let entries : List (UInt8 × Bytes) :=
      [(Tag.status.byte, [1]), (122, [2]), (endByte, [3]), (Tag.status.byte, []), (122, [4])]
    entries.length ≤ 250 ∧ ∃ message decoded, encodeTagged 3 entries = .ok message ∧
      decodeReply message = .ok decoded ∧ decoded.get? .status = some [] ∧
      decoded.get? .end = none ∧ decoded.extras.get? 122 = some [4] ∧
      decoded.extras.get? endByte = some [3] ∧ decoded.extras.get? Tag.status.byte = none := by
  intro entries
  have few : entries.length ≤ 250 := by decide
  obtain ⟨message, decoded, encoded, read, sorts⟩ := (decodeReply_encodeTagged 3 entries).2 few
  exact ⟨few, message, decoded, encoded, read, sorts.byTag .status, sorts.byTag .end,
    sorts.extras 122, sorts.extras endByte, sorts.extras Tag.status.byte⟩

/-- The message says a text under a tag: the last of its frames there has the text, and is not empty. -/
def Message.Says (m : Message) (tag : Tag) (text : String) : Prop :=
  ∃ p frame, m.Lists p ∧ lastOf? p.entries tag.byte = some frame ∧ frame ≠ [] ∧
    text = Utf8.lossy frame

theorem Decoded.text?_eq_some {m : Decoded} {tag : Tag} {text : String} :
    m.text? tag = some text ↔ ∃ frame, m.get? tag = some frame ∧ frame ≠ [] ∧ text = Utf8.lossy frame := by
  unfold Decoded.text?
  split
  · next missing => simp [missing]
  · next empty => simp [empty]
  · next b rest found => simp [found, eq_comm]

/-- A reply has just the texts that its message says. -/
theorem text?_eq_some_iff_says {m : Message} {reply : Decoded} (decoded : decodeReply m = .ok reply)
    {tag : Tag} (value : tag ≠ .end) {text : String} :
    reply.text? tag = some text ↔ m.Says tag text := by
  have read : Reading.reply.decode m = .ok reply := decoded
  obtain ⟨p, lists, rfl⟩ := Reading.exists_parts read
  have found : (p.decoded p.tags.length).get? tag = lastOf? p.entries tag.byte := by
    rw [(Parts.decoded_sorts lists.count).byTag, if_neg value]
  rw [Decoded.text?_eq_some]
  change (∃ frame, (p.decoded p.tags.length).get? tag = some frame ∧ _) ↔ _
  rw [found]
  refine ⟨fun ⟨frame, last, text⟩ => ⟨p, frame, lists, last, text⟩, ?_⟩
  rintro ⟨p', frame, lists', last, text⟩
  -- The message is taken apart in one way only.
  obtain rfl := Except.ok.inj
    ((Message.parts_eq_ok_iff.mpr lists).symm.trans (Message.parts_eq_ok_iff.mpr lists'))
  exact ⟨frame, last, text⟩

/-! ## Requests that go on behind their slots -/

namespace Parts

/-- Behind the tags of slots no frame is a value, whatever its tag. -/
theorem decoded_slots_append {slots : List Tag} (noEnd : Tag.end ∉ slots) (marker : UInt8)
    {frames : List Bytes} (count : frames.length = slots.length)
    (behind : List (UInt8 × Bytes)) :
    Parts.decoded ⟨marker, slots.map Tag.byte ++ behind.map Prod.fst,
        frames ++ behind.map Prod.snd⟩ slots.length =
      ⟨marker, slots.zip frames, Extras.ofList behind⟩ := by
  let head := (slots.map Tag.byte).zip frames
  have length : head.length = slots.length := by simp [head, count]
  have entries : (slots.map Tag.byte ++ behind.map Prod.fst).zip
      (frames ++ behind.map Prod.snd) = head ++ behind := by
    rw [List.zip_append (by simp [count]), ← List.zip_of_prod rfl rfl]
  have named : head.filter (fun entry => (valueTag? entry.1).isNone) = [] := by
    refine List.filter_eq_nil_iff.mpr fun entry mem => ?_
    obtain ⟨tag, slot, same⟩ := List.mem_map.mp (List.of_mem_zip mem).1
    have value : tag ≠ .end := fun ends => noEnd (ends ▸ slot)
    simp [← same, valueTag?_byte value]
  have alone := congrArg Decoded.values (decoded_slots noEnd marker frames)
  change (head.take slots.length).filterMap _ = _ at alone
  rw [List.take_of_length_le (Nat.le_of_eq length)] at alone
  simp only [Parts.decoded, entries, List.take_left' length, List.drop_left' length, alone, named,
    List.nil_append]

end Parts

/-- A request that goes on behind its slots is read as one that does not, but for its extras. -/
theorem decodeGoverned_behind {d : Descriptor} (proper : d.Proper) {values : List (Option Bytes)}
    (count : values.length = d.slots.length) {behind : List (UInt8 × Bytes)}
    (few : d.slots.length + behind.length ≤ maxSlots) :
    ∃ message, encodeTagged d.group.byte
        ((d.slots.map Tag.byte).zip (values.map (·.getD [])) ++ behind) = .ok message ∧
      message.parts = .ok ⟨d.group.byte, d.slots.map Tag.byte ++ behind.map Prod.fst,
        values.map (·.getD []) ++ behind.map Prod.snd⟩ ∧
      decodeGoverned d message =
        .ok ⟨d.group.byte, d.slots.zip (values.map (·.getD [])), Extras.ofList behind⟩ := by
  have same : (values.map (·.getD [])).length = d.slots.length := by simpa
  have within : ((d.slots.map Tag.byte).zip (values.map (·.getD [])) ++ behind).length ≤ maxSlots := by
    simpa [count]
  obtain ⟨message, encoded, parts⟩ := parts_of_encodeTagged within d.group.byte
  rw [List.map_append, List.map_append, List.map_fst_zip (by simp [count]),
    List.map_snd_zip (by simp [count])] at parts
  refine ⟨message, encoded, parts, ?_⟩
  have decoded := Parts.decoded_slots_append proper.noEnd d.group.byte same behind
  have begins : (d.slots.map Tag.byte).isPrefixOf (d.slots.map Tag.byte ++ behind.map Prod.fst) :=
    List.isPrefixOf_iff_prefix.mpr (List.prefix_append ..)
  simp only [decodeGoverned, parts, bind, Except.bind, ne_eq, not_true_eq_false, if_false, begins,
    if_true, decoded]

/-- However a request goes on behind its slots, be it with tags of slots again, with other tags or with
bytes that are no tags: it is accepted, and what it says is what the request with just these slots says.
The values are the same, in order and for the slots of the descriptor; every tag leads to the same value,
and those without a slot to none. What stands behind the slots is kept as extras only, the last frame of
each byte. -/
theorem decodeRequest_behind_slots (group : Group) {values : List (Option Bytes)}
    (count : values.length = (Descriptor.ofGroup group).slots.length)
    {behind : List (UInt8 × Bytes)}
    (few : (Descriptor.ofGroup group).slots.length + behind.length ≤ 250) :
    let d := Descriptor.ofGroup group
    ∃ message decoded alone plain,
      encodeTagged group.byte ((d.slots.map Tag.byte).zip (values.map (·.getD [])) ++ behind) =
        .ok message ∧
      decodeRequest message = .ok decoded ∧
      encode d values = .ok alone ∧ decodeRequest alone = .ok plain ∧ plain.Carries d values ∧
      decoded.values = plain.values ∧ (∀ tag, decoded.get? tag = plain.get? tag) ∧
      decoded.valuesFor d = plain.valuesFor d ∧ (∀ tag ∉ d.slots, decoded.get? tag = none) ∧
      (∀ raw, decoded.extras.get? raw = lastOf? behind raw) ∧ decoded.extras.Ascending := by
  intro d
  have proper := Descriptor.proper_ofGroup group
  have marked : d.group.byte = group.byte := congrArg Group.byte (Descriptor.group_ofGroup group)
  obtain ⟨message, encoded, parts, read⟩ := decodeGoverned_behind proper count few
  rw [marked] at encoded
  have carries := Decoded.carries_zip (d := d) proper.distinct count
  exact ⟨message, _, d.fill values, _, encoded, (decodeRequest_of_parts parts marked).trans read,
    if_pos count, (decodeRequest_fill group count).trans (decodeGoverned_fill_eq proper count),
    carries, rfl, fun _ => rfl, rfl, carries.otherwise, Extras.get?_ofList behind,
    Extras.ascending_ofList behind⟩

/-- Behind the slots of a command to a station come its command and its service key again, an end byte, a
byte that is no tag, and a second command. -/
theorem decodeRequest_behind_slots_again :
    let d := Descriptor.ofGroup .planCommand
    let values : List (Option Bytes) := [some [0xC0], some [112], none, some [107]]
    let behind : List (UInt8 × Bytes) :=
      [(Tag.command.byte, [1]), (Tag.serviceKey.byte, []), (endByte, [2]), (122, [3]),
        (Tag.command.byte, [4])]
    values.length = d.slots.length ∧ d.slots.length + behind.length ≤ 250 ∧
      ∃ message decoded,
        encodeTagged Group.planCommand.byte
          ((d.slots.map Tag.byte).zip (values.map (·.getD [])) ++ behind) = .ok message ∧
        decodeRequest message = .ok decoded ∧ decoded.get? .command = some [112] ∧
        decoded.get? .serviceKey = some [107] ∧ decoded.get? .argument = some [] ∧
        decoded.get? .status = none ∧ decoded.extras.get? Tag.command.byte = some [4] ∧
        decoded.extras.get? endByte = some [2] := by
  intro d values behind
  have count : values.length = d.slots.length := rfl
  have few : d.slots.length + behind.length ≤ 250 := by decide
  have distinct := (Descriptor.proper_ofGroup .planCommand).distinct
  obtain ⟨message, decoded, alone, plain, encoded, read, -, -, carries, -, same, -, otherwise,
    extras, -⟩ := decodeRequest_behind_slots .planCommand count few
  have slot (tag : Tag) (value : Option Bytes) (mem : (tag, value) ∈ d.slots.zip values) :
      decoded.get? tag = some (value.getD []) :=
    (same tag).trans (carries.get?_of_mem distinct mem)
  exact ⟨count, few, message, decoded, encoded, read, slot .command (some [112]) (by decide),
    slot .serviceKey (some [107]) (by decide), slot .argument none (by decide),
    otherwise .status (by decide), extras Tag.command.byte, extras endByte⟩

end Switchboard.Wire
