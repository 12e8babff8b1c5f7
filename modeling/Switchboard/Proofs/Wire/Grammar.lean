import Switchboard.Proofs.Wire.RoundTrip

/-!
# What decoding accepts

A message that is taken apart lists what it carries: `Message.Lists` is the form of such a message and
`Message.parts_eq_ok_iff` says that no other one is accepted. A reply needs no more than that; a request
also names a group and begins its tags with the slots of the group. `Message.partsAt` takes a message
apart by looking up positions, and `Message.partsAt_eq` says that it never looks beyond an end.
-/

namespace Switchboard.Wire

/-- The message carries these parts: its first frame counts the tags in a byte, gives the marker and
the tags, and closes them with the end byte, whatever stands behind it. There is one more frame for each
tag. -/
structure Message.Lists (m : Message) (p : Parts) : Prop where
  few : p.tags.length ≤ maxSlots
  count : p.frames.length = p.tags.length
  form : ∃ junk,
    m = (UInt8.ofNat p.tags.length :: p.marker :: p.tags ++ endByte :: junk) :: p.frames

/-- The message has the form of a reply. -/
def Message.IsReply (m : Message) : Prop :=
  ∃ p, m.Lists p

/-- The message has the form of a request: its marker is a group, and the slots of the group come first
among its tags, in order. -/
def Message.IsRequest (m : Message) : Prop :=
  ∃ p group, m.Lists p ∧ p.marker = Group.byte group ∧
    (Descriptor.ofGroup group).slots.map Tag.byte <+: p.tags

namespace Message

/-- Where the end byte stands at some position, the bytes before it are as many as that. -/
theorem split_at_end {bytes : Bytes} {count : Nat} (ended : bytes[count]? = some endByte) :
    (bytes.take count).length = count ∧
      bytes = bytes.take count ++ endByte :: bytes.drop (count + 1) := by
  obtain ⟨inside, same⟩ := List.getElem?_eq_some_iff.mp ended
  refine ⟨List.length_take_of_le (Nat.le_of_lt inside), ?_⟩
  rw [← same, ← List.drop_eq_getElem_cons inside, List.take_append_drop]

theorem lists_of_parts {m : Message} {p : Parts} (taken : m.parts = .ok p) : m.Lists p := by
  unfold parts at taken
  split at taken
  · cases taken
  · next count marker t tail frames =>
    split at taken
    · cases taken
    · next few =>
      split at taken
      · cases taken
      · next ended =>
        split at taken
        · cases taken
        · next same =>
          obtain rfl := Except.ok.inj taken
          obtain ⟨length, split⟩ := split_at_end (Decidable.not_not.mp ended)
          refine ⟨?_, ?_, (t :: tail).drop (count.toNat + 1), ?_⟩
          · exact Nat.le_trans (Nat.le_of_eq length) (Nat.not_lt.mp few)
          · exact (Decidable.not_not.mp same).trans length.symm
          · rw [length, UInt8.ofNat_toNat, List.cons_append, List.cons_append, ← split]
  · cases taken

/-- A message is taken apart just if it lists its parts, and into these. -/
theorem parts_eq_ok_iff {m : Message} {p : Parts} : m.parts = .ok p ↔ m.Lists p := by
  refine ⟨lists_of_parts, ?_⟩
  rintro ⟨few, count, junk, rfl⟩
  exact parts_listing p.marker few count junk

end Message

/-- What is not accepted is refused with a flaw. -/
theorem exists_error_iff {α : Type} (result : Except Flaw α) :
    (∃ flaw, result = .error flaw) ↔ ¬ ∃ a, result = .ok a := by
  cases result <;> simp

theorem decodeReply_ok_iff (m : Message) : (∃ decoded, decodeReply m = .ok decoded) ↔ m.IsReply := by
  simp only [Message.IsReply, ← Message.parts_eq_ok_iff, decodeReply, bind, Except.bind]
  cases m.parts <;> simp

/-- A message follows a descriptor if it is marked as its group and its slots come first. -/
theorem decodeGoverned_ok_iff (d : Descriptor) (m : Message) :
    (∃ decoded, decodeGoverned d m = .ok decoded) ↔
      ∃ p, m.Lists p ∧ p.marker = d.group.byte ∧ d.slots.map Tag.byte <+: p.tags := by
  simp only [← Message.parts_eq_ok_iff, decodeGoverned, bind, Except.bind]
  cases m.parts with
  | error flaw => simp
  | ok p =>
    simp only [Except.ok.injEq, exists_eq_left', ← List.isPrefixOf_iff_prefix]
    by_cases marked : p.marker = d.group.byte <;>
      cases (d.slots.map Tag.byte).isPrefixOf p.tags <;> simp [marked]

theorem decodeRequest_ok_iff (m : Message) :
    (∃ decoded, decodeRequest m = .ok decoded) ↔ m.IsRequest := by
  constructor
  · intro accepted
    obtain ⟨decoded, read⟩ := accepted
    cases taken : m.parts with
    | error flaw => simp [decodeRequest, taken, bind, Except.bind] at read
    | ok p =>
      simp only [decodeRequest, taken, bind, Except.bind] at read
      split at read
      · cases read
      · next group named =>
        obtain ⟨p, lists, marked, slots⟩ := (decodeGoverned_ok_iff _ m).mp ⟨decoded, read⟩
        exact ⟨p, group, lists, by rw [marked, Descriptor.group_ofGroup], slots⟩
  · rintro ⟨p, group, lists, marked, slots⟩
    rw [decodeRequest_of_parts (Message.parts_eq_ok_iff.mpr lists) marked, decodeGoverned_ok_iff]
    exact ⟨p, lists, by rw [marked, Descriptor.group_ofGroup], slots⟩

/-! ## Positions -/

/-- What stands between two positions of a list, if both are within it. -/
def slice? {α : Type} (l : List α) (first last : Nat) : Option (List α) :=
  if first ≤ last ∧ last ≤ l.length then some ((l.take last).drop first) else none

/-- Take a message apart by positions. The result is none if a position is looked up that does not
exist: each is looked up only after the checks that should make sure of it. -/
def Message.partsAt (m : Message) : Option (Except Flaw Parts) :=
  match m.head? with
  | none => some (.error .emptyMessage)
  | some preamble =>
    if preamble.length < 3 then some (.error (.shortPreamble preamble.length))
    else do
      let count := (← preamble[0]?).toNat
      if maxSlots < count then return .error (.tooManyFrames count)
      if preamble.length ≤ 2 + count then return .error (.noEndMarker count)
      if (← preamble[2 + count]?) ≠ endByte then return .error (.noEndMarker count)
      if m.length - 1 ≠ count then return .error (.frameCount count (m.length - 1))
      let marker ← preamble[1]?
      let tags ← slice? preamble 2 (2 + count)
      let frames ← slice? m 1 m.length
      return .ok ⟨marker, tags, frames⟩

theorem slice?_eq {α : Type} {l : List α} {first last : Nat} (ordered : first ≤ last)
    (inside : last ≤ l.length) : slice? l first last = some ((l.take last).drop first) :=
  if_pos ⟨ordered, inside⟩

/-- No position is looked up that does not exist, and what is found there is what taking the message
apart gives. -/
theorem Message.partsAt_eq (m : Message) : m.partsAt = some m.parts := by
  match m with
  | [] => rfl
  | [] :: _ | [_] :: _ | [_, _] :: _ => rfl
  | (count :: marker :: t :: tail) :: frames =>
    have long : ¬ (count :: marker :: t :: tail).length < 3 := by simp
    have last : (count :: marker :: t :: tail)[2 + count.toNat]? = (t :: tail)[count.toNat]? := by
      rw [Nat.add_comm]
      rfl
    have end_iff : (count :: marker :: t :: tail).length ≤ 2 + count.toNat ↔
        (t :: tail)[count.toNat]? = none := by
      rw [List.getElem?_eq_none_iff, List.length_cons, List.length_cons]
      omega
    have others : slice? ((count :: marker :: t :: tail) :: frames) 1
        ((count :: marker :: t :: tail) :: frames).length = some frames := by
      rw [slice?_eq (by simp) (Nat.le_refl _), List.take_length]
      rfl
    simp only [partsAt, parts, List.head?_cons, long, if_false, List.getElem?_cons_zero,
      List.getElem?_cons_succ, Option.bind_eq_bind, Option.bind_some, end_iff, last, others]
    by_cases few : maxSlots < count.toNat
    · simp [few]
    cases found : (t :: tail)[count.toNat]? with
    | none => simp [few]
    | some ended =>
      obtain ⟨inside, -⟩ := List.getElem?_eq_some_iff.mp found
      have tags : slice? (count :: marker :: t :: tail) 2 (2 + count.toNat) =
          some ((t :: tail).take count.toNat) := by
        rw [slice?_eq (by omega) (by simp only [List.length_cons] at inside ⊢; omega),
          Nat.add_comm]
        rfl
      simp only [few, tags]
      by_cases closed : ended = endByte <;> by_cases same : frames.length = count.toNat <;>
        simp [closed, same]

/-- Decoding a request accepts the messages of the form of a request, and decoding a reply those of the
form of a reply. Every other message is refused with a flaw, and none is read beyond an end. -/
theorem decodes_iff_form (m : Message) :
    ((∃ decoded, decodeRequest m = .ok decoded) ↔ m.IsRequest) ∧
    ((∃ flaw, decodeRequest m = .error flaw) ↔ ¬ m.IsRequest) ∧
    ((∃ decoded, decodeReply m = .ok decoded) ↔ m.IsReply) ∧
    ((∃ flaw, decodeReply m = .error flaw) ↔ ¬ m.IsReply) ∧
    m.partsAt = some m.parts := by
  refine ⟨decodeRequest_ok_iff m, ?_, decodeReply_ok_iff m, ?_, m.partsAt_eq⟩
  · rw [exists_error_iff, decodeRequest_ok_iff]
  · rw [exists_error_iff, decodeReply_ok_iff]

end Switchboard.Wire
