import Switchboard.MsgPack.Reader
import Switchboard.MsgPack.Writer
import Switchboard.Proofs.Text.Utf8

/-!
# Packed values are read back

A reader reads a value if it takes the bytes of the value and leaves whatever follows them
(`Reader.Reads`). Readers that do so can be put one after the other, so that it is enough to look at the
head of each kind of value: its marker, and the bytes that the marker asks for (`Heads`). A number or a
text has several forms, one for each range, and the marker of each leads back to the same item.
-/

namespace Switchboard

namespace Bytes

theorem capacity_pos (n : Nat) : 0 < capacity n := by
  rw [capacity, Nat.one_shiftLeft]
  exact Nat.two_pow_pos _

/-- A signed number that fits is read from its two's complement. -/
theorem toInt_ofInt {size : Nat} {n : Int} (low : -(capacity size / 2 : Nat) ≤ n)
    (high : n < ((capacity size + 1) / 2 : Nat)) : toInt (ofInt size n) = n := by
  have positive := capacity_pos size
  have within := Int.emod_lt_of_pos n (show (0 : Int) < capacity size by omega)
  have natural := Int.emod_nonneg n (show (capacity size : Int) ≠ 0 by omega)
  have spelled : ((toNat (ofInt size n) : Nat) : Int) = n % capacity size := by
    rw [ofInt, toNat_ofNat, Nat.mod_eq_of_lt (by omega), Int.toNat_of_nonneg natural]
  rw [toInt, spelled, ofInt, length_ofNat, Int.emod_bmod]
  exact Int.bmod_eq_of_le (by omega) (by omega)

end Bytes

namespace MsgPack

open Shape (IntKind Record Schema Field)

variable {α β δ σ : Type}

/-- The reader takes the bytes as a value and leaves what follows. -/
def Reader.Reads (r : Reader α) (packed : Bytes) (a : α) : Prop :=
  ∀ rest, r (packed ++ rest) = .ok a rest

namespace Reader

namespace Reads

theorem pure (a : α) : (Pure.pure a : Reader α).Reads [] a :=
  fun _ => rfl

theorem bind {r : Reader α} {packed : Bytes} {a : α} (first : r.Reads packed a)
    {f : α → Reader β} {more : Bytes} {b : β} (second : (f a).Reads more b) :
    (r >>= f).Reads (packed ++ more) b := by
  intro rest
  change EStateM.bind r f (packed ++ more ++ rest) = _
  rw [EStateM.bind, List.append_assoc, first]
  exact second rest

/-- The next reader takes nothing. -/
theorem bind_nil {r : Reader α} {packed : Bytes} {a : α} (first : r.Reads packed a)
    {f : α → Reader β} {b : β} (second : (f a).Reads [] b) : (r >>= f).Reads packed b := by
  have both := first.bind second
  rwa [List.append_nil] at both

/-- The first reader takes nothing. -/
theorem nil_bind {r : Reader α} {a : α} (first : r.Reads [] a) {f : α → Reader β} {more : Bytes}
    {b : β} (second : (f a).Reads more b) : (r >>= f).Reads more b :=
  first.bind second

/-- Something is made of the value. -/
theorem map {r : Reader α} {packed : Bytes} {a : α} (reads : r.Reads packed a) (f : α → β) :
    Reads (do Pure.pure (f (← r))) packed (f a) :=
  reads.bind_nil (.pure (f a))

theorem decode {r : Reader α} {packed : Bytes} {a : α} (reads : r.Reads packed a) (tail : Bytes) :
    MsgPack.decode r (packed ++ tail) = .ok a := by
  rw [MsgPack.decode, reads]

end Reads

theorem reads_marker (b : UInt8) : marker.Reads [b] (.ofByte b) :=
  fun _ => rfl

theorem reads_take (flaw : Flaw) (bytes : Bytes) : (take flaw bytes.length).Reads bytes bytes := by
  intro rest
  simp [take]

theorem reads_number {size : Nat} {bytes : Bytes} (whole : bytes.length = size) :
    (number size).Reads bytes bytes :=
  whole ▸ reads_take .cutNumber bytes

theorem reads_length {size n : Nat} (fits : n < Bytes.capacity size) :
    (length size).Reads (Bytes.ofNat size n) n := by
  refine (reads_number (Bytes.length_ofNat size n)).bind_nil ?_
  rw [Bytes.toNat_ofNat, Nat.mod_eq_of_lt fits]
  exact .pure n

theorem reads_body (bytes : Bytes) : (body bytes.length).Reads bytes bytes :=
  reads_take .cutBody bytes

end Reader

/-! ## Heads -/

/-- The bytes are the head of a value: its marker, and what the marker asks for. -/
inductive Heads : Bytes → Marker → Item → Prop
  | mk {b : UInt8} {m : Marker} {more : Bytes} {i : Item} (marker : Marker.ofByte b = m)
      (reads : (Reader.itemOf m).Reads more i) : Heads (b :: more) m i

namespace Heads

section

variable {packed : Bytes} {m : Marker} {i : Item}

theorem item (heads : Heads packed m i) : Reader.item.Reads packed i := by
  obtain ⟨rfl, more⟩ := heads
  exact (Reader.reads_marker _).bind more

theorem plainItem (heads : Heads packed m i) (plain : m.isPlain) :
    Reader.plainItem.Reads packed i := by
  obtain ⟨rfl, more⟩ := heads
  refine (Reader.reads_marker _).bind ?_
  rw [if_pos plain]
  exact more

theorem choice (heads : Heads packed m i) (single : Reader.mapCount m = none)
    {known : List String} {name : String} (named : (Reader.choiceFrom known i).Reads [] name) :
    (Reader.choice known).Reads packed name := by
  obtain ⟨rfl, more⟩ := heads
  refine (Reader.reads_marker _).bind ?_
  rw [single]
  exact more.bind_nil named

/-- A value with a marker of its own is not taken for a missing one. -/
theorem optional (heads : Heads packed m i) (given : m ≠ .nil) {r : Reader α} {a : α}
    (reads : r.Reads packed a) : (Reader.optional r).Reads packed (some a) := by
  obtain @⟨b, -, more, -, rfl, -⟩ := heads
  have unlike : b ≠ 0xC0 := by
    rintro rfl
    exact given rfl
  intro rest
  have taken : (some <$> r) (b :: more ++ rest) = .ok (some a) rest := by
    change EStateM.map some r (b :: more ++ rest) = _
    rw [EStateM.map, reads]
  unfold Reader.optional
  split
  · next same => exact absurd (List.cons.inj same).1 unlike
  · exact taken

end

/-! Each form of a number or a text is a head. -/

section

variable {b : UInt8} {size : Nat}

theorem unsigned (asks : Marker.ofByte b = .unsigned size) {n : Nat}
    (fits : n < Bytes.capacity size) :
    Heads (b :: Bytes.ofNat size n) (.unsigned size) (.natural n) := by
  refine .mk asks ((Reader.reads_number (Bytes.length_ofNat size n)).bind_nil ?_)
  rw [Bytes.toNat_ofNat, Nat.mod_eq_of_lt fits]
  exact .pure _

theorem signed (asks : Marker.ofByte b = .signed size) {n : Int}
    (low : -(Bytes.capacity size / 2 : Nat) ≤ n) (high : n < 0) :
    Heads (b :: Bytes.ofInt size n) (.signed size) (.signed n) := by
  refine .mk asks ((Reader.reads_number (Bytes.length_ofNat size _)).bind_nil ?_)
  change Reader.Reads (pure (.signed (Bytes.toInt (Bytes.ofInt size n)))) [] (Item.signed n)
  rw [Bytes.toInt_ofInt low (by omega)]
  exact .pure _

theorem str (asks : Marker.ofByte b = .str size) {raw : Bytes}
    (fits : raw.length < Bytes.capacity size) :
    Heads (b :: Bytes.ofNat size raw.length ++ raw) (.str size) (.text raw) :=
  .mk asks ((Reader.reads_length fits).bind ((Reader.reads_body raw).bind_nil (.pure _)))

theorem map (asks : Marker.ofByte b = .map size) {count : Nat}
    (fits : count < Bytes.capacity size) :
    Heads (b :: Bytes.ofNat size count) (.map size) (.map count) :=
  .mk asks ((Reader.reads_length fits).bind_nil (.pure _))

end

end Heads

theorem ofByte_fixPos {n : Nat} (fits : n < 0x80) : Marker.ofByte (UInt8.ofNat n) = .fixPos n := by
  revert n
  decide

theorem ofByte_fixNeg {n : Nat} (fits : n < 32) :
    Marker.ofByte (UInt8.ofNat (0xE0 + n)) = .fixNeg (n - 32) := by
  revert n
  decide

theorem ofByte_fixStr {n : Nat} (fits : n < 32) :
    Marker.ofByte (UInt8.ofNat (0xA0 + n)) = .fixStr n := by
  revert n
  decide

theorem ofByte_fixMap {n : Nat} (fits : n < 16) :
    Marker.ofByte (UInt8.ofNat (0x80 + n)) = .fixMap n := by
  revert n
  decide

/-- The whole number that a head is. -/
def Item.integer? : Item → Option Int
  | .natural n => some n
  | .signed n => some n
  | _ => none

theorem heads_packNat {n : Nat} (fits : n < 0x10000000000000000) :
    ∃ m, m.isPlain ∧ Heads (packNat n) m (.natural n) := by
  unfold packNat
  split
  case isTrue small => exact ⟨_, rfl, .mk (ofByte_fixPos small) (.pure _)⟩
  split
  case isTrue one => exact ⟨_, rfl, .unsigned (by decide) one⟩
  split
  case isTrue two => exact ⟨_, rfl, .unsigned (by decide) two⟩
  split
  case isTrue four => exact ⟨_, rfl, .unsigned (by decide) four⟩
  case isFalse => exact ⟨_, rfl, .unsigned (by decide) fits⟩

theorem heads_packInt {n : Int} (low : -0x8000000000000000 ≤ n) (high : n < 0x10000000000000000) :
    ∃ m i, m.isPlain ∧ i.integer? = some n ∧ Heads (packInt n) m i := by
  unfold packInt
  split
  case isTrue natural =>
    obtain ⟨m, plain, heads⟩ := heads_packNat (n := n.toNat) (by omega)
    exact ⟨m, .natural n.toNat, plain, congrArg some (Int.toNat_of_nonneg natural), heads⟩
  split
  case isTrue small =>
    -- The one byte is marker and number, so there is nothing left to read as two's complement.
    have spelled : Bytes.ofInt 1 n = [UInt8.ofNat (0xE0 + (n + 32).toNat)] := by
      have byte : (n % 256).toNat % 256 = 0xE0 + (n + 32).toNat := by omega
      change [UInt8.ofNat ((n % 256).toNat % 256)] = _
      rw [byte]
    have value : ((n + 32).toNat : Int) - 32 = n := by omega
    rw [spelled]
    refine ⟨_, .signed n, rfl, rfl, .mk (ofByte_fixNeg (by omega)) ?_⟩
    rw [value]
    exact .pure _
  split
  case isTrue one => exact ⟨_, _, rfl, rfl, .signed (by decide) one (by omega)⟩
  split
  case isTrue two => exact ⟨_, _, rfl, rfl, .signed (by decide) two (by omega)⟩
  split
  case isTrue four => exact ⟨_, _, rfl, rfl, .signed (by decide) four (by omega)⟩
  case isFalse => exact ⟨_, _, rfl, rfl, .signed (by decide) low (by omega)⟩

theorem heads_packText {text : String} (fits : (Utf8.encode text).length < 0x100000000) :
    ∃ m, m ≠ .nil ∧ Reader.mapCount m = none ∧
      Heads (packText text) m (.text (Utf8.encode text)) := by
  unfold packText textHead
  dsimp only
  split
  case isTrue small =>
    exact ⟨.fixStr _, nofun, rfl, .mk (ofByte_fixStr small) ((Reader.reads_body _).bind_nil (.pure _))⟩
  split
  case isTrue one => exact ⟨.str 1, nofun, rfl, .str (by decide) one⟩
  split
  case isTrue two => exact ⟨.str 2, nofun, rfl, .str (by decide) two⟩
  case isFalse => exact ⟨.str 4, nofun, rfl, .str (by decide) fits⟩

theorem heads_mapHead {count : Nat} (fits : count < 0x100000000) :
    ∃ m, Heads (mapHead count) m (.map count) := by
  unfold mapHead
  split
  case isTrue small => exact ⟨_, .mk (ofByte_fixMap small) (.pure _)⟩
  split
  case isTrue two => exact ⟨_, .map (by decide) two⟩
  case isFalse => exact ⟨_, .map (by decide) fits⟩

namespace Reader

/-! ## Values -/

theorem reads_integer {kind : IntKind} {n : Int} (contained : kind.contains n)
    (low : -0x8000000000000000 ≤ n) (high : n < 0x10000000000000000) :
    (integer kind).Reads (packInt n) n := by
  obtain ⟨m, i, plain, value, heads⟩ := heads_packInt low high
  refine (heads.plainItem plain).bind_nil ?_
  have accepted : (integer.within kind n).Reads [] n := by
    rw [integer.within, if_pos contained]
    exact .pure n
  cases i <;> cases value <;> exact accepted

theorem reads_bool (b : Bool) : bool.Reads (packBool b) b := by
  cases b <;> exact fun _ => rfl

theorem reads_textOf (text : String) : (textOf (Utf8.encode text)).Reads [] text := by
  rw [textOf, Utf8.decode_encode]
  exact .pure text

section

variable {text : String} (fits : (Utf8.encode text).length < 0x100000000)
include fits

theorem item_reads_text : item.Reads (packText text) (.text (Utf8.encode text)) := by
  obtain ⟨m, -, -, heads⟩ := heads_packText fits
  exact heads.item

theorem reads_text : Reader.text.Reads (packText text) text :=
  (item_reads_text fits).bind_nil (reads_textOf text)

theorem reads_choice {known : List String} (member : known.contains text) :
    (choice known).Reads (packText text) text := by
  obtain ⟨m, -, single, heads⟩ := heads_packText fits
  refine heads.choice single ((reads_textOf text).bind_nil ?_)
  rw [choiceFrom.named, if_pos member]
  exact .pure text

theorem reads_optional_text : (optional Reader.text).Reads (packText text) (some text) := by
  obtain ⟨m, given, -, heads⟩ := heads_packText fits
  exact heads.optional given (reads_text fits)

end

theorem reads_optional_none (r : Reader α) : (optional r).Reads packNil none :=
  fun _ => rfl

/-! ## Records -/

/-- Rounds that read one piece of the bytes each, from one state to another. -/
inductive Rounds (round : σ → Reader σ) : σ → List Bytes → σ → Prop
  | nil (s : σ) : Rounds round s [] s
  | cons {s t u : σ} {piece : Bytes} {rest : List Bytes} (first : (round s).Reads piece t)
      (others : Rounds round t rest u) : Rounds round s (piece :: rest) u

theorem Rounds.reads {round : σ → Reader σ} {s t : σ} {pieces : List Bytes}
    (rounds : Rounds round s pieces t) :
    (repeated pieces.length round s).Reads pieces.flatten t := by
  induction rounds with
  | nil s => exact .pure s
  | cons first _ ih => exact first.bind ih

/-- One member of a map, read into the draft of a record. -/
def member (r : Record Reader δ α) (draft : δ) : Reader δ := do
  match ← fieldOf r (← item) with
  | none =>
    skipWithin (maxDepth - 1)
    pure draft
  | some field =>
    if field.isGiven draft then fail (.shape (.duplicateField field.name))
    field.read draft

theorem fieldMembers_eq (r : Record Reader δ α) (count : Nat) :
    fieldMembers r count = repeated count (member r) r.blank :=
  rfl

theorem reads_member {r : Record Reader δ α} {name : String}
    (fits : (Utf8.encode name).length < 0x100000000) {field : Field Reader δ}
    (known : r.field? name = some field) {draft next : δ} (new : field.isGiven draft = false)
    {packed : Bytes} (reads : (field.read draft).Reads packed next) :
    (member r draft).Reads (packText name ++ packed) next := by
  have found : (fieldOf r (.text (Utf8.encode name))).Reads [] (some field) := by
    have same : r.fields.find? (Utf8.encode ·.name = Utf8.encode name) = some field := by
      rw [← known, Record.field?]
      simp only [Utf8.encode_injective.eq_iff]
    rw [fieldOf, same]
    exact .pure _
  refine (item_reads_text fits).bind (found.nil_bind ?_)
  simp only [new, Bool.false_eq_true, if_false]
  exact reads

/-- A record is read from a map if its members lead to a draft of it. -/
theorem reads_record {r : Schema δ α} {entries : List (String × Bytes)}
    (fits : entries.length < 0x100000000) {draft : δ}
    (members : Rounds (member r) (r (m := Reader)).blank
      (entries.map fun (key, value) => packText key ++ value) draft)
    {a : α} (finished : (r (m := Reader)).finish draft = .ok a) :
    (record r).Reads (packMap entries) a := by
  obtain ⟨m, heads⟩ := heads_mapHead fits
  have filled := members.reads
  rw [List.length_map, ← List.flatMap_def, ← fieldMembers_eq] at filled
  refine heads.item.bind (filled.bind_nil ?_)
  rw [record.finish, finished]
  exact .pure a

end Reader

end MsgPack

end Switchboard
