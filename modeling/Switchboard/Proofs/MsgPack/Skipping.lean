import Switchboard.Proofs.MsgPack.RoundTrip

/-!
# Packed values are passed over

A reader that does not care for a value passes over it, whatever kind of value it is. It does so as long
as the containers in the value are nested no deeper than it may go, takes just the bytes of the value then
(`Value.Fits.reads_skip`), and refuses the value otherwise (`Value.Fits.fails_skip`).
-/

namespace Switchboard

/-- There is a first one of those that there are. -/
theorem exists_first {ε : Type} {P : ε → Prop} [DecidablePred P] {xs : List ε}
    (some : ∃ x ∈ xs, P x) :
    ∃ before x after, xs = before ++ x :: after ∧ P x ∧ ∀ y ∈ before, ¬ P y := by
  have found : (xs.find? (P ·)).isSome := by simpa [List.find?_isSome] using some
  obtain ⟨x, found⟩ := Option.isSome_iff_exists.mp found
  obtain ⟨holds, before, after, split, none⟩ := List.find?_eq_some_iff_append.mp found
  exact ⟨before, x, after, split, by simpa using holds, by simpa using none⟩

namespace MsgPack

/-! ## All values -/

/-- A value of any kind that has a packed form. The keys of a map may be any values too, and a value of a
foreign type is wrapped together with the number of its type. -/
inductive Value where
  | nothing
  | bool (b : Bool)
  | integer (n : Int)
  | single (bits : UInt32)
  | double (x : Decimal.Double)
  | text (s : String)
  | bytes (raw : Bytes)
  | list (items : List Value)
  | map (entries : List (Value × Value))
  | wrapped (type : UInt8) (raw : Bytes)

def packSingle (bits : UInt32) : Bytes :=
  0xCA :: Bytes.ofNat 4 bits.toNat

def binHead (length : Nat) : Bytes :=
  if length < 0x100 then 0xC4 :: Bytes.ofNat 1 length
  else if length < 0x10000 then 0xC5 :: Bytes.ofNat 2 length
  else 0xC6 :: Bytes.ofNat 4 length

/-- The head of a wrapped value; some lengths have a marker of their own. -/
def extHead : Nat → Bytes
  | 1 => [0xD4]
  | 2 => [0xD5]
  | 4 => [0xD6]
  | 8 => [0xD7]
  | 16 => [0xD8]
  | length =>
    if length < 0x100 then 0xC7 :: Bytes.ofNat 1 length
    else if length < 0x10000 then 0xC8 :: Bytes.ofNat 2 length
    else 0xC9 :: Bytes.ofNat 4 length

namespace Value

mutual

/-- The value in the shortest form of its kind. -/
def pack : Value → Bytes
  | nothing => packNil
  | bool b => packBool b
  | integer n => packInt n
  | single bits => packSingle bits
  | double x => packDouble x
  | text s => packText s
  | bytes raw => binHead raw.length ++ raw
  | list items => arrayHead items.length ++ packItems items
  | map entries => mapHead entries.length ++ packEntries entries
  | wrapped type raw => extHead raw.length ++ type :: raw

def packItems : List Value → Bytes
  | [] => []
  | item :: rest => item.pack ++ packItems rest

def packEntries : List (Value × Value) → Bytes
  | [] => []
  | (key, value) :: rest => key.pack ++ value.pack ++ packEntries rest

end

mutual

/-- How deep containers are nested in the value. -/
def height : Value → Nat
  | list items => heightOfItems items + 1
  | map entries => heightOfEntries entries + 1
  | wrapped .. => 1
  | _ => 0

def heightOfItems : List Value → Nat
  | [] => 0
  | item :: rest => max item.height (heightOfItems rest)

def heightOfEntries : List (Value × Value) → Nat
  | [] => 0
  | (key, value) :: rest => max (max key.height value.height) (heightOfEntries rest)

end

/-- The numbers and the lengths in the value are in the ranges that there are forms for. -/
inductive Fits : Value → Prop
  | nothing : Fits .nothing
  | bool (b : Bool) : Fits (.bool b)
  | integer {n : Int} (low : -0x8000000000000000 ≤ n) (high : n < 0x10000000000000000) :
      Fits (.integer n)
  | single (bits : UInt32) : Fits (.single bits)
  | double (x : Decimal.Double) : Fits (.double x)
  | text {s : String} (short : (Utf8.encode s).length < 0x100000000) : Fits (.text s)
  | bytes {raw : Bytes} (short : raw.length < 0x100000000) : Fits (.bytes raw)
  | list {items : List Value} (short : items.length < 0x100000000)
      (each : ∀ item ∈ items, Fits item) : Fits (.list items)
  | map {entries : List (Value × Value)} (short : entries.length < 0x100000000)
      (keys : ∀ entry ∈ entries, Fits entry.1) (values : ∀ entry ∈ entries, Fits entry.2) :
      Fits (.map entries)
  | wrapped {type : UInt8} {raw : Bytes} (short : raw.length < 0x100000000) :
      Fits (.wrapped type raw)

mutual

def ofJson : Json.Value → Value
  | .null => nothing
  | .bool b => bool b
  | .integer n => integer n
  | .float x => double x
  | .text s => text s
  | .list items => list (ofItems items)
  | .object members => map (ofMembers members)

def ofItems : List Json.Value → List Value
  | [] => []
  | item :: rest => ofJson item :: ofItems rest

def ofMembers : List (String × Json.Value) → List (Value × Value)
  | [] => []
  | (key, value) :: rest => (text key, ofJson value) :: ofMembers rest

end

theorem length_ofItems (items : List Json.Value) : (ofItems items).length = items.length := by
  induction items with
  | nil => rfl
  | cons item rest ih => rw [ofItems, List.length_cons, List.length_cons, ih]

theorem length_ofMembers (members : List (String × Json.Value)) :
    (ofMembers members).length = members.length := by
  induction members with
  | nil => rfl
  | cons member rest ih => rw [ofMembers, List.length_cons, List.length_cons, ih]

mutual

/-- Values that JSON has too are packed as JSON values are. -/
theorem pack_ofJson : ∀ v : Json.Value, (ofJson v).pack = packValue v
  | .null | .bool _ | .integer _ | .float _ | .text _ => rfl
  | .list items => by rw [ofJson, pack, packValue, length_ofItems, packItems_ofItems]
  | .object members => by rw [ofJson, pack, packValue, length_ofMembers, packEntries_ofMembers]

theorem packItems_ofItems : ∀ items, packItems (ofItems items) = MsgPack.packItems items
  | [] => rfl
  | item :: rest => by rw [ofItems, packItems, MsgPack.packItems, pack_ofJson, packItems_ofItems]

theorem packEntries_ofMembers : ∀ members, packEntries (ofMembers members) = packMembers members
  | [] => rfl
  | (key, value) :: rest => by
    rw [ofMembers, packEntries, packMembers, pack_ofJson, packEntries_ofMembers, pack]

end

theorem packItems_eq (items : List Value) : packItems items = (items.map pack).flatten := by
  induction items with
  | nil => rfl
  | cons item rest ih => rw [packItems, ih, List.map_cons, List.flatten_cons]

theorem packEntries_eq (entries : List (Value × Value)) :
    packEntries entries = (entries.map fun entry => entry.1.pack ++ entry.2.pack).flatten := by
  induction entries with
  | nil => rfl
  | cons entry rest ih => rw [packEntries, ih, List.map_cons, List.flatten_cons]

theorem heightOfItems_le {items : List Value} {depth : Nat} :
    heightOfItems items ≤ depth ↔ ∀ item ∈ items, item.height ≤ depth := by
  induction items with
  | nil => simp [heightOfItems]
  | cons item rest ih => rw [heightOfItems, Nat.max_le, ih, List.forall_mem_cons]

theorem heightOfEntries_le {entries : List (Value × Value)} {depth : Nat} :
    heightOfEntries entries ≤ depth ↔
      ∀ entry ∈ entries, entry.1.height ≤ depth ∧ entry.2.height ≤ depth := by
  induction entries with
  | nil => simp [heightOfEntries]
  | cons entry rest ih => rw [heightOfEntries, Nat.max_le, Nat.max_le, ih, List.forall_mem_cons]

theorem lt_heightOfItems {items : List Value} {depth : Nat} :
    depth < heightOfItems items ↔ ∃ item ∈ items, depth < item.height := by
  rw [← Nat.not_le, heightOfItems_le]
  simp only [Classical.not_forall, exists_prop, Nat.not_le]

theorem lt_heightOfEntries {entries : List (Value × Value)} {depth : Nat} :
    depth < heightOfEntries entries ↔
      ∃ entry ∈ entries, depth < entry.1.height ∨ depth < entry.2.height := by
  rw [← Nat.not_le, heightOfEntries_le]
  simp only [Classical.not_forall, exists_prop, Classical.not_and_iff_not_or_not, Nat.not_le]

end Value

/-! ## Heads of the other kinds -/

namespace Heads

variable {b : UInt8} {size : Nat}

theorem array (asks : Marker.ofByte b = .array size) {count : Nat}
    (fits : count < Bytes.capacity size) :
    Heads (b :: Bytes.ofNat size count) (.array size) (.list count) :=
  .mk asks ((Reader.reads_length fits).bind_nil (.pure _))

theorem bin (asks : Marker.ofByte b = .bin size) {raw : Bytes}
    (fits : raw.length < Bytes.capacity size) :
    Heads (b :: Bytes.ofNat size raw.length ++ raw) (.bin size) (.bytes raw) :=
  .mk asks ((Reader.reads_length fits).bind ((Reader.reads_body raw).bind_nil (.pure _)))

theorem ext (asks : Marker.ofByte b = .ext size) {length : Nat}
    (fits : length < Bytes.capacity size) :
    Heads (b :: Bytes.ofNat size length) (.ext size) (.wrapped length) :=
  .mk asks ((Reader.reads_length fits).bind_nil (.pure _))

end Heads

theorem ofByte_fixArray {n : Nat} (fits : n < 16) :
    Marker.ofByte (UInt8.ofNat (0x90 + n)) = .fixArray n := by
  revert n
  decide

theorem heads_arrayHead {count : Nat} (fits : count < 0x100000000) :
    ∃ m, Heads (arrayHead count) m (.list count) := by
  unfold arrayHead
  split
  case isTrue small => exact ⟨_, .mk (ofByte_fixArray small) (.pure _)⟩
  split
  case isTrue two => exact ⟨_, .array (by decide) two⟩
  case isFalse => exact ⟨_, .array (by decide) fits⟩

theorem heads_bytes {raw : Bytes} (fits : raw.length < 0x100000000) :
    ∃ m, Heads (binHead raw.length ++ raw) m (.bytes raw) := by
  unfold binHead
  split
  case isTrue one => exact ⟨_, .bin (by decide) one⟩
  split
  case isTrue two => exact ⟨_, .bin (by decide) two⟩
  case isFalse => exact ⟨_, .bin (by decide) fits⟩

theorem heads_extHead {length : Nat} (fits : length < 0x100000000) :
    ∃ m, Heads (extHead length) m (.wrapped length) := by
  unfold extHead
  split
  case h_6 =>
    split
    case isTrue one => exact ⟨_, .ext (by decide) one⟩
    split
    case isTrue two => exact ⟨_, .ext (by decide) two⟩
    case isFalse => exact ⟨_, .ext (by decide) fits⟩
  all_goals exact ⟨_, .mk (m := .fixExt _) rfl (.pure _)⟩

theorem heads_nothing : Heads packNil .nil .nothing :=
  .mk rfl (.pure _)

theorem heads_bool (b : Bool) : Heads (packBool b) (.bool b) (.bool b) := by
  cases b <;> exact .mk rfl (.pure _)

theorem heads_float {b : UInt8} {size : Nat} (asks : Marker.ofByte b = .float size) (n : Nat) :
    ∃ x, Heads (b :: Bytes.ofNat size n) (.float size) (.float x) :=
  ⟨_, .mk asks ((Reader.reads_number (Bytes.length_ofNat size n)).bind_nil (.pure _))⟩

namespace Reader

/-! ## Refusals -/

variable {α β σ : Type}

/-- The reader refuses what begins with these bytes. -/
def Fails (r : Reader α) (packed : Bytes) (flaw : Flaw) : Prop :=
  ∀ rest, ∃ left, r (packed ++ rest) = .error flaw left

namespace Fails

theorem bind {r : Reader α} {packed : Bytes} {flaw : Flaw} (fails : r.Fails packed flaw)
    (f : α → Reader β) (more : Bytes) : (r >>= f).Fails (packed ++ more) flaw := by
  intro rest
  obtain ⟨left, failed⟩ := fails (more ++ rest)
  refine ⟨left, ?_⟩
  change EStateM.bind r f (packed ++ more ++ rest) = _
  rw [EStateM.bind, List.append_assoc, failed]

theorem bind_nil {r : Reader α} {packed : Bytes} {flaw : Flaw} (fails : r.Fails packed flaw)
    (f : α → Reader β) : (r >>= f).Fails packed flaw := by
  have both := fails.bind f []
  rwa [List.append_nil] at both

theorem decode {r : Reader α} {packed : Bytes} {flaw : Flaw} (fails : r.Fails packed flaw)
    (tail : Bytes) : MsgPack.decode r (packed ++ tail) = .error flaw := by
  obtain ⟨left, failed⟩ := fails tail
  rw [MsgPack.decode, failed]

theorem fail (flaw : Flaw) : (Reader.fail flaw : Reader α).Fails [] flaw :=
  fun rest => ⟨rest, rfl⟩

end Fails

theorem Reads.bind_fails {r : Reader α} {packed : Bytes} {a : α} (first : r.Reads packed a)
    {f : α → Reader β} {more : Bytes} {flaw : Flaw} (second : (f a).Fails more flaw) :
    (r >>= f).Fails (packed ++ more) flaw := by
  intro rest
  obtain ⟨left, failed⟩ := second rest
  refine ⟨left, ?_⟩
  change EStateM.bind r f (packed ++ more ++ rest) = _
  rw [EStateM.bind, List.append_assoc, first]
  exact failed

/-- What fails takes nothing. -/
theorem Reads.bind_fails_nil {r : Reader α} {packed : Bytes} {a : α} (first : r.Reads packed a)
    {f : α → Reader β} {flaw : Flaw} (second : (f a).Fails [] flaw) : (r >>= f).Fails packed flaw := by
  have both := first.bind_fails second
  rwa [List.append_nil] at both

/-- Rounds come to nothing if one of them fails. -/
theorem Rounds.fails {round : σ → Reader σ} {s t : σ} {before : List Bytes} {piece : Bytes}
    {flaw : Flaw} (rounds : Rounds round s before t) (failed : (round t).Fails piece flaw)
    (after : List Bytes) :
    (repeated (before ++ piece :: after).length round s).Fails
      (before ++ piece :: after).flatten flaw := by
  induction rounds with
  | nil s => exact failed.bind _ _
  | cons first _ ih => exact first.bind_fails (ih failed)

theorem Rounds.of_forall {round : Unit → Reader Unit} {pieces : List Bytes}
    (each : ∀ piece ∈ pieces, (round ()).Reads piece ()) : Rounds round () pieces () := by
  induction pieces with
  | nil => exact .nil ()
  | cons piece rest ih =>
    obtain ⟨first, others⟩ := List.forall_mem_cons.mp each
    exact .cons first (ih others)

/-! ## Passing over a value -/

/-- Pass over a key and its value. -/
def skipEntry (skip : Reader Unit) : Reader Unit := do
  skip
  skip

/-- Pass over what follows the head of a value, with `skip` for the values in it. -/
def skipRest (skip : Reader Unit) : Item → Reader Unit
  | .list count => repeated count (fun () => skip) ()
  | .map count => repeated count (fun () => skipEntry skip) ()
  | .wrapped n => do
    let _ ← number 1
    let _ ← body n
  | _ => pure ()

/-! The recursion stands below a match on the head, so that there are no equations to unfold it with. -/

theorem skipWithin_zero : skipWithin 0 = itemWithin 0 >>= fun
    | .wrapped n => do
      let _ ← number 1
      let _ ← body n
    | _ => pure () := by
  delta skipWithin
  exact bind_congr fun i => by cases i <;> rfl

theorem skipWithin_succ (depth : Nat) :
    skipWithin (depth + 1) = itemWithin (depth + 1) >>= skipRest (skipWithin depth) := by
  delta skipWithin
  exact bind_congr fun i => by cases i <;> rfl

variable {packed : Bytes} {i : Item} {depth : Nat}

theorem itemWithin_reads (reads : item.Reads packed i) (plain : i.isNested = false) :
    (itemWithin depth).Reads packed i := by
  refine reads.bind_nil ?_
  rw [plain, Bool.and_false]
  exact .pure i

theorem itemWithin_succ_reads (reads : item.Reads packed i) :
    (itemWithin (depth + 1)).Reads packed i :=
  reads.bind_nil (.pure i)

theorem itemWithin_fails (reads : item.Reads packed i) (nested : i.isNested) :
    (itemWithin 0).Fails packed .nestedTooDeep := by
  refine reads.bind_fails_nil ?_
  rw [nested]
  exact .fail _

theorem skip_plain (reads : item.Reads packed i) (plain : i.isNested = false) :
    (skipWithin depth).Reads packed () := by
  have rest : (itemWithin depth).Reads packed i := itemWithin_reads reads plain
  cases depth with
  | zero =>
    rw [skipWithin_zero]
    refine rest.bind_nil ?_
    cases i <;> first | exact .pure () | cases plain
  | succ depth =>
    rw [skipWithin_succ]
    refine rest.bind_nil ?_
    cases i <;> first | exact .pure () | cases plain

theorem skip_nested_fails (reads : item.Reads packed i) (nested : i.isNested) (more : Bytes) :
    (skipWithin 0).Fails (packed ++ more) .nestedTooDeep := by
  rw [skipWithin_zero]
  exact (itemWithin_fails reads nested).bind _ more

theorem skip_wrapped {raw : Bytes} (reads : item.Reads packed (.wrapped raw.length)) (type : UInt8) :
    (skipWithin (depth + 1)).Reads (packed ++ type :: raw) () := by
  rw [skipWithin_succ]
  have one : [type].length = 1 := rfl
  exact (itemWithin_succ_reads reads).bind
    ((reads_number one).bind ((reads_body raw).bind_nil (.pure ())))

section

variable {ε : Type} {elements : List ε} {spell : ε → Bytes} {round : Unit → Reader Unit}
  (reads : item.Reads packed i)
  (asks : skipRest (skipWithin depth) i = repeated elements.length round ())
include reads asks

/-- A container is passed over if each of its elements is. -/
theorem skip_elements (each : ∀ x ∈ elements, (round ()).Reads (spell x) ()) :
    (skipWithin (depth + 1)).Reads (packed ++ (elements.map spell).flatten) () := by
  rw [skipWithin_succ]
  refine (itemWithin_succ_reads reads).bind ?_
  have rounds : Rounds round () (elements.map spell) () := .of_forall (List.forall_mem_map.mpr each)
  have count : (elements.map spell).length = elements.length := List.length_map spell
  rw [asks, ← count]
  exact rounds.reads

/-- A container is refused for the first of its elements that is. -/
theorem skip_elements_fails {Bad : ε → Prop} [DecidablePred Bad] (some : ∃ x ∈ elements, Bad x)
    {flaw : Flaw} (fails : ∀ x ∈ elements, Bad x → (round ()).Fails (spell x) flaw)
    (each : ∀ x ∈ elements, ¬ Bad x → (round ()).Reads (spell x) ()) :
    (skipWithin (depth + 1)).Fails (packed ++ (elements.map spell).flatten) flaw := by
  obtain ⟨before, x, after, rfl, bad, good⟩ := exists_first some
  rw [skipWithin_succ]
  refine (itemWithin_succ_reads reads).bind_fails ?_
  have rounds : Rounds round () (before.map spell) () :=
    .of_forall (List.forall_mem_map.mpr fun y mem => each y (List.mem_append_left _ mem) (good y mem))
  have count : ((before ++ x :: after).map spell).length = _ := List.length_map spell
  rw [asks, ← count, List.map_append, List.map_cons]
  exact rounds.fails (fails x (by simp) bad) _

end

end Reader

namespace Value

open Reader

/-- A value that is nested no deeper than allowed is passed over as a whole. -/
theorem Fits.reads_skip {v : Value} (fits : v.Fits) {depth : Nat} (within : v.height ≤ depth) :
    (skipWithin depth).Reads v.pack () := by
  induction fits generalizing depth with
  | nothing => exact skip_plain heads_nothing.item rfl
  | bool b => exact skip_plain (heads_bool b).item rfl
  | integer low high =>
    obtain ⟨m, i, -, number, heads⟩ := heads_packInt low high
    refine skip_plain heads.item ?_
    cases i <;> first | rfl | cases number
  | single bits =>
    obtain ⟨x, heads⟩ := heads_float (b := 0xCA) rfl bits.toNat
    exact skip_plain heads.item rfl
  | double x =>
    obtain ⟨x, heads⟩ := heads_float (b := 0xCB) rfl x.bits.toNat
    exact skip_plain heads.item rfl
  | text short => exact skip_plain (item_reads_text short) rfl
  | bytes short =>
    obtain ⟨m, heads⟩ := heads_bytes short
    exact skip_plain heads.item rfl
  | list short each ih =>
    obtain ⟨deeper, rfl⟩ := Nat.exists_eq_add_of_le' (Nat.le_of_add_left_le within)
    have within := heightOfItems_le.mp (Nat.le_of_succ_le_succ within)
    obtain ⟨m, heads⟩ := heads_arrayHead short
    rw [pack, packItems_eq]
    exact skip_elements heads.item rfl fun item mem => ih item mem (within item mem)
  | map short keys values ihKeys ihValues =>
    obtain ⟨deeper, rfl⟩ := Nat.exists_eq_add_of_le' (Nat.le_of_add_left_le within)
    have within := heightOfEntries_le.mp (Nat.le_of_succ_le_succ within)
    obtain ⟨m, heads⟩ := heads_mapHead short
    rw [pack, packEntries_eq]
    refine skip_elements heads.item rfl fun entry mem => ?_
    exact (ihKeys entry mem (within entry mem).1).bind (ihValues entry mem (within entry mem).2)
  | wrapped short =>
    obtain ⟨deeper, rfl⟩ := Nat.exists_eq_add_of_le' within
    obtain ⟨m, heads⟩ := heads_extHead short
    exact skip_wrapped heads.item _

/-- A value that is nested deeper than allowed is refused, wherever in it that is. -/
theorem Fits.fails_skip {v : Value} (fits : v.Fits) {depth : Nat} (deep : depth < v.height) :
    (skipWithin depth).Fails v.pack .nestedTooDeep := by
  induction fits generalizing depth with
  | list short each ih =>
    obtain ⟨m, heads⟩ := heads_arrayHead short
    rw [pack, packItems_eq]
    cases depth with
    | zero => exact skip_nested_fails heads.item rfl _
    | succ depth =>
      have some := lt_heightOfItems.mp (Nat.lt_of_succ_lt_succ deep)
      refine skip_elements_fails heads.item rfl some (fun item mem => ih item mem) ?_
      exact fun item mem shallow => (each item mem).reads_skip (Nat.not_lt.mp shallow)
  | map short keys values ihKeys ihValues =>
    obtain ⟨m, heads⟩ := heads_mapHead short
    rw [pack, packEntries_eq]
    cases depth with
    | zero => exact skip_nested_fails heads.item rfl _
    | succ depth =>
      have some := lt_heightOfEntries.mp (Nat.lt_of_succ_lt_succ deep)
      refine skip_elements_fails heads.item rfl some (fun entry mem bad => ?_)
        fun entry mem good => ?_
      · by_cases key : depth < entry.1.height
        · exact (ihKeys entry mem key).bind _ _
        · refine ((keys entry mem).reads_skip (Nat.not_lt.mp key)).bind_fails ?_
          exact ihValues entry mem (bad.resolve_left key)
      · obtain ⟨key, value⟩ := not_or.mp good
        exact ((keys entry mem).reads_skip (Nat.not_lt.mp key)).bind
          ((values entry mem).reads_skip (Nat.not_lt.mp value))
  | @wrapped type raw short =>
    obtain ⟨m, heads⟩ := heads_extHead short
    obtain rfl := Nat.lt_one_iff.mp deep
    exact skip_nested_fails heads.item rfl _
  | _ => cases deep

end Value

end MsgPack

end Switchboard
