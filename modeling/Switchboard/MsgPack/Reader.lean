import Switchboard.Json.Value
import Switchboard.MsgPack.Octets

/-!
# Reading MessagePack

`Reader.item` reads the head of a value: the whole of a number or a text, only the count of a list or
a map. The readers built on it want a value of one kind; `Reader.record` reads a record, as a map or
as the list of its fields, and `Reader.value` reads what JSON has a value for. Bytes after the value
are nobody's business.

A place for a number or a boolean refuses the marker of anything longer at sight; every other place
reads the head and names it in the flaw.
-/

namespace Switchboard.MsgPack

open Shape (IntKind Wanted Found Record Field Schema)

abbrev Reader := EStateM Flaw Bytes

/-- The head of a value. -/
inductive Item where
  | nothing
  | bool (b : Bool)
  | natural (n : Nat)
  | signed (n : Int)
  | float (x : Decimal.Double)
  | text (raw : Bytes)
  | bytes (raw : Bytes)
  | list (count : Nat)
  | map (count : Nat)
  /-- A value of a foreign type, with the length of its body. -/
  | wrapped (length : Nat)
  deriving DecidableEq, Repr

/-- Whether there are values in the value. -/
def Item.isNested : Item → Bool
  | .list _ | .map _ | .wrapped _ => true
  | _ => false

namespace Reader

variable {α δ σ : Type}

def fail (flaw : Flaw) : Reader α :=
  throw flaw

def byte (flaw : Flaw) : Reader UInt8
  | [] => .error flaw []
  | b :: rest => .ok b rest

def take (flaw : Flaw) (n : Nat) : Reader Bytes := fun bytes =>
  let taken := bytes.take n
  if taken.length = n then .ok taken (bytes.drop n) else .error flaw bytes

def number (size : Nat) : Reader Bytes :=
  take .cutNumber size

def length (size : Nat) : Reader Nat := do
  pure (← number size).toNat

def body (n : Nat) : Reader Bytes :=
  take .cutBody n

def marker : Reader Marker := do
  pure (.ofByte (← byte .noMarker))

/-- The rest of a head, after its marker. -/
def itemOf : Marker → Reader Item
  | .nil => pure .nothing
  | .reserved => fail (.wrongMarker .reserved)
  | .bool b => pure (.bool b)
  | .fixPos n => pure (.natural n)
  | .fixNeg n => pure (.signed n)
  | .unsigned size => do pure (.natural (← number size).toNat)
  | .signed size => do pure (.signed (← number size).toInt)
  | .float size => do
    let raw ← number size
    pure (.float (if size = 4 then .ofSingleBits (UInt32.ofNat raw.toNat) else ⟨UInt64.ofNat raw.toNat⟩))
  | .fixStr n => do pure (.text (← body n))
  | .str size => do pure (.text (← body (← length size)))
  | .bin size => do pure (.bytes (← body (← length size)))
  | .fixArray count => pure (.list count)
  | .array size => do pure (.list (← length size))
  | .fixMap count => pure (.map count)
  | .map size => do pure (.map (← length size))
  | .fixExt n => pure (.wrapped n)
  | .ext size => do pure (.wrapped (← length size))

def item : Reader Item := do
  itemOf (← marker)

/-- The head of a value with containers nested no deeper than given. -/
def itemWithin (depth : Nat) : Reader Item := do
  let head ← item
  if depth = 0 && head.isNested then fail .nestedTooDeep else pure head

def textOf (raw : Bytes) : Reader String :=
  match Utf8.decode raw with
  | .ok s => pure s
  | .error flaw => fail (.notText flaw)

/-- Refuse a value because it is not of the wanted kind. A text that is none is refused as such. -/
def refuse (wanted : Wanted) : Item → Reader α
  | .nothing => wrong .nothing
  | .bool b => wrong (.bool b)
  | .natural n => wrong (.integer n)
  | .signed n => wrong (.integer n)
  | .float x => wrong (.float x)
  | .text raw => do wrong (.text (← textOf raw))
  | .bytes _ => wrong .bytes
  | .list _ => wrong .sequence
  | .map _ => wrong .map
  | .wrapped _ => wrong .wrapped
where
  wrong (found : Found) : Reader α := fail (.shape (.wrongType found wanted))

/-- The head of a number, a boolean or the missing value; other markers are refused at sight. -/
def plainItem : Reader Item := do
  let m ← marker
  if m.isPlain then itemOf m else fail (.wrongMarker m)

def integer (kind : IntKind) : Reader Int := do
  match ← plainItem with
  | .natural n => within n
  | .signed n => within n
  | other => refuse (.integer kind) other
where
  within (n : Int) : Reader Int :=
    if kind.contains n then pure n
    else fail (.shape (.wrongValue (.integer n) (.integer kind)))

def bool : Reader Bool := do
  match ← plainItem with
  | .bool b => pure b
  | other => refuse .bool other

/-- A text; bytes will do if they spell one. -/
def textFrom (wanted : Wanted) : Item → Reader String
  | .text raw => textOf raw
  | .bytes raw =>
    match Utf8.decode raw with
    | .ok s => pure s
    | .error _ => fail (.shape (.wrongValue .bytes wanted))
  | other => refuse wanted other

def text : Reader String := do
  textFrom .text (← item)

def optional (value : Reader α) : Reader (Option α)
  | 0xC0 :: rest => .ok none rest
  | bytes => (some <$> value) bytes

/-- The name of a choice, or its number. -/
def choiceFrom (known : List String) : Item → Reader String
  | .text raw => do named (← textOf raw)
  | .bytes raw => named (Utf8.lossy raw)
  | .natural n =>
    match known[n]? with
    | some name => pure name
    | none => fail (.shape (.wrongValue (.integer n) (.variantIndex known.length)))
  | other => refuse .variantName other
where
  named (name : String) : Reader String :=
    if known.contains name then pure name else fail (.shape (.unknownVariant name known))

def mapCount : Marker → Option (Reader Nat)
  | .fixMap count => some (pure count)
  | .map size => some (length size)
  | _ => none

/-- One of several names, alone or as the key of a map whose one value is missing. -/
def choice (known : List String) : Reader String := do
  let m ← marker
  match mapCount m with
  | none => choiceFrom known (← itemOf m)
  | some count =>
    let n ← count
    if n ≠ 1 then fail (.wrongCount n)
    let name ← choiceFrom known (← item)
    let m ← marker
    if m = .nil then pure name else fail (.wrongMarker m)

/-- Do something a number of times. -/
def repeated : Nat → (σ → Reader σ) → σ → Reader σ
  | 0, _, state => pure state
  | n + 1, round, state => do repeated n round (← round state)

/-- Pass over a value whose containers are nested no deeper than given. -/
def skipWithin (depth : Nat) : Reader Unit := do
  match ← itemWithin depth, depth with
  | .list count, depth + 1 => repeated count (fun () => skipWithin depth) ()
  | .map count, depth + 1 =>
    repeated count (fun () => do skipWithin depth; skipWithin depth) ()
  | .wrapped n, _ => do
    let _ ← number 1
    let _ ← body n
  | _, _ => pure ()

/-- The key of a member: the first has to be a text, the others may be bytes that spell one. -/
def key (depth : Nat) (first : Bool) : Reader String := do
  match ← itemWithin depth with
  | .bytes raw => if first then refuse .key (.bytes raw) else textFrom .text (.bytes raw)
  | other => textFrom (if first then .key else .text) other

/-- Any value that JSON has too, with containers nested no deeper than given. A double that is no
number becomes the missing value. -/
def valueWithin (depth : Nat) : Reader Json.Value := do
  match ← itemWithin depth, depth with
  | .nothing, _ => pure .null
  | .bool b, _ => pure (.bool b)
  | .natural n, _ => pure (.integer n)
  | .signed n, _ => pure (.integer n)
  | .float x, _ => pure (if x.isFinite then .float x else .null)
  | .text raw, _ => do pure (.text (← textOf raw))
  | .list count, depth + 1 =>
    let items ← repeated count (fun (items : List Json.Value) => do
      pure ((← valueWithin depth) :: items)) []
    pure (.list items.reverse)
  | .map count, depth + 1 =>
    let members ← repeated count (fun (members : List (String × Json.Value)) => do
      let name ← key depth members.isEmpty
      pure ((name, ← valueWithin depth) :: members)) []
    pure (.object (Json.Members.ofList members.reverse))
  | other, _ => refuse .anything other

/-- The number of containers that may stand around a value. -/
def maxDepth : Nat := 1023

def value : Reader Json.Value :=
  valueWithin maxDepth

instance : Shape.Source Reader where
  integer := integer
  text := text
  bool := bool
  optional := optional
  choice _ := choice
  refuse flaw := fail (.shape flaw)

/-- The field a key asks for, by its name or its number; nothing for a key that is no field's. -/
def fieldOf (r : Record Reader δ α) : Item → Reader (Option (Field Reader δ))
  | .text raw | .bytes raw => pure (r.fields.find? (Utf8.encode ·.name = raw))
  | .natural n => pure r.fields[n]?
  | other => refuse .fieldName other

/-- The fields of a record from a map, in any order and among others. -/
def fieldMembers (r : Record Reader δ α) (count : Nat) : Reader δ :=
  repeated count (fun draft => do
    match ← fieldOf r (← item) with
    | none =>
      skipWithin (maxDepth - 1)
      pure draft
    | some field =>
      if field.isGiven draft then fail (.shape (.duplicateField field.name))
      field.read draft) r.blank

/-- The fields of a record from a list, in their order. -/
def fieldItems (r : Record Reader δ α) (count : Nat) : Reader δ := do
  let draft ← r.ofItems fun index => pure (index < count)
  if r.fields.length < count then fail (.wrongCount r.fields.length) else pure draft

/-- The fields of a record from bytes in the place of a list. -/
def fieldOctets (r : Record Octets δ α) (raw : Bytes) : Reader δ := fun rest =>
  match r.ofItems (fun _ => Octets.isMore) raw with
  | .ok draft _ => .ok draft rest
  | .error flaw _ => .error flaw rest

def record (r : Schema δ α) : Reader α := do
  match ← item with
  | .map count => finish (← fieldMembers r count)
  | .list count => finish (← fieldItems r count)
  | .bytes raw => finish (← fieldOctets r raw)
  | other => refuse (.record (r (m := Reader)).name) other
where
  finish (draft : δ) : Reader α :=
    match (r (m := Reader)).finish draft with
    | .ok a => pure a
    | .error name => fail (.shape (.missingField name))

end Reader

/-- Read the value that the bytes begin with. -/
def decode {α : Type} (reader : Reader α) (bytes : Bytes) : Except Flaw α :=
  match reader bytes with
  | .ok a _ => .ok a
  | .error flaw _ => .error flaw

end Switchboard.MsgPack
