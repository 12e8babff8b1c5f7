import Switchboard.Json.Container
import Switchboard.Json.Skip
import Switchboard.Json.Value
import Switchboard.Shape.Record

/-!
# Reading JSON

`Reader.value` reads any value, `Reader.record` a record, as an object or as the list of its fields;
the other readers want a value of one kind. `decode` reads a whole text.

A value of the wrong kind is read far enough to be named in the flaw.
-/

namespace Switchboard.Json

open Shape (IntKind Wanted Found Record)

namespace Reader

variable {α δ : Type}

/-- Refuse a value read, at the place behind it. -/
def refuseHere (flaw : Shape.Flaw) : Reader α :=
  failHere (.shape flaw)

/-- Refuse the value ahead because it is not of the wanted kind. -/
def mismatch (wanted : Wanted) : Reader α := do
  match ← peek with
  | some 'n' =>
    nullWord
    wrong .nothing
  | some 't' =>
    trueWord
    wrong (.bool true)
  | some 'f' =>
    falseWord
    wrong (.bool false)
  | some '"' => wrong (.text (← quoted))
  | some '[' => wrong .sequence
  | some '\x7b' => wrong .map
  | some c =>
    if c = '-' || c.isDigit then wrong (← number).found
    else failAhead .expectedValue
  | none => failHere .expectedValue
where
  wrong (found : Found) : Reader α := refuseHere (.wrongType found wanted)

/-- The first character of a value. -/
def valueAhead : Reader Char := do
  match ← nextPeek with
  | none => failHere (.ended .value)
  | some c => pure c

def text (wanted : Wanted) : Reader String := do
  if (← valueAhead) = '"' then quoted else mismatch wanted

def bool : Reader Bool := do
  match ← valueAhead with
  | 't' =>
    trueWord
    pure true
  | 'f' =>
    falseWord
    pure false
  | _ => mismatch .bool

def nothing : Reader Unit := do
  if (← valueAhead) = 'n' then nullWord else mismatch .nothing

def integer (kind : IntKind) : Reader Int := do
  let c ← valueAhead
  if c = '-' || c.isDigit then
    match ← number with
    | .integer n =>
      if kind.contains n then pure n
      else refuseHere (.wrongValue (.integer n) (.integer kind))
    | .float x => refuseHere (.wrongType (.float x) (.integer kind))
  else mismatch (.integer kind)

def optional (value : Reader α) : Reader (Option α) := do
  if (← nextPeek) = some 'n' then
    nullWord
    pure none
  else
    let a ← value
    pure (some a)

def list (item : Reader α) : Reader (List α) := do
  if (← valueAhead) = '[' then listOf (items item) else mismatch .sequence

/-- One of several names, alone or as the key of an object whose value is missing. -/
def choice (known : List String) : Reader String := do
  match ← valueAhead with
  | '"' => name
  | '\x7b' =>
    skip
    let chosen ← key
    colon
    nothing
    match ← nextPeek with
    | none => failHere (.ended .object)
    | some '\x7d' =>
      skip
      pure chosen
    | some _ => failHere .expectedValue
  | _ => failAhead .expectedValue
where
  name : Reader String := do
    let name ← quoted
    if known.contains name then pure name else refuseHere (.unknownVariant name known)
  key : Reader String := do
    match ← nextPeek with
    | none => failHere (.ended .object)
    | some '"' => name
    | some '\x7d' => failAhead .expectedValue
    | some _ => failAhead .keyNotString

/-- Any value, with containers nested no deeper than given. -/
def valueWithin (depth : Nat) : Reader Value := do
  match ← valueAhead with
  | 'n' =>
    nullWord
    pure .null
  | 't' =>
    trueWord
    pure (.bool true)
  | 'f' =>
    falseWord
    pure (.bool false)
  | '"' => .text <$> quoted
  | c =>
    if c = '-' || c.isDigit then
      match ← number with
      | .integer n => pure (.integer n)
      | .float x => pure (.float x)
    else if c = '[' || c = '\x7b' then
      match depth with
      | 0 => failAhead .nestedTooDeep
      | depth + 1 =>
        if c = '[' then .list <$> listOf (items (valueWithin depth))
        else
          let all ← objectOf (members (valueWithin depth))
          pure (.object (Members.ofList all))
    else failAhead .expectedValue

/-- The number of containers that may stand around a value. -/
def maxDepth : Nat := 127

def value : Reader Value :=
  valueWithin maxDepth

instance : Shape.Source Reader where
  integer := integer
  text := text .text
  bool := bool
  optional := optional
  choice _ := choice
  refuse flaw := failUnplaced (.shape flaw)

/-- A member of an object, read into a draft; one that is no field of the record is passed over. -/
def fieldRound (r : Record Reader δ α) : Bool × δ → Reader (Round (Bool × δ) δ)
  | (first, draft) => do
    if ← nextMember first then
      let key ← quoted
      match r.field? key with
      | none =>
        colon
        skipValue
        pure (.again (false, draft))
      | some field =>
        if field.isGiven draft then failUnplaced (.shape (.duplicateField key))
        colon
        let draft ← field.read draft
        pure (.again (false, draft))
    else pure (.done draft)

/-- The fields of a record from the members of an object, in any order and among others. -/
def fieldMembers (r : Record Reader δ α) : Reader δ :=
  iterate (fieldRound r) (true, r.blank)

def record (r : Record Reader δ α) : Reader α := do
  match ← valueAhead with
  | '[' => listOf (do finish (← r.ofItems fun index => nextItem (index = 0)))
  | '\x7b' => objectOf (do finish (← fieldMembers r))
  | _ => mismatch (.record r.name)
where
  finish (draft : δ) : Reader α :=
    match r.finish draft with
    | .ok a => pure a
    | .error name => failUnplaced (.shape (.missingField name))

/-- Nothing but white space is left. -/
def finished : Reader Unit := do
  if (← nextPeek).isSome then failAhead .trailingCharacters

end Reader

/-- Read a whole text. -/
def decode {α : Type} (reader : Reader α) (text : String) : Except Flaw α :=
  let whole : Reader α := do
    let a ← reader
    Reader.finished
    pure a
  match whole (.ofString text) with
  | .ok a _ => .ok a
  | .error flaw _ => .error flaw

end Switchboard.Json
