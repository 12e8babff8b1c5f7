import Switchboard.Json.Token

/-!
# Lists and objects

The commas, brackets and keys around the values of a list or an object. A reader of this module
starts with the opening bracket read.
-/

namespace Switchboard.Json.Reader

variable {α : Type}

/-- Pass to the next item of a list; `false` when the list ends, its bracket still unread. -/
def nextItem (first : Bool) : Reader Bool := do
  match ← nextPeek with
  | none => failHere (.ended .list)
  | some ']' => pure false
  | some c =>
    if first then pure true
    else if c = ',' then
      skip
      match ← nextPeek with
      | none => failHere (.ended .value)
      | some ']' => failAhead .trailingComma
      | some _ => pure true
    else failAhead .expectedListCommaOrEnd

def endList : Reader Unit := do
  match ← nextPeek with
  | none => failHere (.ended .list)
  | some ']' => skip
  | some ',' =>
    skip
    if (← nextPeek) = some ']' then failAhead .trailingComma
    failAhead .trailingCharacters
  | some _ => failAhead .trailingCharacters

/-- Pass to the next key of an object; `false` when the object ends, its bracket still unread. -/
def nextMember (first : Bool) : Reader Bool := do
  match ← nextPeek with
  | none => failHere (.ended .object)
  | some '\x7d' => pure false
  | some c =>
    if first then key (some c)
    else if c = ',' then
      skip
      let ahead ← nextPeek
      if ahead = some '\x7d' then failAhead .trailingComma
      key ahead
    else failAhead .expectedObjectCommaOrEnd
where
  key : Option Char → Reader Bool
    | none => failHere (.ended .value)
    | some '"' => pure true
    | some _ => failAhead .keyNotString

def endObject : Reader Unit := do
  match ← nextPeek with
  | none => failHere (.ended .object)
  | some '\x7d' => skip
  | some ',' => failAhead .trailingComma
  | some _ => failAhead .trailingCharacters

def colon : Reader Unit := do
  match ← nextPeek with
  | none => failHere (.ended .object)
  | some ':' => skip
  | some _ => failAhead .expectedColon

/-- The items of a list. -/
def items (item : Reader α) : Reader (List α) :=
  iterate (fun (read : List α) => do
    if ← nextItem read.isEmpty then
      let a ← item
      pure (.again (a :: read))
    else pure (.done read.reverse)) []

/-- The members of an object. -/
def members (value : Reader α) : Reader (List (String × α)) :=
  iterate (fun (read : List (String × α)) => do
    if ← nextMember read.isEmpty then
      let key ← quoted
      colon
      let a ← value
      pure (.again ((key, a) :: read))
    else pure (.done read.reverse)) []

/-- A whole list, its opening bracket ahead. -/
def listOf (body : Reader α) : Reader α := do
  skip
  enclosed body endList

/-- A whole object, its opening bracket ahead. -/
def objectOf (body : Reader α) : Reader α := do
  skip
  enclosed body endObject

end Switchboard.Json.Reader
