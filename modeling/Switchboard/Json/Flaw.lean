import Switchboard.Shape.Flaw

/-!
# What can be wrong with JSON text

A flaw has a cause and, once it is known, the place where it was noticed: the line, from one, and the
number of bytes before it on that line.
-/

namespace Switchboard.Json

/-- What was being read when the text ended. -/
inductive Unfinished where
  | value | list | object | string
  deriving DecidableEq, Repr

inductive Cause where
  | ended (what : Unfinished)
  | expectedColon
  | expectedListCommaOrEnd
  | expectedObjectCommaOrEnd
  | expectedKeyword
  | expectedValue
  | invalidEscape
  | invalidNumber
  | numberOutOfRange
  | controlCharacter
  | keyNotString
  | loneSurrogate
  | trailingComma
  | trailingCharacters
  | unfinishedHexEscape
  | nestedTooDeep
  | shape (flaw : Shape.Flaw)
  /-- A cause in someone else's words. -/
  | stated (text : String)
  deriving DecidableEq, Repr

def Unfinished.shown : Unfinished → String
  | .value => "a value"
  | .list => "a list"
  | .object => "an object"
  | .string => "a string"

/-- JSON calls the missing value by its name. -/
def wording : Shape.Wording where
  nothing := "null"
  float := .json

def Cause.message : Cause → String
  | .ended what => "EOF while parsing " ++ what.shown
  | .expectedColon => "expected `:`"
  | .expectedListCommaOrEnd => "expected `,` or `]`"
  | .expectedObjectCommaOrEnd => "expected `,` or `\x7d`"
  | .expectedKeyword => "expected ident"
  | .expectedValue => "expected value"
  | .invalidEscape => "invalid escape"
  | .invalidNumber => "invalid number"
  | .numberOutOfRange => "number out of range"
  | .controlCharacter => "control character (\\u0000-\\u001F) found while parsing a string"
  | .keyNotString => "key must be a string"
  | .loneSurrogate => "lone leading surrogate in hex escape"
  | .trailingComma => "trailing comma"
  | .trailingCharacters => "trailing characters"
  | .unfinishedHexEscape => "unexpected end of hex escape"
  | .nestedTooDeep => "recursion limit exceeded"
  | .shape flaw => flaw.message wording
  | .stated text => text

structure Place where
  line : Nat
  column : Nat
  deriving DecidableEq, Repr

structure Flaw where
  cause : Cause
  place : Option Place
  deriving DecidableEq, Repr

/-- The last occurrence of a pattern: what is before it and what is after it. -/
def splitAtLast? (pattern : List Char) : List Char → Option (List Char × List Char)
  | [] => none
  | c :: rest =>
    match splitAtLast? pattern rest with
    | some (before, after) => some (c :: before, after)
    | none =>
      if pattern.isPrefixOf (c :: rest) then some ([], (c :: rest).drop pattern.length) else none

/-- A number that fits in 64 bits, written in digits only. -/
def stated64? (digits : List Char) : Option Nat :=
  if digits.isEmpty || !digits.all Char.isDigit then none
  else
    let n := digits.foldl (fun n d => n * 10 + (d.toNat - 48)) 0
    if n < 0x10000000000000000 then some n else none

/-- Take the place off the end of a text that names one. -/
def statedPlace? (text : List Char) : Option (List Char × Place) := do
  let (cause, place) ← splitAtLast? " at line ".toList text
  let line := place.takeWhile Char.isDigit
  let rest := place.dropWhile Char.isDigit
  let column := rest.drop " column ".length
  if " column ".toList.isPrefixOf rest then
    some (cause, ⟨← stated64? line, ← stated64? column⟩)
  else none

namespace Flaw

def message (flaw : Flaw) : String :=
  match flaw.place with
  | none => flaw.cause.message
  | some place => flaw.cause.message ++ s!" at line {place.line} column {place.column}"

/-- The flaw at the given place, unless it has one already. -/
def placedAt (flaw : Flaw) (place : Place) : Flaw :=
  { flaw with place := flaw.place.or (some place) }

/-- A flaw stated as a text. A text that ends in a place is a flaw at that place; line zero is no
place. -/
def ofText (text : String) : Flaw :=
  match statedPlace? text.toList with
  | none => ⟨.stated text, none⟩
  | some (cause, place) =>
    ⟨.stated (String.ofList cause), if place.line = 0 then none else some place⟩

end Flaw

end Switchboard.Json
