import Switchboard.Json.Cursor
import Switchboard.Text.Utf8

/-!
# Keywords, texts and numbers

The scalar tokens of JSON. Each reader starts on the first character of its token, with white space
already passed.

A number keeps as many digits as fit in 64 bits and drops the rest, counting them; a number with a
fraction, an exponent or dropped digits is a double made from those digits by one multiplication or
division with a power of ten.
-/

namespace Switchboard.Json

open Decimal (Double)

/-- A number is whole where it can be. -/
inductive Number where
  | integer (n : Int)
  | float (x : Double)
  deriving DecidableEq, Repr

def Number.found : Number → Shape.Found
  | .integer n => .integer n
  | .float x => .float x

/-- A number as it is written: its sign, and its digits before the point. -/
structure Significand where
  value : Nat := 0
  /-- The power of ten that the value stands to be multiplied with. -/
  exponent : Int := 0
  deriving DecidableEq, Repr

def digitValue (c : Char) : Nat :=
  c.toNat - '0'.toNat

/-- Append digits while the value stays within 64 bits, giving the number of digits left over. -/
def absorb (value : Nat) : List Char → Nat × Nat
  | [] => (value, 0)
  | d :: rest =>
    let next := value * 10 + digitValue d
    if next < 0x10000000000000000 then absorb next rest else (value, rest.length + 1)

namespace Significand

/-- The digits before the point. -/
def whole (digits : List Char) : Significand :=
  let (value, dropped) := absorb 0 digits
  ⟨value, dropped⟩

def addFraction (s : Significand) (digits : List Char) : Significand :=
  let (value, dropped) := absorb s.value digits
  ⟨value, s.exponent - (digits.length - dropped : Nat)⟩

/-- Whether the number written was more than 64 bits hold. -/
def isCut (s : Significand) : Bool :=
  s.exponent ≠ 0

def powerOfTen (n : Nat) : Float :=
  Float.ofScientific 1 false n

/-- Divide by a power of ten, in steps that a double can hold. -/
def divide (x : Float) (exponent : Nat) : Float :=
  if exponent ≤ 308 then x / powerOfTen exponent
  else if x == 0 then x
  else divide (x / powerOfTen 308) (exponent - 308)
termination_by exponent

/-- The number as a double, or nothing if it is beyond all doubles. -/
def toDouble? (s : Significand) (negative : Bool) : Option Double :=
  let x := (UInt64.ofNat s.value).toFloat
  let signed (x : Float) := Double.ofFloat (if negative then -x else x)
  if s.exponent < 0 then some (signed (divide x s.exponent.natAbs))
  else if 308 < s.exponent then if s.value = 0 then some (signed x) else none
  else
    let product := x * powerOfTen s.exponent.natAbs
    if product.isInf then none else some (signed product)

/-- The number as it stands without fraction and exponent. Zero with a sign is a double. -/
def number? (s : Significand) (negative : Bool) : Option Number :=
  if s.isCut then (s.toDouble? negative).map .float
  else if !negative then some (.integer s.value)
  else if 0 < s.value && s.value ≤ 0x8000000000000000 then some (.integer (-s.value))
  else (s.toDouble? true).map .float

end Significand

namespace Reader

/-- The rest of a keyword whose first letter was seen. -/
def keyword (word : List Char) : Reader Unit :=
  word.forM fun expected => do
    match ← peek with
    | none => failHere (.ended .value)
    | some c => if c = expected then skip else failAhead .expectedKeyword

def nullWord : Reader Unit := keyword ['n', 'u', 'l', 'l']

def trueWord : Reader Unit := keyword ['t', 'r', 'u', 'e']

def falseWord : Reader Unit := keyword ['f', 'a', 'l', 's', 'e']

/-- Give a result where its cause for being absent is known. -/
def orFail (cause : Cause) : Option α → Reader α
  | some a => pure a
  | none => failHere cause

/-- The largest exponent that is counted. -/
def maxExponent : Nat := 0x7FFFFFFF

/-- The digits of an exponent; nothing when they go beyond what is counted, at the digit that does. -/
def exponentDigits : Reader (Option Nat) :=
  iterate (fun exponent => do
    match ← peek with
    | some c =>
      if c.isDigit then
        skip
        let next := exponent * 10 + digitValue c
        pure (if next ≤ maxExponent then .again next else .done none)
      else pure (.done (some exponent))
    | none => pure (.done (some exponent))) 0

/-- What follows the letter of an exponent. -/
def exponent (negative : Bool) (s : Significand) : Reader Number := do
  let sign ← peek
  if sign = some '+' || sign = some '-' then skip
  match ← peek with
  | none => failHere (.ended .value)
  | some c => if !c.isDigit then failAhead .invalidNumber
  match ← exponentDigits with
  | some e =>
    let e : Int := if sign = some '-' then -e else e
    let x ← orFail .numberOutOfRange ({ s with exponent := s.exponent + e }.toDouble? negative)
    pure (.float x)
  | none =>
    if s.value ≠ 0 && sign ≠ some '-' then failHere .numberOutOfRange
    let _ ← takeWhile Char.isDigit
    pure (.float (Double.ofFloat (if negative then -0.0 else 0.0)))

def isExponentLetter (c : Char) : Bool :=
  c = 'e' || c = 'E'

/-- What follows the digits before the point. -/
def afterWhole (negative : Bool) (s : Significand) : Reader Number := do
  let mut s := s
  let mut isWhole := true
  if (← peek) = some '.' then
    skip
    let digits ← takeWhile Char.isDigit
    if digits.isEmpty then
      if (← peek).isNone then failHere (.ended .value)
      failAhead .invalidNumber
    s := s.addFraction digits
    isWhole := false
  if (← peek).any isExponentLetter then
    skip
    exponent negative s
  else if isWhole then orFail .numberOutOfRange (s.number? negative)
  else
    let x ← orFail .numberOutOfRange (s.toDouble? negative)
    pure (.float x)

/-- A number whose sign has been read. -/
def unsignedNumber (negative : Bool) : Reader Number := do
  match ← peek with
  | none => failHere (.ended .value)
  | some '0' =>
    skip
    if (← peek).any Char.isDigit then failAhead .invalidNumber
    afterWhole negative {}
  | some c =>
    if !c.isDigit then failAhead .invalidNumber
    let digits ← takeWhile Char.isDigit
    afterWhole negative (.whole digits)

def number : Reader Number := do
  if (← peek) = some '-' then
    skip
    unsignedNumber true
  else unsignedNumber false

def hexValue? (c : Char) : Option Nat :=
  if c.isDigit then some (c.toNat - 48)
  else if 'a' ≤ c && c ≤ 'f' then some (c.toNat - 87)
  else if 'A' ≤ c && c ≤ 'F' then some (c.toNat - 55)
  else none

/-- The number that four hexadecimal digits spell. -/
def hexUnit? (digits : List Char) : Option Nat :=
  digits.foldl (fun value d => do pure ((← value) * 16 + (← hexValue? d))) (some 0)

/-- Four hexadecimal digits. Anything else is refused as a whole, by the four bytes it takes up. -/
def hexUnit : Reader Nat := fun c =>
  let digits := c.rest.take 4
  if Utf8.length digits < 4 then
    .error ⟨.ended .string, some (c.place.afterBytes 4 c.rest)⟩ c
  else
    match hexUnit? digits with
    | some unit => .ok unit ⟨c.rest.drop 4, digits.foldl Place.after c.place⟩
    | none => .error ⟨.invalidEscape, some (c.place.afterBytes 4 c.rest)⟩ c

def expectInEscape (expected : Char) : Reader Unit := do
  match ← peek with
  | none => failHere (.ended .string)
  | some c => if c = expected then skip else failAhead .unfinishedHexEscape

/-- The character of a `\u` escape, of which characters beyond the basic plane take two. -/
def unicodeEscape : Reader Char := do
  let unit ← hexUnit
  if 0xDC00 ≤ unit && unit ≤ 0xDFFF then failHere .loneSurrogate
  else if 0xD800 ≤ unit && unit ≤ 0xDBFF then
    expectInEscape '\\'
    expectInEscape 'u'
    let low ← hexUnit
    if low < 0xDC00 || 0xDFFF < low then failHere .loneSurrogate
    pure (Char.ofNat ((unit - 0xD800) * 0x400 + (low - 0xDC00) + 0x10000))
  else pure (Char.ofNat unit)

/-- The character that a letter after a backslash stands for. -/
def escapedChar? (c : Char) : Option Char :=
  [('"', '"'), ('\\', '\\'), ('/', '/'), ('b', '\x08'), ('f', '\x0c'), ('n', '\n'), ('r', '\r'),
    ('t', '\t')].lookup c

/-- The character of an escape, whose backslash has been read. -/
def escaped : Reader Char := do
  match ← peek with
  | none => failHere (.ended .string)
  | some 'u' =>
    skip
    unicodeEscape
  | some c =>
    match escapedChar? c with
    | some meant =>
      skip
      pure meant
    | none => failAhead .invalidEscape

def isControl (c : Char) : Bool :=
  c.toNat < 0x20

/-- A character of a text, or its closing quote. What is read is kept back to front. -/
def quotedRound (read : List Char) : Reader (Round (List Char) String) := do
  match ← peek with
  | none => failHere (.ended .string)
  | some '"' =>
    skip
    pure (.done (String.ofList read.reverse))
  | some '\\' =>
    skip
    let c ← escaped
    pure (.again (c :: read))
  | some c =>
    skip
    if isControl c then failHere .controlCharacter
    pure (.again (c :: read))

/-- A text, from its opening to its closing quote. -/
def quoted : Reader String := do
  skip
  iterate quotedRound []

end Reader

end Switchboard.Json
