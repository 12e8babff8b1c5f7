import Switchboard.Json.Token

/-!
# Passing over a value

A member nobody asked for is passed over without being kept. It has to be JSON, but less is made of
it: numbers have no size, an escape by number may be any four digits, and containers may be nested to
any depth.
-/

namespace Switchboard.Json.Reader

def skipDigits : Reader Unit := do
  let _ ← takeWhile Char.isDigit

/-- Digits, of which there has to be one. -/
def skipSomeDigits : Reader Unit := do
  if !(← peek).any Char.isDigit then failAhead .invalidNumber
  skipDigits

def skipExponent : Reader Unit := do
  if (← peek).any isExponentLetter then
    skip
    if (← peek).any (fun c => c = '+' || c = '-') then skip
    skipSomeDigits

def skipNumber : Reader Unit := do
  if (← peek) = some '-' then skip
  if (← peek) = some '0' then
    skip
    if (← peek).any Char.isDigit then failAhead .invalidNumber
  else skipSomeDigits
  if (← peek) = some '.' then
    skip
    skipSomeDigits
  skipExponent

def skipEscape : Reader Unit := do
  match ← peek with
  | none => failHere (.ended .string)
  | some 'u' =>
    skip
    let _ ← hexUnit
  | some c => if (escapedChar? c).isSome then skip else failAhead .invalidEscape

/-- A text, from its opening to its closing quote. -/
def skipQuoted : Reader Unit := do
  skip
  iterate (fun () => do
    match ← peek with
    | none => failHere (.ended .string)
    | some '"' =>
      skip
      pure (.done ())
    | some '\\' =>
      skip
      skipEscape
      pure (.again ())
    | some c =>
      if isControl c then failHere .controlCharacter
      skip
      pure (.again ())) ()

/-- The key and the colon of a member. -/
def skipKey : Reader Unit := do
  match ← nextPeek with
  | none => failHere (.ended .object)
  | some '"' => skipQuoted
  | some _ => failAhead .keyNotString
  match ← nextPeek with
  | none => failHere (.ended .object)
  | some ':' => skip
  | some _ => failAhead .expectedColon

inductive Container where
  | list | object
  deriving DecidableEq, Repr

namespace Container

def close : Container → Char
  | list => ']'
  | object => '\x7d'

def unfinished : Container → Unfinished
  | list => .list
  | object => .object

/-- What is missed when neither a comma nor the end follows a value. -/
def expected : Container → Cause
  | list => .expectedListCommaOrEnd
  | object => .expectedObjectCommaOrEnd

end Container

/-- Where passing over a value has got to: to a value, or behind one in a container. Containers that
are open around that are listed from the inside. -/
inductive Passing where
  | value (around : List Container)
  | behind (container : Container) (around : List Container)
  deriving DecidableEq, Repr

/-- What follows a value in these containers. -/
def Passing.after : List Container → Round Passing Unit
  | [] => .done ()
  | container :: around => .again (.behind container around)

/-- Pass over a scalar, or the bracket that opens a container. -/
def skipScalar : Reader (Option Container) := do
  match ← nextPeek with
  | none => failHere (.ended .value)
  | some 'n' =>
    nullWord
    pure none
  | some 't' =>
    trueWord
    pure none
  | some 'f' =>
    falseWord
    pure none
  | some '"' =>
    skipQuoted
    pure none
  | some '[' =>
    skip
    pure (some .list)
  | some '\x7b' =>
    skip
    pure (some .object)
  | some c =>
    if c = '-' || c.isDigit then
      skipNumber
      pure none
    else failAhead .expectedValue

/-- Pass on inside a container, to its next value or out of it. -/
def skipInside (first : Bool) (container : Container) (around : List Container) :
    Reader (Round Passing Unit) := do
  match ← nextPeek with
  | none => failHere (.ended container.unfinished)
  | some c =>
    if c = container.close then
      skip
      pure (Passing.after around)
    else if !first && c ≠ ',' then failAhead container.expected
    else
      if !first then skip
      if container = .object then skipKey
      pure (.again (.value (container :: around)))

/-- Pass on by a scalar, a bracket or a comma with what belongs to it. -/
def skipPart : Passing → Reader (Round Passing Unit)
  | .value around => do
    match ← skipScalar with
    | none => pure (Passing.after around)
    | some container => skipInside true container around
  | .behind container around => skipInside false container around

/-- Pass over one value. -/
def skipValue : Reader Unit :=
  iterate skipPart (.value [])

end Switchboard.Json.Reader
