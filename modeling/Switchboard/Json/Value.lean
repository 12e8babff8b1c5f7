import Switchboard.Decimal.Double

/-!
# JSON values and their text

`Value.render` writes compact text. The members of an object are written in the order they are held;
reading puts them in the order of their keys (`Members.ofList`).
-/

namespace Switchboard.Json

inductive Value where
  | null
  | bool (b : Bool)
  | integer (n : Int)
  | float (x : Decimal.Double)
  | text (s : String)
  | list (items : List Value)
  | object (members : List (String × Value))
  deriving Repr

abbrev Members := List (String × Value)

/-- Keep the last of neighbouring members that have one key. -/
def Members.lastOfEach : Members → Members
  | (key, value) :: (next, other) :: rest =>
    if key = next then lastOfEach ((next, other) :: rest)
    else (key, value) :: lastOfEach ((next, other) :: rest)
  | members => members

/-- The members in the order of their keys; of several with one key the last counts. -/
def Members.ofList (members : List (String × Value)) : Members :=
  Members.lastOfEach (members.mergeSort fun a b => a.1 ≤ b.1)

def Members.get? (members : Members) (key : String) : Option Value :=
  members.lookup key

/-- A character inside a quoted text. -/
def escape (c : Char) : List Char :=
  if c = '"' then ['\\', '"']
  else if c = '\\' then ['\\', '\\']
  else if c = '\x08' then ['\\', 'b']
  else if c = '\x0c' then ['\\', 'f']
  else if c = '\n' then ['\\', 'n']
  else if c = '\r' then ['\\', 'r']
  else if c = '\t' then ['\\', 't']
  else if c.toNat < 0x20 then
    ['\\', 'u', '0', '0', Nat.digitChar (c.toNat / 16), Nat.digitChar (c.toNat % 16)]
  else [c]

def quoteChars (text : String) : List Char :=
  '"' :: text.toList.flatMap escape ++ ['"']

/-- A text as JSON writes it. -/
def quote (text : String) : String :=
  String.ofList (quoteChars text)

def intChars (n : Int) : List Char :=
  if n < 0 then '-' :: Nat.toDigits 10 n.natAbs else Nat.toDigits 10 n.natAbs

namespace Value

mutual

def chars : Value → List Char
  | null => ['n', 'u', 'l', 'l']
  | bool true => ['t', 'r', 'u', 'e']
  | bool false => ['f', 'a', 'l', 's', 'e']
  | integer n => intChars n
  | float x => (Decimal.Layout.json.render x).toList
  | text s => quoteChars s
  | list items => '[' :: itemChars items ++ [']']
  | object members => '\x7b' :: memberChars members ++ ['\x7d']

def itemChars : List Value → List Char
  | [] => []
  | [item] => item.chars
  | item :: next :: rest => item.chars ++ ',' :: itemChars (next :: rest)

def memberChars : List (String × Value) → List Char
  | [] => []
  | [(key, value)] => quoteChars key ++ ':' :: value.chars
  | (key, value) :: next :: rest =>
    quoteChars key ++ ':' :: value.chars ++ ',' :: memberChars (next :: rest)

end

def render (value : Value) : String :=
  String.ofList value.chars

end Value

end Switchboard.Json
