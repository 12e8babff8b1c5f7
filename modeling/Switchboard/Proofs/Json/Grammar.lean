import Switchboard.Json.Skip
import Switchboard.Json.Value

/-!
# The texts of JSON

What may be written for a value, with all the freedom that JSON leaves to whoever writes it: white space
between the tokens, a character as it is or by one of its escapes, a number in any of its forms. A text is
here a list of characters, and the grammar speaks of texts alone; only where a reader has to make something
of a text, of a key for one, the grammar says what it spells (`Quoted`).

A container is described from the left to the right as it is read: what leads up to an item, the item, and
what is left of the container (`Valid`, and `Inside` for an object whose members matter). It may be nested
to any depth.
-/

namespace Switchboard.Json

open Reader (isSpace isControl isExponentLetter escapedChar? hexUnit? Container)

/-- White space of any length. -/
def Blank (text : List Char) : Prop :=
  ∀ c ∈ text, isSpace c

-- Decided along the text and not over all characters there are.
instance (text : List Char) : Decidable (Blank text) :=
  List.decidableBAll _ text

theorem blank_nil : Blank [] := by
  simp [Blank]

theorem Blank.append {first later : List Char} (blank : Blank first) (more : Blank later) :
    Blank (first ++ later) := by
  intro c mem
  exact (List.mem_append.mp mem).elim (blank c) (more c)

/-! ## Characters and texts -/

/-- Four hexadecimal digits and the number that they spell. -/
structure Hex (digits : List Char) (n : Nat) : Prop where
  four : digits.length = 4
  value : hexUnit? digits = some n

/-- A character as it may be written in a text. Beyond the basic plane it takes two escapes by number. -/
inductive Spelled (c : Char) : List Char → Prop
  | plain (quote : c ≠ '"') (slash : c ≠ '\\') (printable : ¬ isControl c) : Spelled c [c]
  | letter {letter : Char} (meant : escapedChar? letter = some c) : Spelled c ['\\', letter]
  | unit {digits : List Char} (hex : Hex digits c.toNat) : Spelled c ('\\' :: 'u' :: digits)
  | pair {high low : List Char} {upper lower : Nat} (first : Hex high (0xD800 + upper))
      (second : Hex low (0xDC00 + lower)) (upperFits : upper < 0x400) (lowerFits : lower < 0x400)
      (code : c.toNat = upper * 0x400 + lower + 0x10000) :
      Spelled c ('\\' :: 'u' :: (high ++ '\\' :: 'u' :: low))

/-- Characters in a row, up to the closing quote. -/
inductive Spelling : List Char → List Char → Prop
  | quote : Spelling [] ['"']
  | cons {c : Char} {chars written more : List Char} (first : Spelled c written)
      (others : Spelling chars more) : Spelling (c :: chars) (written ++ more)

/-- A text in quotes. -/
inductive Quoted (s : String) : List Char → Prop
  | intro {written : List Char} (spelling : Spelling s.toList written) : Quoted s ('"' :: written)

/-- What is good for a character of a text that nobody reads. An escape by number may be half of one. -/
inductive Piece : List Char → Prop
  | plain {c : Char} (quote : c ≠ '"') (slash : c ≠ '\\') (printable : ¬ isControl c) : Piece [c]
  | letter {letter : Char} (known : (escapedChar? letter).isSome) : Piece ['\\', letter]
  | unit {digits : List Char} {n : Nat} (hex : Hex digits n) : Piece ('\\' :: 'u' :: digits)

/-- Pieces in a row, up to the closing quote. -/
inductive Pieces : List Char → Prop
  | quote : Pieces ['"']
  | cons {piece more : List Char} (first : Piece piece) (others : Pieces more) : Pieces (piece ++ more)

/-- A text in quotes that nobody reads. -/
inductive IsText : List Char → Prop
  | intro {written : List Char} (pieces : Pieces written) : IsText ('"' :: written)

/-! ## Scalars -/

/-- One of some signs, or none. -/
inductive Sign (signs : List Char) : List Char → Prop
  | missing : Sign signs []
  | there {c : Char} (mem : c ∈ signs) : Sign signs [c]

/-- A part that may be missing. -/
inductive Optionally (part : List Char → Prop) : List Char → Prop
  | missing : Optionally part []
  | there {text : List Char} (isPart : part text) : Optionally part text

/-- Digits, of which there is one at least. -/
inductive Digits : List Char → Prop
  | intro {c : Char} {more : List Char} (all : ∀ d ∈ c :: more, d.isDigit) : Digits (c :: more)

/-- The digits before the point, which begin with a zero only if this is all. -/
inductive Whole : List Char → Prop
  | zero : Whole ['0']
  | other {c : Char} {more : List Char} (isDigits : Digits (c :: more)) (nonzero : c ≠ '0') :
      Whole (c :: more)

inductive Fraction : List Char → Prop
  | intro {digits : List Char} (isDigits : Digits digits) : Fraction ('.' :: digits)

inductive Exponent : List Char → Prop
  | intro {letter : Char} {sign digits : List Char} (isLetter : isExponentLetter letter)
      (signed : Sign ['+', '-'] sign) (isDigits : Digits digits) :
      Exponent (letter :: (sign ++ digits))

inductive Numeral : List Char → Prop
  | intro {sign whole fraction exponent : List Char} (signed : Sign ['-'] sign)
      (isWhole : Whole whole) (isFraction : Optionally Fraction fraction)
      (isExponent : Optionally Exponent exponent) :
      Numeral (sign ++ (whole ++ (fraction ++ exponent)))

/-- A value that is no container. -/
inductive Scalar : List Char → Prop
  | null : Scalar ['n', 'u', 'l', 'l']
  | true : Scalar ['t', 'r', 'u', 'e']
  | false : Scalar ['f', 'a', 'l', 's', 'e']
  | number {text : List Char} (numeral : Numeral text) : Scalar text
  | text {text : List Char} (isText : IsText text) : Scalar text

/-! ## Containers -/

/-- What stands between two items, and not before the first one. -/
def comma (first : Bool) : List Char :=
  if first then [] else [',']

/-- What leads up to an item of a list: the comma, amid white space. -/
inductive Separates (first : Bool) : List Char → Prop
  | intro {before after : List Char} (space : Blank before) (more : Blank after) :
      Separates first (before ++ (comma first ++ after))

/-- What leads up to the value of a member: the comma, the key and the colon, amid white space. -/
inductive Labels (IsKey : List Char → Prop) (first : Bool) : List Char → Prop
  | intro {lead key space : List Char} (separates : Separates first lead) (isKey : IsKey key)
      (blank : Blank space) : Labels IsKey first (lead ++ (key ++ (space ++ [':'])))

namespace Reader.Container

def opening : Container → Char
  | list => '['
  | object => '\x7b'

/-- What leads up to the value of an item. -/
def Leads : Container → Bool → List Char → Prop
  | list => Separates
  | object => Labels IsText

end Reader.Container

/-- What a text can be valid as. -/
inductive Part where
  | value
  /-- What is left of a container, where the first of all items is still to come or not. -/
  | inside (container : Container) (first : Bool)
  deriving DecidableEq, Repr

/-- The texts of values, and of what is inside a container. -/
inductive Valid : Part → List Char → Prop
  | scalar {text : List Char} (isScalar : Scalar text) : Valid .value text
  | container {container : Container} {inner : List Char}
      (inside : Valid (.inside container true) inner) :
      Valid .value (container.opening :: (inner ++ [container.close]))
  | done {container : Container} {first : Bool} {space : List Char} (blank : Blank space) :
      Valid (.inside container first) space
  | item {container : Container} {first : Bool} {lead space text more : List Char}
      (leads : container.Leads first lead) (blank : Blank space) (value : Valid .value text)
      (others : Valid (.inside container false) more) :
      Valid (.inside container first) (lead ++ (space ++ text) ++ more)

/-- What is left of an object with these members, each of them a key and the text of its value. -/
inductive Inside : Bool → List (String × List Char) → List Char → Prop
  | done {first : Bool} {space : List Char} (blank : Blank space) : Inside first [] space
  | member {first : Bool} {key : String} {lead space text more : List Char}
      {members : List (String × List Char)} (labels : Labels (Quoted key) first lead)
      (blank : Blank space) (others : Inside false members more) :
      Inside first ((key, text) :: members) (lead ++ (space ++ text) ++ more)

/-- An object with these members. -/
inductive IsObject (members : List (String × List Char)) : List Char → Prop
  | intro {inner : List Char} (inside : Inside true members inner) :
      IsObject members ('\x7b' :: (inner ++ ['\x7d']))

/-- The text of a value with white space around it. -/
inductive Document (value : List Char) : List Char → Prop
  | intro {before after : List Char} (space : Blank before) (more : Blank after) :
      Document value (before ++ (value ++ after))

theorem document_self (value : List Char) : Document value value := by
  have document : Document value ([] ++ (value ++ [])) := .intro blank_nil blank_nil
  rwa [List.append_nil] at document

end Switchboard.Json
