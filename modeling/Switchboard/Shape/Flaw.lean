import Switchboard.Decimal.Double
import Switchboard.Text.Quoted

/-!
# Data of the wrong shape

Written data can be well formed and still not be what is wanted: a text where a number belongs, a
record without one of its fields. A `Flaw` says what was found and what was wanted; the two forms of
data this library reads name the missing value and doubles differently, which is their `Wording`.
-/

namespace Switchboard.Shape

/-- A range of whole numbers with a name. -/
structure IntKind where
  name : String
  low : Int
  high : Int
  deriving DecidableEq, Repr

namespace IntKind

def signed (bits : Nat) : IntKind :=
  let half : Nat := 1 <<< (bits - 1)
  ⟨s!"i{bits}", -half, half - 1⟩

def unsigned (bits : Nat) : IntKind :=
  let count : Nat := 1 <<< bits
  ⟨s!"u{bits}", 0, count - 1⟩

/-- Counts of things held in memory. -/
def size : IntKind :=
  { unsigned 64 with name := "usize" }

def contains (kind : IntKind) (n : Int) : Bool :=
  kind.low ≤ n && n ≤ kind.high

end IntKind

/-- What stands in the data. -/
inductive Found where
  | bool (b : Bool)
  | integer (n : Int)
  | float (x : Decimal.Double)
  | text (s : String)
  | bytes
  | nothing
  | sequence
  | map
  | wrapped
  deriving DecidableEq, Repr

/-- What should stand there. -/
inductive Wanted where
  | integer (kind : IntKind)
  | text
  | bool
  | nothing
  | sequence
  | anything
  | key
  | fieldName
  | variantName
  | variantIndex (count : Nat)
  | choice (name : String)
  | optional
  | record (name : String)
  | recordOf (name : String) (fields : Nat)
  deriving DecidableEq, Repr

def Wanted.shown : Wanted → String
  | .integer kind => kind.name
  | .text => "a string"
  | .bool => "a boolean"
  | .nothing => "unit"
  | .sequence => "a sequence"
  | .anything => "any valid JSON value"
  | .key => "a string key"
  | .fieldName => "field identifier"
  | .variantName => "variant identifier"
  | .variantIndex count => s!"variant index 0 <= i < {count}"
  | .choice name => "enum " ++ name
  | .optional => "option"
  | .record name => "struct " ++ name
  | .recordOf name 1 => "struct " ++ name ++ " with 1 element"
  | .recordOf name fields => "struct " ++ name ++ s!" with {fields} elements"

/-- How a form of data speaks of its values. -/
structure Wording where
  nothing : String
  float : Decimal.Layout

def Found.shown (w : Wording) : Found → String
  | .bool b => s!"boolean `{b}`"
  | .integer n => s!"integer `{n}`"
  | .float x => "floating point `" ++ w.float.render x ++ "`"
  | .text s => "string " ++ Text.quote s
  | .bytes => "byte array"
  | .nothing => w.nothing
  | .sequence => "sequence"
  | .map => "map"
  | .wrapped => "newtype struct"

inductive Flaw where
  | wrongType (found : Found) (wanted : Wanted)
  | wrongValue (found : Found) (wanted : Wanted)
  | wrongLength (length : Nat) (wanted : Wanted)
  | unknownVariant (name : String) (known : List String)
  | missingField (name : String)
  | duplicateField (name : String)
  | unknownCode (code : Int)
  deriving DecidableEq, Repr

/-- Names in backquotes: one alone, two joined by "or", more as a list. -/
def listed (names : List String) : String :=
  match names.map fun name => "`" ++ name ++ "`" with
  | [a] => a
  | [a, b] => a ++ " or " ++ b
  | all => "one of " ++ ", ".intercalate all

def Flaw.message (w : Wording) : Flaw → String
  | .wrongType found wanted =>
    "invalid type: " ++ found.shown w ++ ", expected " ++ wanted.shown
  | .wrongValue found wanted =>
    "invalid value: " ++ found.shown w ++ ", expected " ++ wanted.shown
  | .wrongLength length wanted => s!"invalid length {length}, expected " ++ wanted.shown
  | .unknownVariant name known => "unknown variant `" ++ name ++ "`, expected " ++ listed known
  | .missingField name => "missing field `" ++ name ++ "`"
  | .duplicateField name => "duplicate field `" ++ name ++ "`"
  | .unknownCode code => s!"unknown result code {code}"

end Switchboard.Shape
