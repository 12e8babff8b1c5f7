import Switchboard.Json.Flaw
import Switchboard.Json.Value

/-!
# Data to be written

What is handed over to be written as JSON need not be a JSON value: the keys of a map can be of any
kind, and a part can refuse to be written. `encode` writes a datum unless one of its parts stands in
the way, and then fails as the first of them does.
-/

namespace Switchboard.Json

inductive Datum where
  | value (v : Value)
  | list (items : List Datum)
  | map (members : List (Datum × Datum))
  /-- A part that refuses to be written. -/
  | failing (flaw : Flaw)
  deriving Repr

namespace Datum

/-- The text that stands for a key. Numbers and truth values are put in quotes. -/
def keyText : Datum → Except Flaw String
  | .value (.text key) => .ok key
  | .value (.bool b) => .ok (Value.bool b).render
  | .value (.integer n) => .ok (Value.integer n).render
  | .value (.float x) => .ok (Value.float x).render
  | .failing flaw => .error flaw
  | _ => .error ⟨.keyNotString, none⟩

mutual

/-- The JSON value that is written. -/
def toValue : Datum → Except Flaw Value
  | .value v => .ok v
  | .list items => do return .list (← itemValues items)
  | .map members => do return .object (← memberValues members)
  | .failing flaw => .error flaw

def itemValues : List Datum → Except Flaw (List Value)
  | [] => .ok []
  | item :: rest => do
    let value ← item.toValue
    return value :: (← itemValues rest)

def memberValues : List (Datum × Datum) → Except Flaw (List (String × Value))
  | [] => .ok []
  | (key, member) :: rest => do
    let key ← key.keyText
    let value ← member.toValue
    return (key, value) :: (← memberValues rest)

end

/-- The members of a record, under the names of its fields. -/
def record (members : Members) : Datum :=
  .map (members.map fun (name, v) => (.value (.text name), .value v))

end Datum

def encode (d : Datum) : Except Flaw String := do
  return (← d.toValue).render

end Switchboard.Json
