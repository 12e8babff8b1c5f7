import Switchboard.Shape.Flaw

/-!
# Records

A record is described once, by the names of its fields and how each is read, and can then be read
from every form of data that is a `Source`. While it is read its fields are collected in a draft,
from which the record is finished.
-/

namespace Switchboard.Shape

/-- A form of data that fields can be read from. -/
class Source (m : Type → Type) extends Monad m where
  integer : IntKind → m Int
  text : m String
  bool : m Bool
  /-- A value, or the mark for a missing one. -/
  optional {α : Type} : m α → m (Option α)
  /-- One of several names, which are the names of something. -/
  choice (what : String) (known : List String) : m String
  /-- Refuse a value that was read well but is not one that the field can have. -/
  refuse {α : Type} : Flaw → m α

structure Field (m : Type → Type) (δ : Type) where
  name : String
  /-- Whether a list of values may end before this field. -/
  mayLack : Bool := false
  isGiven : δ → Bool
  read : δ → m δ

structure Record (m : Type → Type) (δ α : Type) where
  name : String
  blank : δ
  fields : List (Field m δ)
  /-- The finished record, or the name of a field that is missing. -/
  finish : δ → Except String α

namespace Record

variable {m : Type → Type} {δ α : Type}

def field? (r : Record m δ α) (name : String) : Option (Field m δ) :=
  r.fields.find? (·.name = name)

/-- What a list of values for the record's fields has to be. -/
def asList (r : Record m δ α) : Wanted :=
  .recordOf r.name r.fields.length

/-- Read fields from the items of a list, in their order. `more` tells whether the list has an item at
an index. -/
def itemsFrom [Source m] (r : Record m δ α) (more : Nat → m Bool) :
    Nat → List (Field m δ) → δ → m δ
  | _, [], draft => pure draft
  | index, field :: rest, draft => do
    if ← more index then
      r.itemsFrom more (index + 1) rest (← field.read draft)
    else if field.mayLack then
      r.itemsFrom more (index + 1) rest draft
    else Source.refuse (.wrongLength index r.asList)

def ofItems [Source m] (r : Record m δ α) (more : Nat → m Bool) : m δ :=
  r.itemsFrom more 0 r.fields r.blank

end Record

/-- A record that can be read from every form of data. -/
abbrev Schema (δ α : Type) :=
  ∀ {m : Type → Type} [Source m], Record m δ α

end Switchboard.Shape
