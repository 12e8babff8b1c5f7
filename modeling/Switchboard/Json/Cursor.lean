import Switchboard.Json.Flaw

/-!
# Reading characters with their places

A `Cursor` is the text not read yet and the place where it begins. A `Reader` moves a cursor and
either gives a value or fails; a failure leaves the cursor where it was noticed.

A character that is refused without being read is itself counted in the place of the flaw, by one
byte (`failAhead`); what is wrong with the text read so far is placed where the cursor stands
(`failHere`).
-/

namespace Switchboard.Json

structure Cursor where
  rest : List Char
  place : Place := ⟨1, 0⟩
  deriving DecidableEq, Repr

def Place.after (p : Place) (c : Char) : Place :=
  if c = '\n' then ⟨p.line + 1, 0⟩ else ⟨p.line, p.column + c.utf8Size⟩

/-- The place a number of bytes further on. -/
def Place.afterBytes (p : Place) : Nat → List Char → Place
  | 0, _ | _, [] => p
  | n, c :: rest =>
    if c.utf8Size ≤ n then afterBytes (p.after c) (n - c.utf8Size) rest
    else ⟨p.line, p.column + n⟩

namespace Cursor

def ofString (text : String) : Cursor where
  rest := text.toList

def next? (c : Cursor) : Option (Char × Cursor) :=
  match c.rest with
  | [] => none
  | ch :: rest => some (ch, ⟨rest, c.place.after ch⟩)

/-- The place of a character refused. -/
def ahead (c : Cursor) : Place :=
  c.place.afterBytes 1 c.rest

/-- Pass over the characters of a class. -/
def dropWhile (p : Char → Bool) (c : Cursor) : Cursor :=
  let passed := c.rest.takeWhile p
  ⟨c.rest.dropWhile p, passed.foldl Place.after c.place⟩

end Cursor

abbrev Reader := EStateM Flaw Cursor

namespace Reader

variable {α σ : Type}

def peek : Reader (Option Char) :=
  fun c => .ok c.rest.head? c

/-- Read the character ahead, if there is one. -/
def skip : Reader Unit :=
  fun c => .ok () ((c.next?.map Prod.snd).getD c)

def takeWhile (p : Char → Bool) : Reader (List Char) :=
  fun c => .ok (c.rest.takeWhile p) (c.dropWhile p)

def failHere (cause : Cause) : Reader α :=
  fun c => .error ⟨cause, some c.place⟩ c

def failAhead (cause : Cause) : Reader α :=
  fun c => .error ⟨cause, some c.ahead⟩ c

/-- Fail without a place: whatever encloses the value places the flaw. -/
def failUnplaced (cause : Cause) : Reader α :=
  fun c => .error ⟨cause, none⟩ c

def isSpace (c : Char) : Bool :=
  c = ' ' || c = '\n' || c = '\t' || c = '\r'

def space : Reader Unit := do
  let _ ← takeWhile isSpace

/-- The first character after white space. -/
def nextPeek : Reader (Option Char) := do
  space
  peek

/-- What a round of a loop leaves. -/
inductive Round (σ α : Type) where
  | again (state : σ)
  | done (result : α)

/-- Repeat a round that reads at least one character each time it goes on: as many times, at most, as
there are characters left. -/
def iterate (round : σ → Reader (Round σ α)) (state : σ) : Reader α :=
  fun c => go c.rest state c
where
  go : List Char → σ → Reader α
    | [], state => do
      match ← round state with
      | .done result => pure result
      | .again _ => failHere (.ended .value)
    | _ :: left, state => do
      match ← round state with
      | .done result => pure result
      | .again next => go left next

/-- Read `body`, then the end of its container. When the body fails the end is still looked for,
and a flaw without a place is put where that search stopped. -/
def enclosed (body : Reader α) (close : Reader Unit) : Reader α := fun c =>
  match body c with
  | .ok a c =>
    match close c with
    | .ok _ c => .ok a c
    | .error flaw c => .error flaw c
  | .error flaw c =>
    match close c with
    | .ok _ c | .error _ c => .error (flaw.placedAt c.place) c

end Reader

end Switchboard.Json
