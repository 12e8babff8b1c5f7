import Switchboard.Bytes

/-!
# UTF-8

Text travels as UTF-8. `pieces` splits any byte string into the characters it spells and the
malformed stretches between them; a stretch is as long as it could still have become a character.
Reading leniently (`lossy`) puts U+FFFD for each stretch, reading strictly (`decode`) reports the
first one.
-/

namespace Switchboard.Utf8

def encode (text : String) : Bytes :=
  text.toList.flatMap String.utf8EncodeChar

/-- The number of bytes that characters take. -/
def length (chars : List Char) : Nat :=
  (chars.flatMap String.utf8EncodeChar).length

/-- One character, or one stretch of bytes that spells none. -/
inductive Piece where
  | char (c : Char)
  /-- `size` bytes; `cut` when the input ended where the character still needed bytes. -/
  | malformed (size : Nat) (cut : Bool)
  deriving DecidableEq, Repr

def Piece.size : Piece → Nat
  | .char c => c.utf8Size
  | .malformed size _ => size

/-- A character whose first bytes were read: what they spell, how many they are, how many must
follow, and the range the next of them has to be in. -/
structure Begun where
  code : Nat
  taken : Nat
  due : Nat
  low : UInt8 := 0x80
  high : UInt8 := 0xBF
  deriving DecidableEq, Repr

/-- What a byte starts: a whole character, a longer one, or nothing. -/
inductive Start where
  | ascii
  | begun (b : Begun)
  | never
  deriving DecidableEq, Repr

def start (byte : UInt8) : Start :=
  if byte < 0x80 then .ascii
  else if byte < 0xC2 then .never
  else if byte < 0xE0 then .begun ⟨byte.toNat - 0xC0, 1, 1, 0x80, 0xBF⟩
  else if byte = 0xE0 then .begun ⟨0, 1, 2, 0xA0, 0xBF⟩
  else if byte = 0xED then .begun ⟨13, 1, 2, 0x80, 0x9F⟩
  else if byte < 0xF0 then .begun ⟨byte.toNat - 0xE0, 1, 2, 0x80, 0xBF⟩
  else if byte = 0xF0 then .begun ⟨0, 1, 3, 0x90, 0xBF⟩
  else if byte < 0xF4 then .begun ⟨byte.toNat - 0xF0, 1, 3, 0x80, 0xBF⟩
  else if byte = 0xF4 then .begun ⟨4, 1, 3, 0x80, 0x8F⟩
  else .never

/-- The byte joined to the character begun. -/
def Begun.add (b : Begun) (byte : UInt8) : Begun :=
  ⟨b.code * 64 + (byte.toNat - 0x80), b.taken + 1, b.due - 1, 0x80, 0xBF⟩

def Begun.accepts (b : Begun) (byte : UInt8) : Bool :=
  b.low ≤ byte && byte ≤ b.high

/-- One byte, after the character begun if there is one: the pieces it completes and the character
it leaves begun. -/
def step (open? : Option Begun) (byte : UInt8) : List Piece × Option Begun :=
  match open? with
  | none => fresh byte
  | some b =>
    if b.accepts byte then
      if b.due = 1 then ([.char (Char.ofNat (b.add byte).code)], none) else ([], some (b.add byte))
    else
      let (pieces, next) := fresh byte
      (.malformed b.taken false :: pieces, next)
where
  fresh (byte : UInt8) : List Piece × Option Begun :=
    match start byte with
    | .ascii => ([.char (Char.ofNat byte.toNat)], none)
    | .begun b => ([], some b)
    | .never => ([.malformed 1 false], none)

def piecesFrom : Option Begun → Bytes → List Piece
  | none, [] => []
  | some b, [] => [.malformed b.taken true]
  | open?, byte :: rest =>
    let (done, next) := step open? byte
    done ++ piecesFrom next rest

def pieces (bytes : Bytes) : List Piece :=
  piecesFrom none bytes

/-- The text with U+FFFD in the place of each malformed stretch. -/
def lossy (bytes : Bytes) : String :=
  String.ofList ((pieces bytes).map fun
    | .char c => c
    | .malformed _ _ => '\ufffd')

/-- Where bytes stop being UTF-8: the length of the good part, and the length of the malformed
stretch unless the input ended in it. -/
structure Flaw where
  validUpTo : Nat
  size : Option Nat
  deriving DecidableEq, Repr

def Flaw.message (flaw : Flaw) : String :=
  match flaw.size with
  | some size => s!"invalid utf-8 sequence of {size} bytes from index {flaw.validUpTo}"
  | none => s!"incomplete utf-8 byte sequence from index {flaw.validUpTo}"

def collect : Nat → List Piece → Except Flaw (List Char)
  | _, [] => .ok []
  | at_, .char c :: rest => (collect (at_ + c.utf8Size) rest).map (c :: ·)
  | at_, .malformed size cut :: _ => .error ⟨at_, if cut then none else some size⟩

/-- The text the bytes spell, if they are UTF-8 throughout. -/
def decode (bytes : Bytes) : Except Flaw String :=
  (collect 0 (pieces bytes)).map String.ofList

end Switchboard.Utf8
