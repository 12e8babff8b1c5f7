import Switchboard.Json.Value
import Switchboard.Text.Utf8

/-!
# Writing MessagePack

Every value is written in the shortest form that its kind has; a whole number that is not negative is
written without a sign. Doubles always take eight bytes.
-/

namespace Switchboard.MsgPack

def packNil : Bytes := [0xC0]

def packBool (b : Bool) : Bytes :=
  [if b then 0xC3 else 0xC2]

def packNat (n : Nat) : Bytes :=
  if n < 0x80 then [UInt8.ofNat n]
  else if n < 0x100 then 0xCC :: Bytes.ofNat 1 n
  else if n < 0x10000 then 0xCD :: Bytes.ofNat 2 n
  else if n < 0x100000000 then 0xCE :: Bytes.ofNat 4 n
  else 0xCF :: Bytes.ofNat 8 n

def packInt (n : Int) : Bytes :=
  if 0 ≤ n then packNat n.toNat
  else if -32 ≤ n then Bytes.ofInt 1 n
  else if -0x80 ≤ n then 0xD0 :: Bytes.ofInt 1 n
  else if -0x8000 ≤ n then 0xD1 :: Bytes.ofInt 2 n
  else if -0x80000000 ≤ n then 0xD2 :: Bytes.ofInt 4 n
  else 0xD3 :: Bytes.ofInt 8 n

def packDouble (x : Decimal.Double) : Bytes :=
  0xCB :: Bytes.ofNat 8 x.bits.toNat

/-- The head of a text of some bytes. -/
def textHead (length : Nat) : Bytes :=
  if length < 32 then [UInt8.ofNat (0xA0 + length)]
  else if length < 0x100 then 0xD9 :: Bytes.ofNat 1 length
  else if length < 0x10000 then 0xDA :: Bytes.ofNat 2 length
  else 0xDB :: Bytes.ofNat 4 length

def packText (text : String) : Bytes :=
  let body := Utf8.encode text
  textHead body.length ++ body

def arrayHead (count : Nat) : Bytes :=
  if count < 16 then [UInt8.ofNat (0x90 + count)]
  else if count < 0x10000 then 0xDC :: Bytes.ofNat 2 count
  else 0xDD :: Bytes.ofNat 4 count

def mapHead (count : Nat) : Bytes :=
  if count < 16 then [UInt8.ofNat (0x80 + count)]
  else if count < 0x10000 then 0xDE :: Bytes.ofNat 2 count
  else 0xDF :: Bytes.ofNat 4 count

/-- A map with texts as keys; the values are packed already. -/
def packMap (entries : List (String × Bytes)) : Bytes :=
  mapHead entries.length ++ entries.flatMap fun (key, value) => packText key ++ value

mutual

def packValue : Json.Value → Bytes
  | .null => packNil
  | .bool b => packBool b
  | .integer n => packInt n
  | .float x => packDouble x
  | .text s => packText s
  | .list items => arrayHead items.length ++ packItems items
  | .object members => mapHead members.length ++ packMembers members

def packItems : List Json.Value → Bytes
  | [] => []
  | item :: rest => packValue item ++ packItems rest

def packMembers : List (String × Json.Value) → Bytes
  | [] => []
  | (key, value) :: rest => packText key ++ packValue value ++ packMembers rest

end

end Switchboard.MsgPack
