import Switchboard.Decimal.Shortest

/-!
# Doubles

A double is kept as its 64 bits, so that equality is decidable and a stored number is exactly the
number received. `Layout.render` writes it as text by the shortest digits; the layout says from where
to where the exponent of the leading digit is written out.
-/

namespace Switchboard.Decimal

structure Double where
  bits : UInt64
  deriving DecidableEq, Repr

namespace Double

def ofFloat (x : Float) : Double := ⟨x.toBits⟩

def toFloat (x : Double) : Float := Float.ofBits x.bits

/-- What the bits stand for. -/
inductive Class where
  | notANumber
  | infinite
  | zero
  | finite (b : Binary)
  deriving Repr

def isNegative (x : Double) : Bool :=
  x.bits >>> 63 = 1

def classify (x : Double) : Class :=
  let biased := (x.bits >>> 52).toNat % 2048
  let fraction := x.bits.toNat % 0x10000000000000
  if biased = 2047 then if fraction = 0 then .infinite else .notANumber
  else if biased = 0 then
    if fraction = 0 then .zero else .finite ⟨fraction, -1074, false⟩
  else .finite ⟨fraction + 0x10000000000000, (biased : Int) - 1075, fraction = 0 && biased ≠ 1⟩

def isFinite (x : Double) : Bool :=
  match x.classify with
  | .zero | .finite _ => true
  | _ => false

/-- The double with the value of a single-precision number given by its bits. -/
def ofSingleBits (bits : UInt32) : Double :=
  ofFloat (Float32.ofBits bits).toFloat

end Double

/-- How a double is written. The exponent of the leading digit is written out unless the number has
it between `plainFrom` and `plainTo`; a missing bound is no bound. -/
structure Layout where
  plainFrom : Option Int := none
  plainTo : Option Int := none
  tie : Binary.Tie
  deriving Repr

namespace Layout

/-- JSON text has numbers from 1e-5 to below 1e16 in plain form. -/
def json : Layout where
  plainFrom := some (-5)
  plainTo := some 15
  tie := .toEven

/-- Messages about packed data have every number in plain form. -/
def plain : Layout where
  tie := .up

def isPlain (l : Layout) (leading : Int) : Bool :=
  l.plainFrom.all (· ≤ leading) && l.plainTo.all (leading ≤ ·)

/-- Digits with the point placed after, in or before them. -/
def plainText (ds : List Char) (exponent : Int) : List Char :=
  let leading := exponent + ds.length - 1
  if 0 ≤ exponent then ds ++ List.replicate exponent.toNat '0' ++ ['.', '0']
  else if 0 ≤ leading then
    ds.take (leading.toNat + 1) ++ '.' :: ds.drop (leading.toNat + 1)
  else ['0', '.'] ++ List.replicate (-leading - 1).toNat '0' ++ ds

def scientificText (ds : List Char) (leading : Int) : List Char :=
  let mantissa := match ds with
    | d :: next :: rest => d :: '.' :: next :: rest
    | ds => ds
  let sign := if leading < 0 then '-' else '+'
  mantissa ++ 'e' :: sign :: Nat.toDigits 10 leading.natAbs

def render (l : Layout) (x : Double) : String :=
  let sign := if x.isNegative then ['-'] else []
  match x.classify with
  | .notANumber => "NaN"
  | .infinite => String.ofList (sign ++ ['i', 'n', 'f'])
  | .zero => String.ofList (sign ++ ['0', '.', '0'])
  | .finite b =>
    let d := b.select l.tie
    let ds := Nat.toDigits 10 d.digits
    let leading := d.exponent + ds.length - 1
    String.ofList
      (sign ++ if l.isPlain leading then plainText ds d.exponent else scientificText ds leading)

end Layout

end Switchboard.Decimal
