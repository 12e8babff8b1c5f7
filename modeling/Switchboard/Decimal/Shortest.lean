/-!
# The shortest decimal that reads back

A binary number `m * 2^q` stands for all the reals that round to it. Among the decimals in that
interval `select` finds one with the fewest digits, and of those the nearest; a tie between two is
for the caller to settle. Everything is exact arithmetic on naturals.
-/

namespace Switchboard.Decimal

/-- The positive number `mantissa * 2^exponent`. Below a power of two the neighbour is half as far
away as above it; `narrow` marks such a number. -/
structure Binary where
  mantissa : Nat
  exponent : Int
  narrow : Bool
  deriving DecidableEq, Repr

/-- The positive number `digits * 10^exponent`. -/
structure Digits where
  digits : Nat
  exponent : Int
  deriving DecidableEq, Repr

/-- A number multiplied by a power, unless its exponent is negative. -/
def scale (n base : Nat) (exponent : Int) : Nat :=
  n * Nat.pow base exponent.toNat

/-- Compare `a * 2^e` with `d * 10^k`. -/
def compareScaled (a : Nat) (e : Int) (d : Nat) (k : Int) : Ordering :=
  compare (scale (scale a 2 e) 10 (-k)) (scale (scale d 10 k) 2 (-e))

namespace Binary

/-- Whether `d * 10^k` rounds to the number: it lies halfway to the neighbours at most, and exactly
halfway only when the mantissa is even. -/
def readsBack (b : Binary) (d : Nat) (k : Int) : Bool :=
  let even := b.mantissa % 2 = 0
  let low := compareScaled (4 * b.mantissa - if b.narrow then 1 else 2) (b.exponent - 2) d k
  let high := compareScaled (4 * b.mantissa + 2) (b.exponent - 2) d k
  (low = .lt || (low = .eq && even)) && (high = .gt || (high = .eq && even))

/-- The number divided by `10^k`, rounded down. -/
def floorAt (b : Binary) (k : Int) : Nat :=
  scale (scale b.mantissa 2 b.exponent) 10 (-k) / scale (scale 1 10 k) 2 (-b.exponent)

/-- How a tie between two neighbouring decimals is settled. -/
inductive Tie where
  | toEven | up
  deriving DecidableEq, Repr

/-- The decimal on the grid `10^k` that reads back, if there is one: a neighbour of the number. -/
def onGrid (b : Binary) (tie : Tie) (k : Int) : Option Nat :=
  let d := b.floorAt k
  match b.readsBack d k, b.readsBack (d + 1) k with
  | false, false => none
  | true, false => some d
  | false, true => some (d + 1)
  | true, true =>
    match compareScaled (2 * b.mantissa) b.exponent (2 * d + 1) k with
    | .lt => some d
    | .gt => some (d + 1)
    | .eq => some (if tie = .up || d % 2 = 1 then d + 1 else d)

/-- A power of ten above the number, close to it. -/
def topExponent (b : Binary) : Int :=
  (b.mantissa.log2 + b.exponent + 1) * 30103 / 100000 + 1

/-- The first grid, from coarse to fine, that has a decimal reading back. -/
def select (b : Binary) (tie : Tie) : Digits :=
  let found := (List.range 20).findSome? fun (i : Nat) =>
    let k := b.topExponent - i
    (b.onGrid tie k).map fun d => ⟨d, k⟩
  found.getD ⟨scale (scale b.mantissa 2 b.exponent) 5 (-b.exponent), min b.exponent 0⟩

end Binary

end Switchboard.Decimal
