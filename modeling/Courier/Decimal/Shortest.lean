/-!
# The fewest digits that read back

A finite double is a whole number times a power of two, and all reals nearer to
it than to its neighbours read back as it; of the two reals half way, both do
when that whole number is even and neither does otherwise. Of the decimal grids
with one, two, … digits the first that has a point in this interval is taken,
and of its points the one nearest to the double.
-/

namespace Courier.Decimal

inductive Double where
  | finite (negative : Bool) (mantissa : Nat) (exponent : Int)
  | infinite (negative : Bool)
  | notANumber
deriving DecidableEq, Repr

namespace Double

def ofBits (bits : UInt64) : Double :=
  let negative := bits.toNat / Nat.pow 2 63 == 1
  let exponent : Nat := bits.toNat / Nat.pow 2 52 % Nat.pow 2 11
  let fraction : Nat := bits.toNat % Nat.pow 2 52
  if exponent = 2047 then
    if fraction = 0 then infinite negative else notANumber
  else if exponent = 0 then finite negative fraction (-1074)
  else finite negative (Nat.pow 2 52 + fraction) ((exponent : Int) - 1075)

end Double

structure Digits where
  units : Nat
  exponent : Int
deriving DecidableEq, Repr

/-- Quarters of the last binary place, so that the ends of the interval are whole.
The lower neighbour of a power of two is half as far away as the upper one. -/
structure Interval where
  low : Nat
  middle : Nat
  high : Nat
  closed : Bool

def Interval.of (mantissa : Nat) (exponent : Int) : Interval :=
  let narrow := mantissa = Nat.pow 2 52 ∧ -1074 < exponent
  { low := 4 * mantissa - if narrow then 1 else 2
    middle := 4 * mantissa
    high := 4 * mantissa + 2
    closed := mantissa % 2 == 0 }

/-- Compares a decimal with a count of quarters, both as whole numbers: the
quarters stand for `2 ^ binary` each and the units for `10 ^ decimal` each. -/
def scaled (binary decimal : Int) (quarters units : Nat) : Nat × Nat :=
  (quarters * Nat.pow 2 binary.toNat * Nat.pow 10 (-decimal).toNat,
    units * Nat.pow 2 (-binary).toNat * Nat.pow 10 decimal.toNat)

def Interval.holds (i : Interval) (binary decimal : Int) (units : Nat) : Bool :=
  let (low, point) := scaled binary decimal i.low units
  let (high, _) := scaled binary decimal i.high units
  if i.closed then low ≤ point && point ≤ high else low < point && point < high

/-- The nearest point in the interval of the grid with the given exponent; of two
equally near ones the even one. -/
def Interval.pick? (i : Interval) (binary decimal : Int) : Option Nat :=
  let (value, unit) := scaled binary decimal i.middle 1
  let below := value / unit
  let rest := value % unit
  match i.holds binary decimal below && 0 < below, i.holds binary decimal (below + 1) with
  | true, true =>
    if 2 * rest < unit then some below
    else if 2 * rest = unit then some (if below % 2 = 0 then below else below + 1)
    else some (below + 1)
  | true, false => some below
  | false, true => some (below + 1)
  | false, false => none

/-- The count of digits in front of the point, less the zeros behind it if there
are none: the least power of ten above the value. -/
def magnitude (binary : Int) (quarters : Nat) : Int :=
  let whole := quarters * Nat.pow 2 binary.toNat / Nat.pow 2 (-binary).toNat
  if 0 < whole then (Nat.toDigits 10 whole).length
  else
    let places := (List.range 400).find? fun n =>
      Nat.pow 2 (-binary).toNat ≤ quarters * Nat.pow 2 binary.toNat * Nat.pow 10 (n + 1)
    match places with
    | some n => -n
    | none => 0

def Digits.strip (units : Nat) (exponent : Int) : Digits :=
  let digits := (Nat.toDigits 10 units).reverse
  let zeros := (digits.takeWhile (· == '0')).length
  ⟨units / Nat.pow 10 zeros, exponent + zeros⟩

def shortest (mantissa : Nat) (exponent : Int) : Digits :=
  let interval := Interval.of mantissa exponent
  let binary := exponent - 2
  let top := magnitude binary interval.middle
  let found := (List.range 17).findSome? fun n : Nat =>
    let place := top - (n + 1)
    (interval.pick? binary place).map fun units => Digits.strip units place
  found.getD ⟨0, 0⟩

end Courier.Decimal
