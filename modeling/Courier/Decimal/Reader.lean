import Courier.Numeral

/-!
# Reading a double

A number is a sign, digits with at most one point among or around them, and an
exponent; zeros in front change nothing. The words for what is not finite are
taken in either case. A decimal reads as the double nearest to it.
-/

namespace Courier.Decimal

/-- The bits of the double nearest to `units * 10 ^ exponent`. The ends are
decided without powers: half the least double is above `10 ^ -324` and the
greatest is below `10 ^ 309`. -/
def nearest (units : Nat) (exponent : Int) : UInt64 :=
  let top := (Nat.toDigits 10 units).length + exponent
  if units = 0 ∨ top < -323 then 0
  else if 309 < top then 0x7ff0000000000000
  else (Float.ofScientific units (exponent < 0) exponent.natAbs).toBits

def signed (negative : Bool) (size : UInt64) : UInt64 :=
  if negative then size + 0x8000000000000000 else size

def splitSign : List Char → Bool × List Char
  | '-' :: rest => (true, rest)
  | '+' :: rest => (false, rest)
  | cs => (false, cs)

def splitPlaces : List Char → List Char × List Char
  | '.' :: rest => rest.span (isDigit 10)
  | cs => ([], cs)

def exponentOf? : List Char → Option Int
  | [] => some 0
  | mark :: rest =>
    let (negative, digits) := splitSign rest
    if mark.toLower = 'e' ∧ digits ≠ [] ∧ digits.all (isDigit 10) then
      let size : Int := Numeral.value 10 digits
      some (if negative then -size else size)
    else none

def finite? (size : List Char) : Option UInt64 :=
  let (whole, rest) := size.span (isDigit 10)
  let (places, rest) := splitPlaces rest
  if whole ++ places = [] then none
  else (exponentOf? rest).map fun exponent =>
    nearest (Numeral.value 10 (whole ++ places)) (exponent - places.length)

def ofText? (text : String) : Option UInt64 :=
  let (negative, size) := splitSign text.toList
  match String.ofList (size.map Char.toLower) with
  | "nan" => some 0x7ff8000000000000
  | "inf" | "infinity" => some (signed negative 0x7ff0000000000000)
  | _ => (finite? size).map (signed negative)

end Courier.Decimal
