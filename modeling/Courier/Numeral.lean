/-!
# Numerals

Digits of a radix of at most sixteen, and the number that a run of digits
spells. Letters count as digits in either case.
-/

namespace Courier

def digit? (c : Char) : Option Nat :=
  if '0' ≤ c ∧ c ≤ '9' then some (c.toNat - '0'.toNat)
  else if 'a' ≤ c ∧ c ≤ 'f' then some (c.toNat - 'a'.toNat + 10)
  else if 'A' ≤ c ∧ c ≤ 'F' then some (c.toNat - 'A'.toNat + 10)
  else none

def isDigit (radix : Nat) (c : Char) : Bool := (digit? c).any (· < radix)

namespace Numeral

/-- The number that a run of digits spells, the highest first. -/
def value (radix : Nat) (digits : List Char) : Nat :=
  digits.foldl (fun n c => n * radix + (digit? c).getD 0) 0

def text (radix n : Nat) : List Char := Nat.toDigits radix n

end Numeral

end Courier
