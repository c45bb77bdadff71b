import Courier.Decimal.Shortest

/-!
# The text of a double

The shortest digits, with a point among them or zeros around them as long as the
value is neither large nor small, and with a signed exponent otherwise. A whole
value keeps a zero behind the point.
-/

namespace Courier.Decimal

/-- Where positional notation ends: the most digits in front of the point, and
the most zeros behind it in front of the first digit. -/
structure Layout where
  digits : Nat
  zeros : Nat

def exponentText (exponent : Int) : List Char :=
  'e' :: (if exponent < 0 then '-' else '+') :: Nat.toDigits 10 exponent.natAbs

def Layout.text (layout : Layout) (d : Digits) : String :=
  let digits := Nat.toDigits 10 d.units
  let point := digits.length + d.exponent
  String.ofList <|
    if 0 ≤ d.exponent ∧ point ≤ layout.digits then
      digits ++ List.replicate d.exponent.toNat '0' ++ ['.', '0']
    else if 0 < point ∧ point ≤ layout.digits then
      digits.take point.toNat ++ '.' :: digits.drop point.toNat
    else if -layout.zeros ≤ point ∧ point ≤ 0 then
      '0' :: '.' :: List.replicate (-point).toNat '0' ++ digits
    else
      let places := digits.drop 1
      digits.take 1 ++ (if places = [] then [] else '.' :: places) ++
        exponentText (point - 1)

def text (layout : Layout) (bits : UInt64) : String :=
  match Double.ofBits bits with
  | .notANumber => "NaN"
  | .infinite negative => if negative then "-inf" else "inf"
  | .finite negative mantissa exponent =>
    let size := if mantissa = 0 then "0.0" else layout.text (shortest mantissa exponent)
    if negative then "-" ++ size else size

end Courier.Decimal
