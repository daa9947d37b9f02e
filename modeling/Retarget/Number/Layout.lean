import Retarget.Number.Shortest

/-!
# Decimal text of binary numbers

How the digits of a number are laid out: positionally when the leading digit has a place from
`10 ^ -4` to `10 ^ 15`, and otherwise with an exponent.
-/

namespace Retarget.Number

def decimalDigits (n : Nat) : List Char :=
  Nat.toDigits 10 n

namespace Decimal

/-- The place of the leading digit, as a power of ten. -/
def leadingPlace (d : Decimal) : Int :=
  (decimalDigits d.digits).length - 1 + d.exponent

/-- The digits with a point where the ones end. A whole number gets a point and a zero. -/
def positional (d : Decimal) : List Char :=
  let digits := decimalDigits d.digits
  if 0 ≤ d.exponent then digits ++ List.replicate d.exponent.toNat '0' ++ ['.', '0']
  else
    let places := (-d.exponent).toNat
    if places < digits.length then
      digits.take (digits.length - places) ++ '.' :: digits.drop (digits.length - places)
    else ['0', '.'] ++ List.replicate (places - digits.length) '0' ++ digits

/-- The digits with a point after the first one, and the place of the first one. -/
def scientific (d : Decimal) : List Char :=
  let mantissa :=
    match decimalDigits d.digits with
    | first :: second :: rest => first :: '.' :: second :: rest
    | digits => digits
  mantissa ++ 'e' :: (toString d.leadingPlace).toList

/-- The text of a positive decimal. -/
def text (d : Decimal) : List Char :=
  if -4 ≤ d.leadingPlace ∧ d.leadingPlace < 16 then d.positional else d.scientific

end Decimal

/-- The text of what a bit pattern stands for, with the fewest digits that read back. Zero and the
other whole numbers show one zero after the point. -/
def Encoding.text (encoding : Encoding) : Reading → String
  | .nan _ => "NaN"
  | .infinite negative => if negative then "-inf" else "inf"
  | .finite negative significand exponent =>
    let magnitude :=
      if significand = 0 then ['0', '.', '0']
      else (encoding.shortest significand exponent).text
    String.ofList (if negative then '-' :: magnitude else magnitude)

end Retarget.Number
