/-!
# Binary interchange encodings

A binary encoding is a sign bit, a biased exponent and a fraction. This module reads a bit
pattern as an exact number and rounds an exact ratio to the nearest bit pattern, a tie going to
the even one.
-/

namespace Retarget.Number

/-- A binary encoding, given by the bits of its significand, the leading one included, and the
width of its exponent field. -/
structure Encoding where
  precision : Nat
  exponentWidth : Nat

/-- The thirty-two bit encoding. -/
def Encoding.single : Encoding := ⟨24, 8⟩

/-- The sixty-four bit encoding. -/
def Encoding.double : Encoding := ⟨53, 11⟩

/-- What a bit pattern stands for; a finite number is `significand * 2 ^ exponent` with a sign. -/
inductive Reading where
  | nan (negative : Bool)
  | infinite (negative : Bool)
  | finite (negative : Bool) (significand : Nat) (exponent : Int)
deriving Repr, DecidableEq

namespace Encoding

/-- Bits of the fraction field. -/
def fractionWidth (encoding : Encoding) : Nat :=
  encoding.precision - 1

/-- The exponent of the least positive number. -/
def leastExponent (encoding : Encoding) : Int :=
  3 - (Nat.pow 2 (encoding.exponentWidth - 1) : Nat) - encoding.precision

/-- The value of the exponent field that infinities and not-a-numbers share. -/
def topField (encoding : Encoding) : Nat :=
  Nat.pow 2 encoding.exponentWidth - 1

/-- The bit pattern of positive infinity. -/
def infinity (encoding : Encoding) : Nat :=
  encoding.topField * Nat.pow 2 encoding.fractionWidth

/-- The bit pattern of the sign alone. -/
def signBit (encoding : Encoding) : Nat :=
  Nat.pow 2 (encoding.exponentWidth + encoding.fractionWidth)

def read (encoding : Encoding) (bits : Nat) : Reading :=
  let negative := bits / encoding.signBit % 2 == 1
  let field := bits / Nat.pow 2 encoding.fractionWidth % Nat.pow 2 encoding.exponentWidth
  let fraction := bits % Nat.pow 2 encoding.fractionWidth
  if field = encoding.topField then
    if fraction = 0 then .infinite negative else .nan negative
  else if field = 0 then .finite negative fraction encoding.leastExponent
  else .finite negative (Nat.pow 2 encoding.fractionWidth + fraction)
    (encoding.leastExponent + (field : Int) - 1)

/-- The quotient rounded to a whole number, a tie going to the even one. -/
def roundEven (numerator denominator : Nat) : Nat :=
  let quotient := numerator / denominator
  let rest := numerator % denominator
  if 2 * rest < denominator then quotient
  else if denominator < 2 * rest then quotient + 1
  else quotient + quotient % 2

/-- The greatest `e` with `2 ^ e ≤ numerator / denominator`, for positive numbers. -/
def floorLog (numerator denominator : Nat) : Int :=
  let estimate : Int := (numerator.log2 : Int) - denominator.log2
  if numerator * Nat.pow 2 (-estimate).toNat < denominator * Nat.pow 2 estimate.toNat then
    estimate - 1
  else estimate

/-- The bit pattern nearest to a ratio of positive numbers. Significands are counted upwards
through the bit patterns, so that rounding up to the next power of two, or to infinity, needs no
case of its own. -/
def nearest (encoding : Encoding) (numerator denominator : Nat) : Nat :=
  if numerator = 0 then 0
  else
    let exponent :=
      max encoding.leastExponent (floorLog numerator denominator - encoding.fractionWidth)
    let significand :=
      roundEven (numerator * Nat.pow 2 (-exponent).toNat) (denominator * Nat.pow 2 exponent.toNat)
    let steps := (exponent - encoding.leastExponent).toNat
    min (steps * Nat.pow 2 encoding.fractionWidth + significand) encoding.infinity

/-- The bit pattern of a signed ratio. -/
def ofRatio (encoding : Encoding) (negative : Bool) (numerator denominator : Nat) : Nat :=
  (if negative then encoding.signBit else 0) + encoding.nearest numerator denominator

end Encoding

end Retarget.Number
