import Retarget.Number.Interchange

/-!
# Double-precision numbers

A double is kept as its sixty-four bits, and every operation reads them as an exact number,
computes exactly and rounds once.
-/

namespace Retarget.Number

/-- A double-precision number, given by its bits. -/
structure Double where
  bits : UInt64
deriving DecidableEq, Inhabited, Repr

namespace Double

/-- What the number stands for. -/
def reading (x : Double) : Reading :=
  Encoding.double.read x.bits.toNat

/-- The double with the given bit pattern. -/
def ofPattern (pattern : Nat) : Double :=
  ⟨UInt64.ofNat pattern⟩

/-- The double nearest to a signed ratio. -/
def ofRatio (negative : Bool) (numerator denominator : Nat) : Double :=
  ofPattern (Encoding.double.ofRatio negative numerator denominator)

/-- Infinity of the given sign. -/
def infinite (negative : Bool) : Double :=
  ofPattern ((if negative then Encoding.double.signBit else 0) + Encoding.double.infinity)

/-- The quiet not-a-number of the given sign. -/
def nan (negative : Bool) : Double :=
  ofPattern
    ((if negative then Encoding.double.signBit else 0) + Encoding.double.infinity + Nat.pow 2 51)

/-- The double nearest to a whole number. -/
def ofInt (n : Int) : Double :=
  ofRatio (n < 0) n.natAbs 1

def isNaN (x : Double) : Bool :=
  match x.reading with
  | .nan _ => true
  | _ => false

/-- Whether the number is zero, of either sign. -/
def isZero (x : Double) : Bool :=
  match x.reading with
  | .finite _ significand _ => significand == 0
  | _ => false

/-- The bits of the nearest single-precision number. -/
def toSingle (x : Double) : Nat :=
  match x.reading with
  | .nan negative =>
    (if negative then Encoding.single.signBit else 0) + Encoding.single.infinity + Nat.pow 2 22
  | .infinite negative =>
    (if negative then Encoding.single.signBit else 0) + Encoding.single.infinity
  | .finite negative significand exponent =>
    Encoding.single.ofRatio negative (significand * Nat.pow 2 exponent.toNat)
      (Nat.pow 2 (-exponent).toNat)

/-- The whole number of the given sign and size, brought into the range of sixty-four bits. -/
def saturated (negative : Bool) (magnitude : Nat) : Int64 :=
  if negative then Int64.ofInt (-(min magnitude (Nat.pow 2 63) : Nat))
  else Int64.ofInt (min magnitude (Nat.pow 2 63 - 1) : Nat)

/-- The number without its fraction. What is out of range goes to the nearest end, and what is no
number to zero. -/
def truncate (x : Double) : Int64 :=
  match x.reading with
  | .nan _ => 0
  | .infinite negative => saturated negative UInt64.size
  | .finite negative significand exponent =>
    saturated negative (significand * Nat.pow 2 exponent.toNat / Nat.pow 2 (-exponent).toNat)

/-- The number times `2 ^ places`, rounded to a whole number with halves going away from zero.
What is out of range goes to the nearest end, and what is no number to zero. -/
def scaled (x : Double) (places : Nat) : Int64 :=
  match x.reading with
  | .nan _ => 0
  | .infinite negative => saturated negative UInt64.size
  | .finite negative significand exponent =>
    let numerator := significand * Nat.pow 2 (exponent.toNat + places)
    let denominator := Nat.pow 2 (-exponent).toNat
    saturated negative ((2 * numerator + denominator) / (2 * denominator))

/-- The key by which numbers other than not-a-numbers compare: the ends of the line are infinite,
and a finite number is an exact multiple of the least positive one. -/
def position? (x : Double) : Option Int :=
  let least := Encoding.double.leastExponent
  match x.reading with
  | .nan _ => none
  | .infinite negative => some ((if negative then -1 else 1) * Nat.pow 2 2200)
  | .finite negative significand exponent =>
    some ((if negative then -1 else 1) * significand * Nat.pow 2 (exponent - least).toNat)

/-- Whether `x` is greater than `y`; nothing compares with what is no number. -/
def exceeds (x y : Double) : Bool :=
  match x.position?, y.position? with
  | some a, some b => b < a
  | _, _ => false

/-- The double nearest to one divided by a number. -/
def reciprocal (x : Double) : Double :=
  match x.reading with
  | .nan negative => nan negative
  | .infinite negative => ofRatio negative 0 1
  | .finite negative significand exponent =>
    if significand = 0 then infinite negative
    else ofRatio negative (Nat.pow 2 (-exponent).toNat) (significand * Nat.pow 2 exponent.toNat)

/-- Whether rounding the base-two logarithm of `significand * 2 ^ (whole - places)` to a double
gives `whole`. It does when the number is so close to `2 ^ whole` that its logarithm lies within
half the distance from `whole` to the next double on that side. That distance halves below a
power of two, on the side of zero. For such numbers the natural logarithm of the quotient is the
relative difference itself to far more digits than decide the matter, and `ln 2` is taken as
`0.693147`. -/
def logarithmRoundsTo (significand places : Nat) (whole : Int) : Bool :=
  let power := Nat.pow 2 places
  let difference := (significand - power) + (power - significand)
  if difference = 0 then true
  else if whole = 0 then false
  else
    let size := whole.natAbs
    let towardsZero := decide (power < significand) == decide (whole < 0)
    let halved := if towardsZero && Nat.pow 2 size.log2 == size then 1 else 0
    difference * 1000000 * Nat.pow 2 (53 + halved - size.log2) < 693147 * power

/-- Whether the base-two logarithm of the magnitude, rounded to a double, is a whole number. This
holds of every power of two, and of numbers too close to one for the logarithm to tell. -/
def hasWholeLogarithm (x : Double) : Bool :=
  match x.reading with
  | .finite _ significand exponent =>
    if significand = 0 then false
    else
      let places := significand.log2
      logarithmRoundsTo significand places (exponent + places) ||
        logarithmRoundsTo significand (places + 1) (exponent + places + 1)
  | _ => false

end Double

end Retarget.Number
