import Retarget.Number.Double
import Retarget.Number.Layout
import Retarget.Number.Numeral

/-!
# Spelling of double-precision numbers

The texts written for a double, and the texts read as one.
-/

namespace Retarget.Number

namespace Double

/-- The shortest text that reads back, a whole number with a zero after its point. -/
def text (x : Double) : String :=
  Encoding.double.text x.reading

/-- The shortest text of the nearest single-precision number. -/
def singleText (x : Double) : String :=
  Encoding.single.text (Encoding.single.read x.toSingle)

/-- The magnitude of a whole number below `10 ^ 15`. -/
def smallWhole? (x : Double) : Option Nat :=
  match x.reading with
  | .finite _ significand exponent =>
    let numerator := significand * Nat.pow 2 exponent.toNat
    let denominator := Nat.pow 2 (-exponent).toNat
    if numerator % denominator = 0 ∧ numerator / denominator < Nat.pow 10 15 then
      some (numerator / denominator)
    else none
  | _ => none

/-- Whether the sign bit is set. -/
def isNegative (x : Double) : Bool :=
  match x.reading with
  | .nan negative | .infinite negative | .finite negative _ _ => negative

/-- The shortest text that reads back, a whole number below `10 ^ 15` without a point. -/
def plainText (x : Double) : String :=
  match x.smallWhole? with
  | some n => (if x.isNegative then "-" else "") ++ toString n
  | none => x.text

/-- The double nearest to `digits * 10 ^ exponent`. The number of digits decides the ends of the
range before any power of ten is computed. -/
def ofDecimal (negative : Bool) (digits : Nat) (exponent : Int) : Double :=
  let size := (decimalDigits digits).length + exponent
  if digits = 0 ∨ size < -400 then ofRatio negative 0 1
  else if 400 < size then infinite negative
  else ofRatio negative (digits * Nat.pow 10 exponent.toNat) (Nat.pow 10 (-exponent).toNat)

end Double

/-- Digits with an optional point among or around them: the number without the point, and how
many digits follow it. There is at least one digit. -/
def pointed? (text : List Char) : Option (Nat × Nat) :=
  let whole := text.takeWhile Char.isDigit
  let fraction :=
    match text.dropWhile Char.isDigit with
    | '.' :: rest => some rest
    | [] => some []
    | _ => none
  fraction.bind fun fraction =>
    (natural? 10 (whole ++ fraction)).map fun value => (value, fraction.length)

/-- A whole number of any size with an optional sign. -/
def exponent? (text : List Char) : Option Int :=
  match text with
  | '-' :: rest => (natural? 10 rest).map fun value => -(value : Int)
  | '+' :: rest => (natural? 10 rest).map fun value => (value : Int)
  | _ => (natural? 10 text).map fun value => (value : Int)

/-- A number without its sign: digits with an optional point and an optional exponent, or one of
the words for infinity and for no number, in either case. -/
def unsignedDouble? (negative : Bool) (text : List Char) : Option Double :=
  let word := String.ofList (text.map Char.toLower)
  if word = "inf" ∨ word = "infinity" then some (Double.infinite negative)
  else if word = "nan" then some (Double.nan negative)
  else
    let isMark (c : Char) : Bool := c == 'e' || c == 'E'
    let mantissa := text.takeWhile fun c => !isMark c
    let scale :=
      match text.dropWhile fun c => !isMark c with
      | [] => some 0
      | _ :: rest => exponent? rest
    match pointed? mantissa, scale with
    | some (digits, places), some scale => some (Double.ofDecimal negative digits (scale - places))
    | _, _ => none

/-- The double that a text denotes, correctly rounded. -/
def double? (text : List Char) : Option Double :=
  match text with
  | '-' :: rest => unsignedDouble? true rest
  | '+' :: rest => unsignedDouble? false rest
  | _ => unsignedDouble? false text

end Retarget.Number
