/-!
# Numerals

Reading whole numbers written with digits, and writing them in base two and base sixteen.
-/

namespace Retarget.Number

/-- The value of a digit of base sixteen, in either case. -/
def hexDigit? (c : Char) : Option Nat :=
  if '0' ≤ c ∧ c ≤ '9' then some (c.toNat - '0'.toNat)
  else if 'a' ≤ c ∧ c ≤ 'f' then some (c.toNat - 'a'.toNat + 10)
  else if 'A' ≤ c ∧ c ≤ 'F' then some (c.toNat - 'A'.toNat + 10)
  else none

/-- The value of a digit of a base up to sixteen. -/
def digit? (base : Nat) (c : Char) : Option Nat :=
  (hexDigit? c).filter (· < base)

/-- The number that a nonempty sequence of digits denotes. -/
def natural? (base : Nat) (text : List Char) : Option Nat :=
  if text.isEmpty then none
  else text.foldlM (fun value c => (digit? base c).map (value * base + ·)) 0

/-- A decimal number below `limit`, with an optional plus sign. -/
def below? (limit : Nat) (text : List Char) : Option Nat :=
  let digits :=
    match text with
    | '+' :: rest => rest
    | _ => text
  (natural? 10 digits).filter (· < limit)

/-- A whole number of sixty-four signed bits, with an optional sign. -/
def signed? (base : Nat) (text : List Char) : Option Int64 :=
  match text with
  | '-' :: rest =>
    (natural? base rest).bind fun value =>
      if value ≤ Nat.pow 2 63 then some (Int64.ofInt (-(value : Int))) else none
  | '+' :: rest => positive? rest
  | _ => positive? text
where
  /-- The number that digits without a sign denote, if it is below `2 ^ 63`. -/
  positive? (digits : List Char) : Option Int64 :=
    (natural? base digits).bind fun value =>
      if value < Nat.pow 2 63 then some (Int64.ofInt value) else none

/-- The lowest `width` binary digits of a number, the most significant first. -/
def binaryDigits : Nat → Nat → List Char
  | 0, _ => []
  | width + 1, n => (if n.testBit width then '1' else '0') :: binaryDigits width n

/-- The lowest `width` digits of a number in base sixteen, the most significant first. -/
def hexDigits : Nat → Nat → List Char
  | 0, _ => []
  | width + 1, n => Nat.digitChar (n / Nat.pow 16 width % 16) :: hexDigits width n

end Retarget.Number
