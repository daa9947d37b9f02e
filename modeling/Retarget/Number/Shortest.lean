import Retarget.Number.Interchange

/-!
# The fewest digits that read back

A finite number of a binary encoding is the nearest one to every decimal in an interval around
it. This module finds the decimal of that interval with the fewest digits, and of those with as
many digits the nearest one.
-/

namespace Retarget.Number

/-- The decimal `digits * 10 ^ exponent`. -/
structure Decimal where
  digits : Nat
  exponent : Int
deriving Repr, DecidableEq

namespace Decimal

/-- Moves trailing zeros of the digits into the exponent, at most `limit` of them. -/
def strip : Nat → Decimal → Decimal
  | 0, d => d
  | limit + 1, d =>
    if d.digits ≠ 0 ∧ d.digits % 10 = 0 then strip limit ⟨d.digits / 10, d.exponent + 1⟩ else d

end Decimal

/-- The numbers that round to a positive `significand * 2 ^ exponent`, in quarters of its last
place. The lower end is nearer below a power of two, and the ends belong to the interval when the
significand is even. -/
structure RoundingInterval where
  low : Nat
  middle : Nat
  high : Nat
  closed : Bool
  /-- The exponent of a quarter of the last place. -/
  unit : Int

/-- The numbers that round to a positive number of an encoding. -/
def Encoding.interval (encoding : Encoding) (significand : Nat) (exponent : Int) :
    RoundingInterval where
  low :=
    if significand = Nat.pow 2 encoding.fractionWidth ∧ encoding.leastExponent < exponent then
      4 * significand - 1
    else 4 * significand - 2
  middle := 4 * significand
  high := 4 * significand + 2
  closed := significand % 2 == 0
  unit := exponent - 2

namespace RoundingInterval

/-- The multiple of `10 ^ grid` in the interval nearest to its middle, of the two multiples next
to the middle; of two at the same distance the greater. -/
def onGrid? (interval : RoundingInterval) (grid : Int) : Option Decimal :=
  -- `n` quarters and `d` steps of the grid compare as `n * quarter` and `d * step`.
  let quarter := Nat.pow 2 interval.unit.toNat * Nat.pow 10 (-grid).toNat
  let step := Nat.pow 2 (-interval.unit).toNat * Nat.pow 10 grid.toNat
  let inside (d : Nat) : Bool :=
    if interval.closed then interval.low * quarter ≤ d * step && d * step ≤ interval.high * quarter
    else interval.low * quarter < d * step && d * step < interval.high * quarter
  let down := interval.middle * quarter / step
  let up := down + 1
  if inside down && inside up then
    if 2 * (interval.middle * quarter) < (down + up) * step then some ⟨down, grid⟩
    else some ⟨up, grid⟩
  else if inside down then some ⟨down, grid⟩
  else if inside up then some ⟨up, grid⟩
  else none

/-- The first decimal found on the grids `grid`, `grid - 1`, and so on. -/
def search (interval : RoundingInterval) : Nat → Int → Decimal
  | 0, _ =>
    -- The middle itself, which is in the interval and has finitely many digits.
    ⟨interval.middle * Nat.pow 2 interval.unit.toNat * Nat.pow 5 (-interval.unit).toNat,
      -((-interval.unit).toNat : Int)⟩
  | steps + 1, grid =>
    match interval.onGrid? grid with
    | some d => d
    | none => interval.search steps (grid - 1)

end RoundingInterval

/-- The decimal with the fewest digits that reads back as a positive number. The search starts at
a power of ten above the number and ends within twenty grids, since seventeen digits are enough to
tell apart the numbers of either encoding. -/
def Encoding.shortest (encoding : Encoding) (significand : Nat) (exponent : Int) : Decimal :=
  let top : Int := ((significand.log2 : Int) + 1 + exponent) * 30103 / 100000 + 1
  ((encoding.interval significand exponent).search 20 top).strip 20

end Retarget.Number
