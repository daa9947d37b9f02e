import Mathlib
import Retarget.Rule.Replacement

/-!
# Exact reciprocals

A division by a constant is replaced by a product with the reciprocal of the constant, where the
base-two logarithm of the constant rounds to a whole number. The reciprocal is exact where the
constant is a power of two that is large enough for its reciprocal to be finite, and nowhere else
(`Replacement.timesReciprocal_exact_iff`).
-/

namespace Retarget

namespace Number

namespace Encoding

theorem floorLog_pow (p q : Nat) : floorLog (2 ^ p) (2 ^ q) = (p : Int) - q := by
  have equal : 2 ^ p * 2 ^ (-((p : Int) - q)).toNat = 2 ^ q * 2 ^ ((p : Int) - q).toNat := by
    rw [← pow_add, ← pow_add]
    congr 1
    omega
  have reached : ¬ 2 ^ p * Nat.pow 2 (-((p : Int) - q)).toNat <
      2 ^ q * Nat.pow 2 ((p : Int) - q).toNat := fun less => Nat.lt_irrefl _ (equal ▸ less)
  simp only [floorLog, Nat.log2_two_pow, if_neg reached]

theorem roundEven_mul (quotient : Nat) {denominator : Nat} (positive : 0 < denominator) :
    roundEven (quotient * denominator) denominator = quotient := by
  simp [roundEven, Nat.mul_div_cancel _ positive, positive]

/-- A power of two in the range of doubles is rounded to itself. -/
theorem nearest_pow {p q : Nat} {power exponent : Int} (ratio : (p : Int) - q = power)
    (low : -1074 ≤ power) (high : power ≤ 1023) (last : exponent = max (-1074) (power - 52)) :
    double.nearest (2 ^ p) (2 ^ q) =
      (exponent + 1074).toNat * 2 ^ 52 + 2 ^ (power - exponent).toNat := by
  have split : 2 ^ p * Nat.pow 2 (-exponent).toNat =
      2 ^ (power - exponent).toNat * (2 ^ q * Nat.pow 2 exponent.toNat) := by
    change 2 ^ p * 2 ^ _ = 2 ^ _ * (2 ^ q * 2 ^ _)
    rw [← pow_add, ← pow_add, ← pow_add]
    congr 1
    omega
  have rounded := roundEven_mul (2 ^ (power - exponent).toNat)
    (Nat.mul_pos (Nat.two_pow_pos q) (Nat.two_pow_pos exponent.toNat))
  have chosen : max double.leastExponent (floorLog (2 ^ p) (2 ^ q) - double.fractionWidth) =
      exponent := by
    rw [floorLog_pow, ratio, last]
    rfl
  have small : 2 ^ (power - exponent).toNat ≤ 2 ^ 52 := Nat.pow_le_pow_right two_pos (by omega)
  have within : (exponent + 1074).toNat * 2 ^ 52 + 2 ^ (power - exponent).toNat ≤ 2047 * 2 ^ 52 := by
    omega
  unfold nearest
  rw [if_neg (Nat.two_pow_pos p).ne']
  simp only [chosen, split]
  exact (congrArg (fun significand => min (_ + significand) _) rounded).trans
    (Nat.min_eq_left within)

/-- Significands are counted upwards through the patterns of finite numbers. -/
theorem read_counted (negative : Bool) {steps significand : Nat} (bound : significand < 2 ^ 53)
    (leading : steps = 0 ∨ 2 ^ 52 ≤ significand) (finite : steps < 2046) :
    double.read ((if negative then double.signBit else 0) + (steps * 2 ^ 52 + significand)) =
      .finite negative significand (steps - 1074) := by
  have sign : (if negative then double.signBit else 0) = negative.toNat * 2 ^ 63 := by
    cases negative <;> rfl
  rw [sign]
  generalize whole : negative.toNat * 2 ^ 63 + (steps * 2 ^ 52 + significand) = bits
  have flag : negative.toNat ≤ 1 := Bool.toNat_le negative
  have top : bits / 2 ^ 63 % 2 = negative.toNat := by omega
  have isNegative : (bits / double.signBit % 2 == 1) = negative := by
    change (bits / 2 ^ 63 % 2 == 1) = negative
    rw [top]
    cases negative <;> rfl
  unfold read
  simp only [isNegative]
  change (if bits / 2 ^ 52 % 2 ^ 11 = 2047 then _ else if bits / 2 ^ 52 % 2 ^ 11 = 0 then
    Reading.finite negative (bits % 2 ^ 52) (-1074) else
      .finite negative (2 ^ 52 + bits % 2 ^ 52) (-1074 + (bits / 2 ^ 52 % 2 ^ 11 : Nat) - 1)) = _
  rw [if_neg (by omega)]
  split
  · congr 1 <;> omega
  · congr 1 <;> omega

/-- Finite numbers have fifty-three bits, at most so far in front of the point. -/
theorem bounds_of_read {bits significand : Nat} {negative : Bool} {exponent : Int}
    (finite : double.read bits = .finite negative significand exponent) :
    significand < 2 ^ 53 ∧ exponent ≤ 971 := by
  have fraction : bits % Nat.pow 2 double.fractionWidth < 2 ^ 52 :=
    Nat.mod_lt _ (Nat.two_pow_pos 52)
  have field : bits / Nat.pow 2 double.fractionWidth % Nat.pow 2 double.exponentWidth < 2048 :=
    Nat.mod_lt _ (Nat.two_pow_pos 11)
  have implicit : Nat.pow 2 double.fractionWidth = 2 ^ 52 := rfl
  have least : double.leastExponent = -1074 := rfl
  have top : double.topField = 2047 := rfl
  unfold read at finite
  dsimp only at finite
  split at finite
  · split at finite <;> cases finite
  · split at finite
    · cases finite
      omega
    · cases finite
      omega

end Encoding

namespace Double

/-- The rational number that a finite number is. -/
def rational? (x : Double) : Option ℚ :=
  match x.reading with
  | .finite negative significand exponent =>
    some ((if negative then -1 else 1) * (significand * 2 ^ exponent))
  | _ => none

/-- A finite number is a whole number of fifty-three bits times a power of two. -/
theorem rational?_eq_some {x : Double} {v : ℚ} (finite : x.rational? = some v) :
    ∃ (negative : Bool) (significand : Nat) (exponent : Int),
      x.reading = .finite negative significand exponent ∧
        v = (if negative then -1 else 1) * (significand * 2 ^ exponent) ∧
        |v| = significand * 2 ^ exponent ∧ significand < 2 ^ 53 ∧ exponent ≤ 971 := by
  unfold rational? at finite
  split at finite
  · rename_i negative significand exponent read
    cases finite
    refine ⟨negative, significand, exponent, read, rfl, ?_, Encoding.bounds_of_read read⟩
    cases negative <;> simp [abs_mul]
  · cases finite

theorem rational?_ofRatio_pow (negative : Bool) {p q : Nat} {power : Int}
    (ratio : (p : Int) - q = power) (low : -1074 ≤ power) (high : power ≤ 1023) :
    (ofRatio negative (2 ^ p) (2 ^ q)).rational? =
      some ((if negative then -1 else 1) * 2 ^ power) := by
  have nearest := Encoding.nearest_pow ratio low high rfl
  generalize last : max (-1074) (power - 52) = exponent at nearest
  have bound : 2 ^ (power - exponent).toNat < 2 ^ 53 :=
    Nat.pow_lt_pow_right Nat.one_lt_two (by omega)
  have leading : (exponent + 1074).toNat = 0 ∨ 2 ^ 52 ≤ 2 ^ (power - exponent).toNat := by
    by_cases least : exponent = -1074
    · exact .inl (by omega)
    · exact .inr (Nat.pow_le_pow_right Nat.two_pos (by omega))
  have below : (exponent + 1074).toNat < 2046 := by omega
  have read := Encoding.read_counted negative bound leading below
  have fits : Encoding.double.ofRatio negative (2 ^ p) (2 ^ q) < 2 ^ 64 := by
    have sign : (if negative then Encoding.double.signBit else 0) ≤ 2 ^ 63 := by
      cases negative <;> decide
    rw [Encoding.ofRatio, nearest]
    omega
  have kept : (ofRatio negative (2 ^ p) (2 ^ q)).bits.toNat =
      Encoding.double.ofRatio negative (2 ^ p) (2 ^ q) := UInt64.toNat_ofNat_of_lt fits
  unfold rational? reading
  rw [kept, Encoding.ofRatio, nearest, read]
  simp only [Option.some.injEq, mul_eq_mul_left_iff]
  left
  rw [Nat.cast_pow, Nat.cast_ofNat, ← zpow_natCast, ← zpow_add₀ two_ne_zero]
  congr 1
  omega

/-- A whole number that is a power of two as a rational number is one. -/
theorem eq_two_pow {n : Nat} {power : Int} (equal : (n : ℚ) = 2 ^ power) (positive : 0 < n) :
    0 ≤ power ∧ n = 2 ^ power.toNat := by
  have whole : 0 ≤ power := by
    by_contra negative
    have less : (2 : ℚ) ^ power < 1 := zpow_lt_one_of_neg₀ one_lt_two (by omega)
    have more : (1 : ℚ) ≤ n := Nat.one_le_cast.mpr positive
    linarith
  refine ⟨whole, ?_⟩
  have same : (n : ℚ) = ((2 ^ power.toNat : Nat) : ℚ) := by
    rw [equal, Nat.cast_pow, Nat.cast_ofNat, ← zpow_natCast, Int.toNat_of_nonneg whole]
  exact Nat.cast_injective same

/-- The reciprocal of a number is exact where the number is a power of two from `2 ^ -1023` on. -/
theorem reciprocal_exact_iff {x : Double} {v : ℚ} (finite : x.rational? = some v) (other : v ≠ 0) :
    (∃ c, x.reciprocal.rational? = some c ∧ c * v = 1) ↔
      ∃ power : Int, -1023 ≤ power ∧ |v| = 2 ^ power := by
  obtain ⟨negative, significand, exponent, read, value, size, bound, high⟩ :=
    rational?_eq_some finite
  have nonzero : 0 < significand := by
    apply Nat.pos_of_ne_zero
    rintro rfl
    simp [value] at other
  constructor
  · rintro ⟨c, exact, product⟩
    obtain ⟨_, factor, place, _, _, magnitude, small, low⟩ := rational?_eq_some exact
    have unit : |c| * |v| = 1 := by rw [← abs_mul, product, abs_one]
    have both : ((factor * significand : Nat) : ℚ) = 2 ^ (-(place + exponent)) := by
      rw [zpow_neg, zpow_add₀ two_ne_zero]
      apply eq_inv_of_mul_eq_one_left
      rw [← unit, magnitude, size]
      push_cast
      ring
    have positive : 0 < factor * significand := by
      apply Nat.pos_of_ne_zero
      intro zero
      rw [zero, Nat.cast_zero] at both
      exact (zpow_pos two_pos _).ne both
    obtain ⟨_, together⟩ := eq_two_pow both positive
    obtain ⟨power, _, isPower⟩ := (Nat.dvd_prime_pow Nat.prime_two).mp
      (Dvd.intro_left factor together)
    have sized : |v| = 2 ^ (power + exponent) := by
      rw [size, isPower, Nat.cast_pow, Nat.cast_ofNat, zpow_add₀ two_ne_zero, zpow_natCast]
    have inverse : |c| = 2 ^ (-(power + exponent)) := by
      rw [zpow_neg, ← sized]
      exact eq_inv_of_mul_eq_one_left unit
    have limit : |c| < 2 ^ (1024 : Int) := by
      calc |c| = factor * 2 ^ place := magnitude
        _ < 2 ^ (53 : Int) * 2 ^ place := by gcongr; exact_mod_cast small
        _ ≤ 2 ^ (53 : Int) * 2 ^ (971 : Int) := by gcongr; exact one_le_two
        _ = 2 ^ (1024 : Int) := (zpow_add₀ two_ne_zero 53 971).symm
    rw [inverse, zpow_lt_zpow_iff_right₀ one_lt_two] at limit
    exact ⟨power + exponent, by omega, sized⟩
  · rintro ⟨power, low, isPower⟩
    have spelled : (significand : ℚ) = 2 ^ (power - exponent) := by
      rw [zpow_sub₀ two_ne_zero, ← isPower, size, mul_div_cancel_right₀]
      exact zpow_ne_zero _ two_ne_zero
    obtain ⟨above, whole⟩ := eq_two_pow spelled nonzero
    have few : (power - exponent).toNat < 53 :=
      (Nat.pow_lt_pow_iff_right Nat.one_lt_two).mp (whole ▸ bound)
    have divisor : significand * Nat.pow 2 exponent.toNat =
        2 ^ ((power - exponent).toNat + exponent.toNat) := by
      rw [pow_add, ← whole]
      rfl
    refine ⟨(if negative then -1 else 1) * 2 ^ (-power), ?_, ?_⟩
    · unfold reciprocal
      rw [read]
      simp only [nonzero.ne', if_false, divisor]
      exact rational?_ofRatio_pow negative (by omega) (by omega) (by omega)
    · have unit : (2 : ℚ) ^ (-power) * 2 ^ power = 1 := by
        rw [← zpow_add₀ two_ne_zero, neg_add_cancel, zpow_zero]
      rw [value, ← size, isPower, mul_mul_mul_comm, unit, mul_one]
      cases negative <;> norm_num

theorem rational?_of_hasWholeLogarithm {x : Double} (accepted : x.hasWholeLogarithm = true) :
    ∃ v, x.rational? = some v ∧ v ≠ 0 := by
  unfold hasWholeLogarithm at accepted
  split at accepted
  · rename_i negative significand exponent read
    unfold rational?
    rw [read]
    refine ⟨_, rfl, ?_⟩
    have nonzero : significand ≠ 0 := by
      rintro rfl
      cases accepted
    have power : (2 : ℚ) ^ exponent ≠ 0 := zpow_ne_zero _ two_ne_zero
    cases negative <;> simp [nonzero, power]
  · cases accepted

end Double

end Number

open Number (Double)

/-- A variable divided by a constant. -/
def Graph.quotientBy (value : Double) : Graph :=
  (((({} : Graph).addVariable "x" .binary64).1.addConstant (.float value) .binary64).1.addOperation
    .division .plain [0, 1] .binary64).1

/-- A division by a constant whose logarithm rounds to a whole number becomes a product with a
constant. That constant is finite and the exact reciprocal where the divisor is a power of two from
`2 ^ -1023` on, and nowhere else. -/
theorem Replacement.timesReciprocal_exact_iff {graph : Graph} {id divisor : NodeId} {value : Double}
    (second : (graph.node id).operands[1]? = some divisor)
    (constant : (graph.node divisor).payload = .constant (.float value))
    (accepted : Guard.powerOfTwoDivisor graph id = true) :
    ∃ v larger new factor reciprocal, value.rational? = some v ∧
      Replacement.timesReciprocal graph id = .ok (larger, new) ∧
      (larger.node new).operation = .multiplication ∧
      (larger.node new).operands = [Replacement.operandOf graph id 0, factor] ∧
      (larger.node factor).payload = .constant (.float reciprocal) ∧
      ((∃ c, reciprocal.rational? = some c ∧ c * v = 1) ↔
        ∃ power : Int, -1023 ≤ power ∧ |v| = 2 ^ power) := by
  have whole : value.hasWholeLogarithm = true := by
    unfold Guard.powerOfTwoDivisor at accepted
    rw [second] at accepted
    simpa only [constant] using accepted
  obtain ⟨v, finite, other⟩ := Double.rational?_of_hasWholeLogarithm whole
  have read : reciprocalOf (graph.node (operandOf graph id 1)).payload = value.reciprocal := by
    rw [operandOf, second, Option.getD_some, constant]
    rfl
  let factor : Node :=
    { operation := .constant, format := (graph.node (operandOf graph id 1)).format
      payload := .constant (.float value.reciprocal) }
  let product : Node :=
    { operation := .multiplication, operands := [operandOf graph id 0, graph.size]
      format := (graph.node id).format }
  have replaced : timesReciprocal graph id = .ok ((graph.add factor).1.add product) := by
    simp only [timesReciprocal, read]
    rfl
  have new : ((graph.add factor).1.add product).1.node (graph.add factor).1.size = product := by
    rw [Graph.node_add, if_pos rfl]
  have old : ((graph.add factor).1.add product).1.node graph.size = factor := by
    rw [Graph.node_add, Graph.size_add, if_neg (Nat.ne_of_lt (Nat.lt_succ_self _)),
      Graph.node_add, if_pos rfl]
  refine ⟨v, _, _, graph.size, value.reciprocal, finite, replaced, ?_, ?_, ?_,
    Double.reciprocal_exact_iff finite other⟩
  · exact congrArg Node.operation new
  · exact congrArg Node.operands new
  · exact congrArg Node.payload old

theorem Replacement.timesReciprocal_exact_four :
    ∃ v reciprocal, (Double.ofInt 4).rational? = some v ∧
      ((∃ c, Double.rational? reciprocal = some c ∧ c * v = 1) ↔
        ∃ power : Int, -1023 ≤ power ∧ |v| = 2 ^ power) := by
  have accepted : Guard.powerOfTwoDivisor (Graph.quotientBy (.ofInt 4)) 2 = true := by
    decide +kernel
  obtain ⟨v, _, _, _, reciprocal, finite, -, -, -, -, exact⟩ :=
    timesReciprocal_exact_iff rfl rfl accepted
  exact ⟨v, reciprocal, finite, exact⟩

/-- The least positive double is taken for a divisor, and its reciprocal is infinite. -/
theorem Guard.powerOfTwoDivisor_infinite :
    Guard.powerOfTwoDivisor (Graph.quotientBy ⟨1⟩) 2 = true ∧
      (Replacement.reciprocalOf (.constant (.float ⟨1⟩))).rational? = none := by
  refine ⟨by decide +kernel, ?_⟩
  have read : (Replacement.reciprocalOf (.constant (.float ⟨1⟩))).reading = .infinite false := by
    decide +kernel
  rw [Double.rational?, read]

end Retarget
