import Retarget.Number.Numeral

/-!
# Numerals read back

Numbers that are written with decimal digits are read as the numbers that they were.
-/

namespace Retarget.Number

variable {number : Nat}

theorem digit?_of_isDigit {c : Char} (digit : c.isDigit = true) :
    digit? 10 c = some (c.toNat - '0'.toNat) := by
  simp only [Char.isDigit, Bool.and_eq_true, decide_eq_true_eq] at digit
  have value : hexDigit? c = some (c.toNat - '0'.toNat) := if_pos digit
  have small : c.toNat - '0'.toNat < 10 := by
    have bound : c.toNat ≤ '9'.toNat := digit.2
    have nine : '9'.toNat = 57 := rfl
    have zero : '0'.toNat = 48 := rfl
    omega
  rw [digit?, value, Option.filter_some, if_pos (decide_eq_true small)]

theorem foldlM_digits {digits : List Char} (all : ∀ c ∈ digits, c.isDigit = true) (start : Nat) :
    digits.foldlM (fun value c => (digit? 10 c).map (value * 10 + ·)) start =
      some (Nat.ofDigitChars 10 digits start) := by
  induction digits generalizing start with
  | nil => rfl
  | cons c digits ih =>
    obtain ⟨here, later⟩ := List.forall_mem_cons.mp all
    simp [digit?_of_isDigit here, ih later, Nat.ofDigitChars_cons, Nat.mul_comm]

theorem isDigit_of_mem_toDigits {c : Char} (member : c ∈ Nat.toDigits 10 number) :
    c.isDigit = true :=
  Nat.isDigit_of_mem_toDigits (by decide) (by decide) member

theorem natural?_toDigits (number : Nat) : natural? 10 (Nat.toDigits 10 number) = some number := by
  have some : (Nat.toDigits 10 number).isEmpty ≠ true := by simp
  unfold natural?
  rw [if_neg some, foldlM_digits fun c member => isDigit_of_mem_toDigits member,
    Nat.ofDigitChars_ten_toDigits]

/-- A numeral begins with a digit, and so with no sign. -/
theorem exists_digit (number : Nat) :
    ∃ c rest, Nat.toDigits 10 number = c :: rest ∧ c.isDigit = true := by
  cases digits : Nat.toDigits 10 number with
  | nil => exact absurd digits Nat.toDigits_ne_nil
  | cons c rest =>
    have first : c ∈ Nat.toDigits 10 number := by
      rw [digits]
      exact List.mem_cons_self
    exact ⟨c, rest, rfl, isDigit_of_mem_toDigits first⟩

theorem below?_toDigits {limit : Nat} (small : number < limit) :
    below? limit (Nat.toDigits 10 number) = some number := by
  obtain ⟨c, rest, digits, digit⟩ := exists_digit number
  have read := natural?_toDigits number
  rw [digits] at read ⊢
  unfold below?
  split
  · rename_i same
    cases same
    cases digit
  · simp only [read, Option.filter_some, decide_eq_true small, if_true]

theorem positive?_toDigits (small : number < Nat.pow 2 63) :
    signed?.positive? 10 (Nat.toDigits 10 number) = some (Int64.ofInt number) := by
  rw [signed?.positive?, natural?_toDigits, Option.bind_some, if_pos small]

/-- The decimal spelling of a whole number of sixty-four signed bits is read as that number. -/
theorem signed?_repr (value : Int64) : signed? 10 value.toInt.repr.toList = some value := by
  have below : value.toInt < 2 ^ 63 := value.toInt_lt
  have above : -2 ^ 63 ≤ value.toInt := value.le_toInt
  cases sign : value.toInt with
  | ofNat number =>
    have small : number < Nat.pow 2 63 := by
      rw [sign] at below
      exact Int.ofNat_lt.mp below
    obtain ⟨c, rest, digits, digit⟩ := exists_digit number
    have read := positive?_toDigits small
    have spelled : (Int.ofNat number).repr.toList = Nat.toDigits 10 number := Nat.toList_repr
    rw [spelled]
    rw [digits] at read ⊢
    unfold signed?
    split
    · rename_i same
      cases same
      cases digit
    · rename_i same
      cases same
      cases digit
    · rw [read, ← value.ofInt_toInt, sign]
      rfl
  | negSucc number =>
    have small : number + 1 ≤ Nat.pow 2 63 := by
      rw [sign] at above
      have bound : (2 : Int) ^ 63 = (Nat.pow 2 63 : Nat) := rfl
      rw [bound] at above
      omega
    have spelled : (Int.negSucc number).repr.toList = '-' :: Nat.toDigits 10 (number + 1) := by
      have parts : (Int.negSucc number).repr = "-" ++ (number + 1).repr := rfl
      rw [parts, String.toList_append, Nat.toList_repr]
      rfl
    rw [spelled]
    simp only [signed?, natural?_toDigits, Option.bind_some, if_pos small]
    rw [← value.ofInt_toInt, sign]
    rfl

end Retarget.Number
