import Mathlib
import Retarget.Output.Literal
import Retarget.Proofs.Format.Name

/-!
# Literals of the same bits

A constant of a machine integer, of a fixed-point number or of a vector of logic bits is spelled in
decimal for C and bit by bit for VHDL. Both spellings are read back here. They denote the same bits,
however the sign and the width were handled on the way. A VHDL constant has as many digits as its
type has places, up to sixty-four of them.
-/

namespace Retarget

open List

namespace Number

theorem foldlM_binaryDigits (width number start : Nat) :
    (binaryDigits width number).foldlM (fun value c => (digit? 2 c).map (value * 2 + ·)) start =
      some (start * 2 ^ width + number % 2 ^ width) := by
  induction width generalizing start with
  | zero => simp [binaryDigits, Nat.mod_one]
  | succ width ih =>
    have digit : digit? 2 (if number.testBit width then '1' else '0') =
        some (number.testBit width).toNat := by
      cases number.testBit width <;> rfl
    simp only [binaryDigits, foldlM_cons, digit, Option.map_some, Option.bind_eq_bind,
      Option.bind_some, ih, Nat.toNat_testBit]
    rw [Nat.mod_pow_succ, pow_succ]
    congr 1
    ring

/-- The lowest binary digits of a number are read as what the number leaves modulo a power of
two. -/
theorem natural?_binaryDigits {width : Nat} (positive : 0 < width) (number : Nat) :
    natural? 2 (binaryDigits width number) = some (number % 2 ^ width) := by
  obtain ⟨width, rfl⟩ := Nat.exists_eq_succ_of_ne_zero positive.ne'
  refine (if_neg ?_).trans ((foldlM_binaryDigits (width + 1) number 0).trans ?_)
  · simp [binaryDigits]
  · rw [Nat.zero_mul, Nat.zero_add]

end Number

/-- The suffixes by which a C constant asks for its type. -/
def cSuffixes : List String := ["", "u", "ll", "ull"]

/-- The number that a C integer constant spells in decimal in front of its suffix. -/
def cNumber? (constant : String) : Option Int :=
  let (digits, suffix) := constant.toList.span fun c => c.isDigit || c == '-'
  if String.ofList suffix ∈ cSuffixes then (String.ofList digits).toInt? else none

/-- The number that the binary digits of a quoted VHDL constant spell. -/
def vhdlNumber? (constant : String) : Option Nat :=
  match constant.toList with
  | '"' :: rest => if rest.getLast? = some '"' then Number.natural? 2 rest.dropLast else none
  | _ => none

theorem isDigit_or_sign_of_mem_repr {number : Int} {c : Char} (member : c ∈ number.repr.toList) :
    (c.isDigit || c == '-') = true := by
  rw [Int.repr_eq_if] at member
  split at member
  · rw [Nat.toList_repr] at member
    rw [Number.isDigit_of_mem_toDigits member, Bool.true_or]
  · rw [String.toList_append, Nat.toList_repr] at member
    rcases mem_append.mp member with sign | digit
    · cases mem_singleton.mp sign
      rfl
    · rw [Number.isDigit_of_mem_toDigits digit, Bool.true_or]

theorem cNumber?_repr_append (number : Int) {suffix : String} (known : suffix ∈ cSuffixes) :
    cNumber? (number.repr ++ suffix) = some number := by
  have ends : suffix.toList.takeWhile (fun c => c.isDigit || c == '-') = [] ∧
      suffix.toList.dropWhile (fun c => c.isDigit || c == '-') = suffix.toList := by
    revert suffix
    decide
  have spelled : ∀ c ∈ number.repr.toList, (c.isDigit || c == '-') = true :=
    fun c => isDigit_or_sign_of_mem_repr
  simp only [cNumber?, span_eq_takeWhile_dropWhile, String.toList_append,
    takeWhile_append_of_pos spelled, dropWhile_append_of_pos spelled, ends,
    String.ofList_toList, append_nil, if_pos known, Int.toInt?_repr]

theorem vhdlNumber?_quoted (digits : List Char) :
    vhdlNumber? ("\"" ++ String.ofList digits ++ "\"") = Number.natural? 2 digits := by
  have quoted : ("\"" ++ String.ofList digits ++ "\"").toList = '"' :: (digits ++ ['"']) := by
    simp
  simp only [vhdlNumber?, quoted, getLast?_concat, dropLast_concat, if_true]

/-- The formats whose constants are whole numbers in C: machine integers, fixed-point numbers and
vectors of logic bits, all of some width. -/
def Format.isWhole : Format → Bool
  | .int _ bits => 0 < bits
  | .fixed _ whole fraction => 0 < whole + fraction
  | .logic width => 0 < width
  | _ => false

/-- Read as a signed or as an unsigned number, sixty-four bits agree modulo the powers of two up to
`2 ^ 64`. -/
theorem toInt_toInt64_emod (bits : UInt64) {width : Nat} (narrow : width ≤ 64) :
    bits.toInt64.toInt % 2 ^ width = (bits.toNat : Int) % 2 ^ width := by
  have divides : (2 : Int) ^ width ∣ (2 ^ 64 : Nat) := pow_dvd_pow 2 narrow
  have signed : bits.toInt64.toInt = (bits.toNat : Int).bmod (2 ^ 64) :=
    BitVec.toInt_eq_toNat_bmod bits.toBitVec
  rw [signed, ← Int.emod_emod_of_dvd _ divides, Int.bmod_emod, Int.emod_emod_of_dvd _ divides]

namespace Scalar

/-- What stores a whole number is the number itself, in two's complement. -/
theorem toInt64_eq (scalar : Scalar) (signed : Bool) (bits : Nat) :
    scalar.toInt64 = (scalar.toBits (.int signed bits)).toInt64 := by
  cases scalar with
  | float value => rfl
  | int value => rfl
  | bool value => cases value <;> rfl

/-- A C constant spells a number that agrees with the stored bits as far as the format has them. -/
theorem cLiteral_spells (scalar : Scalar) {format : Format} (whole : format.isWhole) :
    ∃ number : Int, ∃ suffix ∈ cSuffixes, scalar.cLiteral format = number.repr ++ suffix ∧
      number % 2 ^ min format.width 64 =
        ((scalar.toBits format).toNat : Int) % 2 ^ min format.width 64 := by
  have narrow : min format.width 64 ≤ 64 := Nat.min_le_right _ _
  cases format with
  | int signed bits =>
    cases signed with
    | true =>
      refine ⟨scalar.toInt64.toInt, if bits = 64 then "ll" else "", ?_, rfl, ?_⟩
      · split <;> decide
      · rw [scalar.toInt64_eq true bits]
        exact toInt_toInt64_emod _ narrow
    | false =>
      have stored : scalar.toInt64.toUInt64 = scalar.toBits (.int false bits) := by
        rw [scalar.toInt64_eq false bits]
        rfl
      by_cases full : bits = 64
      · refine ⟨(scalar.toInt64.toUInt64.toNat : Int), "ull", by decide, ?_, ?_⟩
        · exact if_pos full
        · rw [stored]
      · refine ⟨((scalar.toInt64.toUInt64.toNat % 2 ^ bits : Nat) : Int), "u", by decide, ?_, ?_⟩
        · exact if_neg full
        · have divides : (2 : Int) ^ min bits 64 ∣ 2 ^ bits :=
            pow_dvd_pow 2 (Nat.min_le_left bits 64)
          rw [stored]
          push_cast
          exact Int.emod_emod_of_dvd _ divides
  | fixed signed integral fraction =>
    cases signed with
    | true =>
      exact ⟨_, "", by decide, String.append_empty.symm, toInt_toInt64_emod _ narrow⟩
    | false => exact ⟨((scalar.toBits _).toNat : Int), "u", by decide, rfl, rfl⟩
  | logic width =>
    exact ⟨((scalar.toBits _).toNat : Int), "", by decide, String.append_empty.symm, rfl⟩
  | _ => cases whole

theorem vhdlLiteral_spells (scalar : Scalar) {format : Format} (whole : format.isWhole) :
    vhdlNumber? (scalar.vhdlLiteral format) =
      some ((scalar.toBits format).toNat % 2 ^ min format.width 64) := by
  have positive : 0 < format.width := by
    cases format <;> first | cases whole | exact of_decide_eq_true whole
  have width : min (max format.width 1) 64 = min format.width 64 := by omega
  have spelled : scalar.vhdlLiteral format = "\"" ++ String.ofList
      (Number.binaryDigits (min (max format.width 1) 64) (scalar.toBits format).toNat) ++ "\"" := by
    cases format <;> first | cases whole | rfl
  rw [spelled, vhdlNumber?_quoted, width, Number.natural?_binaryDigits (by omega)]

end Scalar

/-- The literals of a value in C and in VHDL denote the same bits: what VHDL spells bit by bit is
the number that C spells in decimal, modulo the power of two that the width of the format gives, of
which VHDL writes sixty-four bits at most. -/
theorem Language.literal_sameBits (scalar : Scalar) {format : Format} (whole : format.isWhole) :
    ∃ (number : Int) (bits : Nat),
      cNumber? (Language.c.literal scalar format) = some number ∧
        vhdlNumber? (Language.vhdl.literal scalar format) = some bits ∧
          (bits : Int) = number % 2 ^ min format.width 64 := by
  obtain ⟨number, suffix, known, spelled, agrees⟩ := scalar.cLiteral_spells whole
  refine ⟨number, _, ?_, scalar.vhdlLiteral_spells whole, ?_⟩
  · rw [← cNumber?_repr_append number known, ← spelled]
    rfl
  · rw [agrees]
    push_cast
    rfl

/-- Minus three in eight signed bits is `-3` in C and `11111101` in VHDL. -/
theorem Language.literal_sameBits_minusThree :
    ∃ (number : Int) (bits : Nat),
      cNumber? (Language.c.literal (.int (-3)) (.int true 8)) = some number ∧
        vhdlNumber? (Language.vhdl.literal (.int (-3)) (.int true 8)) = some bits ∧
          (bits : Int) = number % 2 ^ min (Format.int true 8).width 64 :=
  Language.literal_sameBits (.int (-3)) (by decide)

/-! ## As many digits as places -/

/-- The number of places that a VHDL vector type has. -/
def vhdlWidth? (type : String) : Option Nat :=
  match Text.after? "std_logic_vector(".toList type.toList with
  | none => none
  | some bounds =>
    if bounds.dropWhile Char.isDigit = " downto 0)".toList then
      (Number.natural? 10 (bounds.takeWhile Char.isDigit)).map (· + 1)
    else none

/-- The number of binary digits of a quoted VHDL constant. -/
def vhdlDigits? (constant : String) : Option Nat :=
  (vhdlNumber? constant).map fun _ => constant.length - 2

theorem vhdlWidth?_vector (last : Nat) :
    vhdlWidth? ("std_logic_vector(" ++ toString last ++ " downto 0)") = some (last + 1) := by
  have digits : ∀ c ∈ Nat.toDigits 10 last, c.isDigit = true := fun c =>
    Number.isDigit_of_mem_toDigits
  have shape : ("std_logic_vector(" ++ toString last ++ " downto 0)").toList =
      "std_logic_vector(".toList ++ (Nat.toDigits 10 last ++ " downto 0)".toList) := by
    simp [Nat.toList_repr]
  rw [vhdlWidth?, shape, Text.after?_append]
  simp [takeWhile_append_of_pos digits, dropWhile_append_of_pos digits,
    Number.natural?_toDigits]

theorem Number.length_binaryDigits (width number : Nat) :
    (binaryDigits width number).length = width := by
  induction width with
  | zero => rfl
  | succ width ih => rw [binaryDigits, length_cons, ih]

theorem vhdlDigits?_quoted {width : Nat} (positive : 0 < width) (number : Nat) :
    vhdlDigits? ("\"" ++ String.ofList (Number.binaryDigits width number) ++ "\"") =
      some width := by
  have quote : ("\"" : String).length = 1 := rfl
  rw [vhdlDigits?, vhdlNumber?_quoted, Number.natural?_binaryDigits positive]
  simp [Number.length_binaryDigits, quote]

/-- A constant of a format that has a name has as many binary digits as its type has places, but for
bits, as long as the type has no more than sixty-four places. A constant of a wider type has
sixty-four digits. -/
theorem Language.literal_digits_iff (scalar : Scalar) {text : List Char} {format : Format}
    (read : Format.read? text = some format) (vector : format ≠ .bool) :
    ∃ places digits, vhdlWidth? (Language.vhdl.typeName format) = some places ∧
      vhdlDigits? (Language.vhdl.literal scalar format) = some digits ∧
      digits = min places 64 ∧ (digits = places ↔ format.width ≤ 64) := by
  have named : format.vhdlName =
      "std_logic_vector(" ++ toString (max format.width 1 - 1) ++ " downto 0)" := by
    cases format with
    | bool => exact absurd rfl vector
    | table => cases Format.admissible_of_ofName? read
    | _ => rfl
  have spelled : scalar.vhdlLiteral format = "\"" ++ String.ofList
      (Number.binaryDigits (min (max format.width 1) 64) (scalar.toBits format).toNat) ++ "\"" := by
    cases format with
    | bool => exact absurd rfl vector
    | table => cases Format.admissible_of_ofName? read
    | _ => rfl
  have positive : 0 < min (max format.width 1) 64 := by omega
  refine ⟨_, _, (congrArg vhdlWidth? named).trans (vhdlWidth?_vector _),
    (congrArg vhdlDigits? spelled).trans (vhdlDigits?_quoted positive _), ?_, ?_⟩
  · omega
  · omega

/-- A constant of four bits has four digits. -/
theorem Language.literal_digits_narrow :
    Format.read? "slv4".toList = some (.logic 4) ∧
      ∃ places digits, vhdlWidth? (Language.vhdl.typeName (.logic 4)) = some places ∧
        vhdlDigits? (Language.vhdl.literal (.int 5) (.logic 4)) = some digits ∧
        digits = min places 64 ∧ (digits = places ↔ (Format.logic 4).width ≤ 64) :=
  have read : Format.read? "slv4".toList = some (.logic 4) := by decide
  ⟨read, Language.literal_digits_iff (.int 5) read nofun⟩

/-- A constant of a hundred and twenty-eight bits has half the digits that its type asks for. -/
theorem Language.literal_digits_wide :
    Format.read? "slv128".toList = some (.logic 128) ∧
      vhdlWidth? (Language.vhdl.typeName (.logic 128)) = some 128 ∧
      vhdlDigits? (Language.vhdl.literal (.int 5) (.logic 128)) = some 64 := by
  decide +kernel

end Retarget
