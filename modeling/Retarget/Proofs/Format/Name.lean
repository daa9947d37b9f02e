import Retarget.Format.Name
import Retarget.Proofs.Number.Numeral
import Retarget.Proofs.Text.Cutting

/-!
# Names of formats read back

The formats that can be read are the admissible ones, and the name of each of them is read as that
format. A name is one word of letters, digits, points and underscores.
-/

namespace Retarget

open List

/-- The characters of names of formats. -/
def Text.isWordCharacter (c : Char) : Bool :=
  c.isAlphanum || c == '_' || c == '.'

theorem Text.isBlank_of_isWordCharacter {c : Char} (word : isWordCharacter c = true) :
    isBlank c = false := by
  have range : 33 ≤ c.toNat ∧ c.toNat < 128 := by
    simp only [isWordCharacter, Char.isAlphanum, Char.isAlpha, Char.isUpper, Char.isLower,
      Char.isDigit, Bool.or_eq_true, Bool.and_eq_true, decide_eq_true_eq, beq_iff_eq,
      UInt32.le_iff_toNat_le, ge_iff_le] at word
    change (((65 ≤ c.toNat ∧ c.toNat ≤ 90 ∨ 97 ≤ c.toNat ∧ c.toNat ≤ 122) ∨
      48 ≤ c.toNat ∧ c.toNat ≤ 57) ∨ c = '_') ∨ c = '.' at word
    rcases word with (letter | rfl) | rfl
    · omega
    · decide
    · decide
  simp only [isBlank, Bool.or_eq_false_iff, Bool.and_eq_false_iff, decide_eq_false_iff_not,
    beq_eq_false_iff_ne]
  omega

/-- A text of such characters. -/
def Text.Word (text : List Char) : Prop :=
  ∀ c ∈ text, isWordCharacter c = true

instance (text : List Char) : Decidable (Text.Word text) :=
  inferInstanceAs (Decidable (∀ c ∈ text, Text.isWordCharacter c = true))

theorem Text.Word.trimmed {text : List Char} (word : Word text) : Trimmed text :=
  .of_forall fun c member => isBlank_of_isWordCharacter (word c member)

theorem Text.Word.append {first second : List Char} (left : Word first) (right : Word second) :
    Word (first ++ second) :=
  forall_mem_append.mpr ⟨left, right⟩

theorem Text.word_toDigits (number : Nat) : Word (Nat.toDigits 10 number) := by
  intro c member
  have digit := Number.isDigit_of_mem_toDigits member
  simp [isWordCharacter, Char.isAlphanum, digit]

namespace Format

/-- The widths of integers. -/
def IntegerWidth (bits : Nat) : Prop :=
  bits = 8 ∨ bits = 16 ∨ bits = 32 ∨ bits = 64

/-- The elements of vectors. -/
def LaneElement : Format → Prop
  | .binary32 | .binary64 => True
  | .int _ bits => IntegerWidth bits
  | _ => False

/-- The formats that have a name that can be read. -/
def Admissible : Format → Prop
  | .void | .bool | .binary16 | .binary32 | .binary64 | .register _ => True
  | .int _ bits => IntegerWidth bits
  | .fixed _ whole fraction => 1 ≤ whole + fraction ∧ whole + fraction ≤ maxFixedWidth
  | .vector element lanes => LaneElement element ∧ lanes < UInt8.size
  | .logic width => 0 < width ∧ width < UInt32.size
  | .table _ _ => False

variable {format : Format} {text : List Char} {signed : Bool} {bits : Nat}

/-! ## What is read is admissible -/

theorem admissible_of_ofIntegerWidth? (read : ofIntegerWidth? signed text = some format) :
    ∃ bits, format = .int signed bits ∧ IntegerWidth bits := by
  obtain ⟨bits, found, rfl⟩ := Option.map_eq_some_iff.mp read
  have width := (Option.filter_eq_some_iff.mp found).2
  simp only [Bool.or_eq_true, decide_eq_true_eq] at width
  refine ⟨bits, rfl, ?_⟩
  unfold IntegerWidth
  omega

theorem admissible_of_ofIntegerName? (read : ofIntegerName? text = some format) :
    ∃ signed bits, format = .int signed bits ∧ IntegerWidth bits := by
  unfold ofIntegerName? at read
  split at read
  · exact ⟨false, admissible_of_ofIntegerWidth? read⟩
  · obtain ⟨digits, _, read⟩ := Option.bind_eq_some_iff.mp read
    exact ⟨true, admissible_of_ofIntegerWidth? read⟩

theorem admissible_of_ofLanes? (read : ofLanes? text = some format) : format.Admissible := by
  unfold ofLanes? at read
  dsimp only at read
  split at read
  · cases read
  obtain ⟨lanes, counted, read⟩ := Option.bind_eq_some_iff.mp read
  have few : lanes < UInt8.size := of_decide_eq_true (Option.filter_eq_some_iff.mp counted).2
  split at read
  · cases read
    exact ⟨trivial, few⟩
  split at read
  · cases read
    exact ⟨trivial, few⟩
  · obtain ⟨element, named, read⟩ := Option.bind_eq_some_iff.mp read
    cases read
    obtain ⟨signed, bits, rfl, width⟩ := admissible_of_ofIntegerName? named
    exact ⟨width, few⟩

theorem admissible_of_ofLogicWidth? (read : ofLogicWidth? text = some format) :
    format.Admissible := by
  obtain ⟨width, found, rfl⟩ := Option.map_eq_some_iff.mp read
  obtain ⟨counted, positive⟩ := Option.filter_eq_some_iff.mp found
  have small := (Option.filter_eq_some_iff.mp counted).2
  exact ⟨of_decide_eq_true positive, of_decide_eq_true small⟩

theorem admissible_of_ofFixedWidths? (read : ofFixedWidths? signed text = some format) :
    format.Admissible := by
  unfold ofFixedWidths? at read
  obtain ⟨parts, _, read⟩ := Option.bind_eq_some_iff.mp read
  obtain ⟨whole, _, read⟩ := Option.bind_eq_some_iff.mp read
  obtain ⟨fraction, _, read⟩ := Option.bind_eq_some_iff.mp read
  split at read
  · rename_i bounds
    cases read
    exact bounds
  · cases read

theorem admissible_of_ofWord? (read : ofWord? text = some format) : format.Admissible := by
  have listed := mem_of_find?_eq_some read
  simp only [mem_cons, not_mem_nil, or_false] at listed
  rcases listed with rfl | rfl | rfl | rfl | rfl <;> trivial

/-- Every format that is read is admissible. -/
theorem admissible_of_ofName? (read : ofName? text = some format) : format.Admissible := by
  unfold ofName? at read
  split at read
  · rename_i found
    cases read
    exact admissible_of_ofWord? found
  split at read
  · cases read
    trivial
  split at read
  · exact admissible_of_ofLogicWidth? read
  split at read
  · exact admissible_of_ofFixedWidths? read
  split at read
  · exact admissible_of_ofFixedWidths? read
  split at read
  · exact admissible_of_ofLanes? read
  · obtain ⟨signed, bits, rfl, width⟩ := admissible_of_ofIntegerName? read
    exact width

/-! ## How names are spelled -/

/-- The element in the name of a vector. -/
def laneName : Format → List Char
  | .binary32 => "float32".toList
  | .binary64 => "float64".toList
  | element => element.name.toList

theorem spell_int (signed : Bool) (bits : Nat) :
    (Format.int signed bits).name.toList =
      (if signed then "int" else "uint").toList ++ Nat.toDigits 10 bits := by
  simp [name_int]

theorem spell_fixed (signed : Bool) (whole fraction : Nat) :
    (Format.fixed signed whole fraction).name.toList =
      (if signed then "sfix" else "ufix").toList ++
        (Nat.toDigits 10 whole ++ '.' :: Nat.toDigits 10 fraction) := by
  simp [name]

theorem spell_vector (element : Format) (lanes : Nat) :
    (Format.vector element lanes).name.toList =
      'v' :: (Nat.toDigits 10 lanes ++ laneName element) := by
  cases element <;> simp [name, laneName]

theorem spell_logic (width : Nat) :
    (Format.logic width).name.toList = "slv".toList ++ Nat.toDigits 10 width := by
  simp [name]

theorem word_int (signed : Bool) (bits : Nat) : Text.Word (Format.int signed bits).name.toList := by
  rw [spell_int]
  apply Text.Word.append _ (Text.word_toDigits bits)
  cases signed <;> decide

/-- The name of an admissible format is one word. -/
theorem word_name (admissible : format.Admissible) : Text.Word format.name.toList := by
  have digits := Text.word_toDigits
  cases format with
  | void | bool | binary16 | binary32 | binary64 => decide
  | int signed bits => exact word_int signed bits
  | fixed signed whole fraction =>
    have rest : Text.Word (['.'] ++ Nat.toDigits 10 fraction) :=
      .append (by decide) (digits fraction)
    rw [spell_fixed]
    refine .append ?_ ((digits whole).append rest)
    cases signed <;> decide
  | vector element lanes =>
    have start : Text.Word ("v".toList ++ Nat.toDigits 10 lanes) :=
      .append (by decide) (digits lanes)
    rw [spell_vector]
    refine start.append ?_
    cases element with
    | binary32 | binary64 => decide
    | int signed bits => exact word_int signed bits
    | _ => cases admissible.1
  | register layout => cases layout <;> decide
  | logic width =>
    rw [spell_logic]
    exact .append (by decide) (digits width)
  | table storage size => cases admissible

/-! ## Names of admissible formats are read back -/

theorem ofRegisterName?_eq_none (other : text.head? ≠ some 'm') : Register.ofName? text = none := by
  have start : ∀ layout ∈ Register.all, layout.name.toList.head? = some 'm' := by decide
  apply find?_eq_none.mpr
  intro layout listed same
  exact other (of_decide_eq_true same ▸ start layout listed)

theorem ofIntegerWidth?_toDigits (signed : Bool) (width : IntegerWidth bits) :
    ofIntegerWidth? signed (Nat.toDigits 10 bits) = some (.int signed bits) := by
  have small : bits < UInt8.size := by
    unfold IntegerWidth at width
    have size : UInt8.size = 256 := rfl
    omega
  have listed : (bits = 8 || bits = 16 || bits = 32 || bits = 64) = true := by
    simpa [IntegerWidth, or_assoc] using width
  rw [ofIntegerWidth?, Number.below?_toDigits small, Option.filter_some, if_pos listed,
    Option.map_some]

theorem ofIntegerName?_name (width : IntegerWidth bits) :
    ofIntegerName? (Format.int signed bits).name.toList = some (.int signed bits) := by
  have read := ofIntegerWidth?_toDigits signed width
  rw [spell_int]
  cases signed <;> simp [ofIntegerName?, Text.after?, List.isPrefixOf?, read]

/-- The number of lanes ends where the name of the element begins. -/
theorem ofLanes?_append {lanes : Nat} (few : lanes < UInt8.size) {first : Char} {rest : List Char}
    (letter : first.isDigit = false) :
    ofLanes? (Nat.toDigits 10 lanes ++ first :: rest) =
      (if first :: rest = "float32".toList then some .binary32
        else if first :: rest = "float64".toList then some .binary64
        else ofIntegerName? (Text.trim (first :: rest))).map (.vector · lanes) := by
  have digits : ∀ c ∈ Nat.toDigits 10 lanes, c.isDigit = true :=
    fun c member => Number.isDigit_of_mem_toDigits member
  have element : (Nat.toDigits 10 lanes ++ first :: rest).dropWhile Char.isDigit =
      first :: rest := by
    rw [dropWhile_append_of_pos digits, dropWhile_cons_of_neg (by simp [letter])]
  have count : (Nat.toDigits 10 lanes ++ first :: rest).takeWhile Char.isDigit =
      Nat.toDigits 10 lanes := by
    rw [takeWhile_append_of_pos digits, takeWhile_cons_of_neg (by simp [letter]),
      append_nil]
  unfold ofLanes?
  simp only [element, count, Number.below?_toDigits few, isEmpty_cons]
  split
  · contradiction
  · split
    · rfl
    · split
      · rfl
      · cases ofIntegerName? (Text.trim (first :: rest)) <;> rfl

theorem ofName?_logic {width : Nat} (admissible : (Format.logic width).Admissible) :
    ofName? (Format.logic width).name.toList = some (.logic width) := by
  have word : ofWord? ("slv".toList ++ Nat.toDigits 10 width) = none := by
    simp [ofWord?, name]
  rw [spell_logic, ofName?, word, ofRegisterName?_eq_none (by simp)]
  simp only [Text.after?_append]
  rw [ofLogicWidth?, Number.below?_toDigits admissible.2, Option.filter_some,
    if_pos (decide_eq_true admissible.1), Option.map_some]

section

variable {whole fraction : Nat} (admissible : (Format.fixed signed whole fraction).Admissible)

include admissible

theorem ofFixedWidths?_append :
    ofFixedWidths? signed (Nat.toDigits 10 whole ++ '.' :: Nat.toDigits 10 fraction) =
      some (.fixed signed whole fraction) := by
  have bounds : 1 ≤ whole + fraction ∧ whole + fraction ≤ maxFixedWidth := admissible
  have width : maxFixedWidth = 64 := rfl
  have size : UInt16.size = 65536 := rfl
  have parted : Text.cutFirst? (· = '.')
      (Nat.toDigits 10 whole ++ '.' :: Nat.toDigits 10 fraction) =
        some (Nat.toDigits 10 whole, Nat.toDigits 10 fraction) := by
    refine Text.cutFirst?_append ?_ (by decide) _
    intro c member
    have digit := Number.isDigit_of_mem_toDigits member
    apply decide_eq_false
    rintro rfl
    cases digit
  unfold ofFixedWidths?
  rw [parted]
  simp only [Option.bind_eq_bind, Option.bind_some,
    Number.below?_toDigits (show whole < UInt16.size by omega),
    Number.below?_toDigits (show fraction < UInt16.size by omega), if_pos bounds]

theorem ofName?_fixed :
    ofName? (Format.fixed signed whole fraction).name.toList =
      some (.fixed signed whole fraction) := by
  have read := ofFixedWidths?_append admissible
  rw [spell_fixed]
  generalize Nat.toDigits 10 whole ++ '.' :: Nat.toDigits 10 fraction = widths at read ⊢
  have word : ofWord? ((if signed then "sfix" else "ufix").toList ++ widths) = none := by
    cases signed <;> simp [ofWord?, name]
  rw [ofName?, word, ofRegisterName?_eq_none (by cases signed <;> simp)]
  cases signed <;> simp [Text.after?, List.isPrefixOf?, read]

end

theorem ofName?_int (width : IntegerWidth bits) :
    ofName? (Format.int signed bits).name.toList = some (.int signed bits) := by
  have read : ofIntegerName? (Format.int signed bits).name.toList = some (.int signed bits) :=
    ofIntegerName?_name width
  rw [spell_int] at read ⊢
  have word : ofWord? ((if signed then "int" else "uint").toList ++ Nat.toDigits 10 bits) =
      none := by
    cases signed <;> simp [ofWord?, name]
  rw [ofName?, word, ofRegisterName?_eq_none (by cases signed <;> simp)]
  cases signed <;> simp_all [Text.after?, List.isPrefixOf?]

/-- Names of vectors go on with a digit, and so are not the word that begins with the same letter. -/
theorem ofName?_lanes (lanes : Nat) (rest : List Char) :
    ofName? ('v' :: (Nat.toDigits 10 lanes ++ rest)) = ofLanes? (Nat.toDigits 10 lanes ++ rest) := by
  obtain ⟨c, others, digits, digit⟩ := Number.exists_digit lanes
  have apart : c ≠ 'o' := by
    rintro rfl
    cases digit
  have word : ofWord? ('v' :: (Nat.toDigits 10 lanes ++ rest)) = none := by
    simp [ofWord?, name, digits, apart.symm]
  rw [ofName?, word, ofRegisterName?_eq_none (by simp)]
  simp [Text.after?, List.isPrefixOf?]

theorem ofName?_vector {element : Format} {lanes : Nat}
    (admissible : (Format.vector element lanes).Admissible) :
    ofName? (Format.vector element lanes).name.toList = some (.vector element lanes) := by
  obtain ⟨kind, few⟩ := admissible
  rw [spell_vector, ofName?_lanes]
  cases element with
  | binary32 | binary64 =>
    unfold laneName
    exact ofLanes?_append few (by decide)
  | int signed bits =>
    have plain := (word_int signed bits).trimmed
    have read : ofIntegerName? (Format.int signed bits).name.toList = some (.int signed bits) :=
      ofIntegerName?_name kind
    obtain ⟨first, rest, spelled, letter⟩ : ∃ first rest,
        (Format.int signed bits).name.toList = first :: rest ∧ (first = 'i' ∨ first = 'u') := by
      rw [spell_int]
      cases signed
      · exact ⟨_, _, rfl, .inr rfl⟩
      · exact ⟨_, _, rfl, .inl rfl⟩
    have digitless : first.isDigit = false := by
      rcases letter with rfl | rfl <;> rfl
    have other : first ≠ 'f' := by
      rcases letter with rfl | rfl <;> decide
    change ofLanes? (Nat.toDigits 10 lanes ++ (Format.int signed bits).name.toList) = _
    rw [spelled] at plain read ⊢
    rw [ofLanes?_append few digitless, plain.trim_eq, read]
    simp [other]
  | _ => cases kind

theorem ofName?_register (layout : Register) :
    ofName? (Format.register layout).name.toList = some (.register layout) := by
  have word : ∀ layout ∈ Register.all, ofWord? layout.name.toList = none := by decide
  have found : ∀ layout ∈ Register.all, Register.ofName? layout.name.toList = some layout := by
    decide
  have listed : layout ∈ Register.all := by cases layout <;> decide
  rw [name, ofName?, word layout listed, found layout listed]

/-- The name of every admissible format is read as that format. -/
theorem ofName?_name (admissible : format.Admissible) : ofName? format.name.toList = some format := by
  cases format with
  | void => rfl
  | bool => rfl
  | binary16 => rfl
  | binary32 => rfl
  | binary64 => rfl
  | int signed bits => exact ofName?_int admissible
  | fixed signed whole fraction => exact ofName?_fixed admissible
  | vector element lanes => exact ofName?_vector admissible
  | register layout => exact ofName?_register layout
  | logic width => exact ofName?_logic admissible
  | table storage size => cases admissible

/-- Whatever a format was read from, it is admissible, and its name is read as that format. Every
admissible format has such a name. -/
theorem read?_roundTrip (format : Format) :
    (∀ text, read? text = some format →
      read? format.name.toList = some format ∧ format.Admissible) ∧
    (format.Admissible → read? format.name.toList = some format) := by
  have back (admissible : format.Admissible) : read? format.name.toList = some format := by
    rw [read?, (word_name admissible).trimmed.trim_eq]
    exact ofName?_name admissible
  refine ⟨fun text read => ?_, back⟩
  have admissible := admissible_of_ofName? read
  exact ⟨back admissible, admissible⟩

/-- Signs and zeros in front of a number are read and not written. -/
example : read? " sfix+08.07 ".toList = some (.fixed true 8 7) ∧
    (Format.fixed true 8 7).name = "sfix8.7" := by
  decide

theorem name_ne_nil (admissible : format.Admissible) : format.name.toList ≠ [] := by
  intro empty
  have read := ofName?_name admissible
  rw [empty] at read
  cases read

end Format

end Retarget
