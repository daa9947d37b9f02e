import Retarget.Proofs.Format.Name
import Retarget.Proofs.Source.Script

/-!
# Words of a written program

The names, literals and formats of a written program are plain words: they have no white space and
none of the marks that divide a line, so a line comes apart where it was put together.
-/

namespace Retarget

open List

theorem Format.admissible_of_readable {format : Format} (readable : format.Readable) :
    format.Admissible := by
  obtain ⟨text, read⟩ := readable
  exact admissible_of_ofName? read

namespace Source

variable {c : Char}

open Text (Trimmed Word)

theorem listed_cons_cons (first second : List Char) (rest : List (List Char)) :
    listed (first :: second :: rest) = first ++ ',' :: ' ' :: listed (second :: rest) := by
  simp [listed, intercalate_cons_cons]

theorem listed_ne_nil {parts : List (List Char)} (some : parts ≠ []) (full : ∀ part ∈ parts, part ≠ []) :
    listed parts ≠ [] := by
  cases parts with
  | nil => exact absurd rfl some
  | cons first rest =>
    have here := full first mem_cons_self
    cases rest <;> simp [listed, intercalate_cons_cons, here]

theorem trimmed_listed {parts : List (List Char)} (trimmed : ∀ part ∈ parts, Trimmed part)
    (full : ∀ part ∈ parts, part ≠ []) : Trimmed (listed parts) := by
  induction parts with
  | nil => exact .of_forall (forall_mem_nil _)
  | cons first rest ih =>
    obtain ⟨here, later⟩ := forall_mem_cons.mp trimmed
    obtain ⟨some, others⟩ := forall_mem_cons.mp full
    cases rest with
    | nil => simpa [listed] using here
    | cons second rest =>
      have joined := here.join some [',', ' '] (ih later others)
        (listed_ne_nil (cons_ne_nil _ _) others)
      simpa [listed_cons_cons] using joined

/-- A text of characters that names may have. -/
def Plain (text : List Char) : Prop :=
  ∀ c ∈ text, isNameCharacter c = true

instance (text : List Char) : Decidable (Plain text) :=
  inferInstanceAs (Decidable (∀ c ∈ text, isNameCharacter c = true))

variable {text first second : List Char} {format : Format} {name : String}

theorem Plain.notMem (plain : Plain text) {mark : Char} (excluded : isNameCharacter mark = false) :
    mark ∉ text := by
  intro member
  rw [plain mark member] at excluded
  cases excluded

theorem Plain.cons (head : isNameCharacter c = true) (rest : Plain text) : Plain (c :: text) :=
  forall_mem_cons.mpr ⟨head, rest⟩

theorem isBlank_of_isNameCharacter (character : isNameCharacter c = true) :
    Text.isBlank c = false := by
  simp only [isNameCharacter, Bool.and_eq_true, Bool.not_eq_true'] at character
  exact character.1

theorem Plain.trimmed (plain : Plain text) : Trimmed text :=
  .of_forall fun c member => isBlank_of_isNameCharacter (plain c member)

/-- A text of characters that names may have and some marks. -/
def Drawn (marks : List Char) (text : List Char) : Prop :=
  ∀ c ∈ text, isNameCharacter c = true ∨ c ∈ marks

instance (marks text : List Char) : Decidable (Drawn marks text) :=
  inferInstanceAs (Decidable (∀ c ∈ text, isNameCharacter c = true ∨ c ∈ marks))

theorem Plain.drawn (plain : Plain text) (marks : List Char) : Drawn marks text :=
  fun c member => .inl (plain c member)

namespace Drawn

variable {marks : List Char}

theorem append (left : Drawn marks first) (right : Drawn marks second) :
    Drawn marks (first ++ second) :=
  forall_mem_append.mpr ⟨left, right⟩

theorem cons {c : Char} (head : isNameCharacter c = true ∨ c ∈ marks) (rest : Drawn marks text) :
    Drawn marks (c :: text) :=
  forall_mem_cons.mpr ⟨head, rest⟩

theorem notMem (drawn : Drawn marks text) {mark : Char} (excluded : isNameCharacter mark = false)
    (absent : mark ∉ marks) : mark ∉ text := by
  intro member
  rcases drawn mark member with character | known
  · rw [character] at excluded
    cases excluded
  · exact absent known

theorem mono {more : List Char} (drawn : Drawn marks text) (fewer : ∀ c ∈ marks, c ∈ more) :
    Drawn more text :=
  fun c member => (drawn c member).imp_right (fewer c)

theorem listed {parts : List (List Char)} (comma : ',' ∈ marks) (space : ' ' ∈ marks)
    (drawn : ∀ part ∈ parts, Drawn marks part) : Drawn marks (listed parts) := by
  induction parts with
  | nil => exact forall_mem_nil _
  | cons first rest ih =>
    obtain ⟨here, later⟩ := forall_mem_cons.mp drawn
    cases rest with
    | nil => simpa [Source.listed] using here
    | cons second rest =>
      rw [listed_cons_cons]
      exact here.append (.cons (.inr comma) (.cons (.inr space) (ih later)))

end Drawn

/-- Letters, digits, underscores and points may stand in names. -/
theorem isNameCharacter_of_isWordCharacter (word : Text.isWordCharacter c = true) :
    isNameCharacter c = true := by
  have marks : ∀ mark ∈ ";,:=@()[]".toList, Text.isWordCharacter mark = false := by decide
  have absent : ";,:=@()[]".toList.contains c = false := by
    apply Bool.eq_false_iff.mpr
    intro found
    rw [marks c (contains_iff_mem.mp found)] at word
    cases word
  rw [isNameCharacter, Text.isBlank_of_isWordCharacter word, absent]
  rfl

theorem IsName.plain (named : IsName name) : Plain name.toList :=
  named.2

theorem IsName.ne_nil (named : IsName name) : name.toList ≠ [] :=
  fun empty => named.1 (String.toList_inj.mp empty)

theorem plain_valueText (named : IsName name) : Plain (valueText name) :=
  .cons (by decide) named.plain

theorem plain_formatName (readable : format.Readable) : Plain format.name.toList := by
  have word := Format.word_name (Format.admissible_of_readable readable)
  exact fun c member => isNameCharacter_of_isWordCharacter (word c member)

/-! ## Literals -/

/-- Digits, perhaps behind a minus sign. -/
theorem digit_or_minus {value : Int64} (member : c ∈ (Literal.number value).text) :
    c.isDigit = true ∨ c = '-' := by
  have member : c ∈ value.toInt.repr.toList := member
  cases sign : value.toInt with
  | ofNat number =>
    rw [sign] at member
    have digits : (Int.ofNat number).repr.toList = Nat.toDigits 10 number := Nat.toList_repr
    rw [digits] at member
    exact .inl (Number.isDigit_of_mem_toDigits member)
  | negSucc number =>
    rw [sign] at member
    have parts : (Int.negSucc number).repr = "-" ++ (number + 1).repr := rfl
    rw [parts, String.toList_append, Nat.toList_repr] at member
    rcases mem_append.mp member with minus | digit
    · exact .inr (mem_singleton.mp minus)
    · exact .inl (Number.isDigit_of_mem_toDigits digit)

theorem plain_literal (literal : Literal) : Plain literal.text := by
  cases literal with
  | number value =>
    intro c member
    rcases digit_or_minus member with digit | rfl
    · apply isNameCharacter_of_isWordCharacter
      simp [Text.isWordCharacter, Char.isAlphanum, digit]
    · decide
  | truth value => cases value <;> decide

theorem integer?_literal (value : Int64) : integer? (Literal.number value).text = some value := by
  have other : Text.after? "0x".toList (Literal.number value).text = none := by
    apply Option.eq_none_iff_forall_not_mem.mpr
    intro rest found
    have spelled : (Literal.number value).text = '0' :: 'x' :: rest := Text.after?_eq_some.mp found
    have member : 'x' ∈ (Literal.number value).text := by simp [spelled]
    rcases digit_or_minus member with digit | minus
    · cases digit
    · cases minus
  rw [integer?, other]
  exact Number.signed?_repr value

theorem scalar?_literal {literal : Literal} (suits : literal.Suits format) :
    scalar? format literal.text = some literal.scalar := by
  cases literal with
  | number value =>
    obtain ⟨notTruth, whole⟩ := suits
    unfold scalar?
    split
    · exact absurd rfl notTruth
    · rw [if_neg (by rw [whole]; decide), integer?_literal]
      rfl
  | truth value =>
    have same : format = .bool := suits
    subst same
    cases value <;> rfl

/-- White space in front of a literal does not matter. -/
theorem scalar_literal {literal : Literal} (suits : literal.Suits format) (line : Nat)
    {margin : List Char} (blank : ∀ c ∈ margin, Text.isBlank c = true) :
    scalar line format (margin ++ literal.text) = .ok literal.scalar := by
  have trimmed : Text.trim (margin ++ literal.text) = literal.text := by
    have padded := Text.trim_pad blank literal.text (forall_mem_nil _)
    rw [append_nil] at padded
    rw [padded, (plain_literal literal).trimmed.trim_eq]
  unfold scalar
  simp only [trimmed, scalar?_literal suits]

/-! ## Expressions -/

theorem plain_operationWord (operation : Operation) (specifier : Option Specifier) :
    Plain (operationWord operation specifier) := by
  refine forall_mem_append.mpr ⟨by cases operation <;> decide, ?_⟩
  cases specifier with
  | none => exact forall_mem_nil _
  | some specifier => exact Plain.cons (by decide) (by cases specifier <;> decide)

/-- The marks of expressions. -/
def expressionMarks : List Char := [' ', ',', '[', ']']

theorem drawn_expression {expression : Expression} {known : List String}
    (valid : expression.Valid known format) (named : ∀ name ∈ known, IsName name) :
    Drawn expressionMarks expression.text := by
  cases expression with
  | constant value =>
    have start : Drawn expressionMarks "const ".toList := by decide
    exact start.append ((plain_literal value).drawn _)
  | table entries =>
    have start : Drawn expressionMarks "table [".toList := by decide
    have entries : Drawn expressionMarks (listed (entries.map Literal.text)) := by
      apply Drawn.listed (by decide) (by decide)
      intro part member
      obtain ⟨value, _, rfl⟩ := mem_map.mp member
      exact (plain_literal value).drawn _
    exact (start.append entries).append (by decide)
  | compute operation specifier operands =>
    obtain ⟨_, _, used⟩ := valid
    apply ((plain_operationWord operation specifier).drawn _).append
    split
    · exact forall_mem_nil _
    · apply Drawn.cons (.inr (by decide))
      apply Drawn.listed (by decide) (by decide)
      intro part member
      obtain ⟨operand, mentioned, rfl⟩ := mem_map.mp member
      exact (plain_valueText (named operand (used operand mentioned))).drawn _

theorem literal_ne_nil (literal : Literal) : literal.text ≠ [] := by
  cases literal with
  | number value =>
    intro empty
    have read := integer?_literal value
    rw [empty] at read
    cases read
  | truth value => cases value <;> decide

theorem trimmed_expression {expression : Expression} {known : List String}
    (valid : expression.Valid known format) (named : ∀ name ∈ known, IsName name) :
    expression.text ≠ [] ∧ Trimmed expression.text := by
  cases expression with
  | constant value =>
    have start : Trimmed "const".toList := .of_forall (by decide)
    have joined := start.join (by decide) [' '] (plain_literal value).trimmed
      (literal_ne_nil value)
    exact ⟨by simp [Expression.text, constantText], joined⟩
  | table entries =>
    have start : Trimmed "table [".toList := ⟨by decide, by decide⟩
    have close : Trimmed "]".toList := .of_forall (by decide)
    have joined := start.join (by decide) (listed (entries.map Literal.text)) close (by decide)
    exact ⟨append_ne_nil_of_right_ne_nil _ (by decide), joined⟩
  | compute operation specifier operands =>
    obtain ⟨_, _, used⟩ := valid
    have some : operationWord operation specifier ≠ [] :=
      append_ne_nil_of_left_ne_nil (by cases operation <;> decide) _
    have word := (plain_operationWord operation specifier).trimmed
    refine ⟨append_ne_nil_of_left_ne_nil some _, ?_⟩
    change Trimmed (operationText operation specifier operands)
    unfold operationText
    split
    · rw [append_nil]
      exact word
    · rename_i applied
      have full : ∀ part ∈ operands.map valueText, part ≠ [] := by
        intro part member
        obtain ⟨operand, _, rfl⟩ := mem_map.mp member
        exact cons_ne_nil _ _
      have trimmed : Trimmed (listed (operands.map valueText)) := by
        apply trimmed_listed _ full
        intro part member
        obtain ⟨operand, mentioned, rfl⟩ := mem_map.mp member
        exact (plain_valueText (named operand (used operand mentioned))).trimmed
      have joined := word.join some [' '] trimmed (listed_ne_nil (by simpa using applied) full)
      simpa using joined

end Source

end Retarget
