import Retarget.Proofs.Number.Numeral
import Retarget.Template.Pattern

/-!
# Patterns written from segments

A pattern may be written from a list of segments: literal texts, with every brace twice, and places
with their keys between braces. Filling it gives back the texts and the values of the places in
order, whatever braces meet where two segments do (`Filling.fill_pattern`).
-/

namespace Retarget

open List

/-- A part of a pattern: text as it stands, or a place. -/
inductive Segment where
  | literal (text : String)
  | operand (index : UInt64)
  | result
  | typeName
  | width

namespace Segment

/-- A character of a literal text as it is written in a pattern. -/
def escaped (c : Char) : List Char :=
  if c = '\x7b' ∨ c = '\x7d' then [c, c] else [c]

/-- A place with its key. -/
def place (key : List Char) : List Char :=
  '\x7b' :: key ++ ['\x7d']

/-- A segment as it is written in a pattern. -/
def written : Segment → List Char
  | .literal text => text.toList.flatMap escaped
  | .operand index => place (Nat.toDigits 10 index.toNat)
  | .result => place ['r']
  | .typeName => place ['t']
  | .width => place ['w']

/-- The pattern of some segments. -/
def pattern (segments : List Segment) : String :=
  String.ofList (segments.flatMap written)

end Segment

namespace Filling

/-- Whether there is something to put in the place of a segment. -/
def Supplies (filling : Filling) : Segment → Prop
  | .operand index => index.toNat < filling.operands.length
  | .result => filling.result.isSome
  | .literal _ | .typeName | .width => True

/-- What a segment stands for. -/
def value (filling : Filling) : Segment → String
  | .literal text => text
  | .operand index => filling.operands.getD index.toNat ""
  | .result => filling.result.getD ""
  | .typeName => filling.typeName
  | .width => toString filling.width

variable (filling : Filling) (pattern : String)

theorem fillFrom_escaped (c : Char) (rest : List Char) :
    filling.fillFrom pattern .text (Segment.escaped c ++ rest) =
      (filling.fillFrom pattern .text rest).map (c :: ·) := by
  unfold Segment.escaped
  by_cases opening : c = '\x7b'
  · simp [opening, fillFrom]
  by_cases closing : c = '\x7d'
  · simp [closing, fillFrom]
  · simp [opening, closing, fillFrom]

/-- A literal text is read up to its end, whatever comes after it. -/
theorem fillFrom_literal (text rest : List Char) :
    filling.fillFrom pattern .text (text.flatMap Segment.escaped ++ rest) =
      (filling.fillFrom pattern .text rest).map (text ++ ·) := by
  induction text with
  | nil => cases outcome : filling.fillFrom pattern .text rest <;> simp [outcome, Except.map]
  | cons c text ih =>
    rw [flatMap_cons, append_assoc, fillFrom_escaped, ih]
    cases filling.fillFrom pattern .text rest <;> rfl

theorem fillFrom_key {key : List Char} (plain : '\x7d' ∉ key) (front rest : List Char) :
    filling.fillFrom pattern (.key front) (key ++ '\x7d' :: rest) = (do
      let code ← filling.place (front.reverse ++ key)
      let text ← filling.fillFrom pattern .text rest
      pure (code.toList ++ text)) := by
  induction key generalizing front with
  | nil => simp [fillFrom]
  | cons c key ih =>
    rw [mem_cons, not_or] at plain
    rw [cons_append, fillFrom, if_neg (Ne.symm plain.1), ih plain.2]
    simp

/-- A place is read up to the brace that closes it, whatever comes after it. -/
theorem fillFrom_place {c : Char} {key : List Char} (opening : c ≠ '\x7b')
    (plain : '\x7d' ∉ c :: key) (rest : List Char) :
    filling.fillFrom pattern .text (Segment.place (c :: key) ++ rest) = (do
      let code ← filling.place (c :: key)
      let text ← filling.fillFrom pattern .text rest
      pure (code.toList ++ text)) := by
  rw [mem_cons, not_or] at plain
  have inside := filling.fillFrom_key pattern plain.2 [c] rest
  simpa [Segment.place, fillFrom, opening, Ne.symm plain.1] using inside

/-- A numeral is the key of an operand. -/
theorem place_toDigits (index : UInt64) :
    filling.place (Nat.toDigits 10 index.toNat) = filling.operand index.toNat := by
  have apart {c : Char} (letter : c.isDigit = false) : Nat.toDigits 10 index.toNat ≠ [c] := by
    intro same
    have digit : c.isDigit = true :=
      Number.isDigit_of_mem_toDigits (same ▸ mem_singleton_self c)
    rw [letter] at digit
    cases digit
  unfold place
  rw [if_neg (apart rfl), if_neg (apart rfl), if_neg (apart rfl),
    Number.below?_toDigits index.toNat_lt]

/-- What a segment stands for, or why there is nothing to put in its place. -/
def supply : Segment → Except Fault String
  | .literal text => .ok text
  | .operand index => filling.operand index.toNat
  | .result => filling.resultName
  | .typeName => .ok filling.typeName
  | .width => .ok (toString filling.width)

/-- A segment is read up to its end, whatever comes after it. -/
theorem fillFrom_written (segment : Segment) (rest : List Char) :
    filling.fillFrom pattern .text (segment.written ++ rest) = (do
      let code ← filling.supply segment
      let text ← filling.fillFrom pattern .text rest
      pure (code.toList ++ text)) := by
  cases segment with
  | literal text =>
    rw [Segment.written, fillFrom_literal]
    cases filling.fillFrom pattern .text rest <;> rfl
  | operand index =>
    obtain ⟨c, digits, spelled, digit⟩ := Number.exists_digit index.toNat
    have apart {brace : Char} (other : brace.isDigit = false) : brace ∉ c :: digits := by
      intro member
      rw [← spelled] at member
      rw [Number.isDigit_of_mem_toDigits member] at other
      cases other
    have opening : c ≠ '\x7b' := by
      rintro rfl
      cases digit
    rw [supply, ← place_toDigits, Segment.written, spelled]
    exact filling.fillFrom_place pattern opening (apart rfl) rest
  | result => exact filling.fillFrom_place pattern (by decide) (by decide) rest
  | typeName => exact filling.fillFrom_place pattern (by decide) (by decide) rest
  | width => exact filling.fillFrom_place pattern (by decide) (by decide) rest

variable {filling} {segment : Segment}

theorem supply_of_supplies (supplied : filling.Supplies segment) :
    filling.supply segment = .ok (filling.value segment) := by
  cases segment with
  | literal | typeName | width => rfl
  | operand index =>
    have inside : index.toNat < filling.operands.length := supplied
    simp [supply, value, Filling.operand, inside]
  | result =>
    obtain ⟨name, named⟩ := Option.isSome_iff_exists.mp supplied
    simp [supply, value, resultName, named]

theorem exists_supply_eq_error (missing : ¬ filling.Supplies segment) :
    ∃ cause, filling.supply segment = .error (.template cause) := by
  cases segment with
  | literal | typeName | width => exact absurd trivial missing
  | operand index =>
    have outside : filling.operands.length ≤ index.toNat := Nat.le_of_not_lt missing
    exact ⟨_, by rw [supply, Filling.operand, getElem?_eq_none outside]⟩
  | result =>
    have unnamed : filling.result = none := Option.not_isSome_iff_eq_none.mp missing
    exact ⟨_, by rw [supply, resultName, unnamed]⟩

theorem fillFrom_segments {segments : List Segment}
    (supplied : ∀ segment ∈ segments, filling.Supplies segment) :
    filling.fillFrom pattern .text (segments.flatMap Segment.written) =
      .ok (segments.flatMap fun segment => (filling.value segment).toList) := by
  induction segments with
  | nil => rfl
  | cons segment rest ih =>
    obtain ⟨first, others⟩ := forall_mem_cons.mp supplied
    rw [flatMap_cons, fillFrom_written, supply_of_supplies first, ih others]
    rfl

theorem exists_fillFrom_eq_error {segments : List Segment}
    (missing : ∃ segment ∈ segments, ¬ filling.Supplies segment) :
    ∃ cause, filling.fillFrom pattern .text (segments.flatMap Segment.written) =
      .error (.template cause) := by
  induction segments with
  | nil =>
    obtain ⟨_, member, _⟩ := missing
    cases member
  | cons segment rest ih =>
    rw [flatMap_cons, fillFrom_written]
    by_cases first : filling.Supplies segment
    · obtain ⟨other, member, lacking⟩ := missing
      have later : other ∈ rest := by
        rcases mem_cons.mp member with rfl | later
        · exact absurd first lacking
        · exact later
      obtain ⟨cause, failed⟩ := ih ⟨other, later, lacking⟩
      exact ⟨cause, by rw [supply_of_supplies first, failed]; rfl⟩
    · obtain ⟨cause, failed⟩ := exists_supply_eq_error first
      exact ⟨cause, by rw [failed]; rfl⟩

/-- Filling a pattern that was written from segments gives their texts and values in order where
there is an operand or a result for every place that asks for one, and fails otherwise. -/
theorem fill_pattern (filling : Filling) (segments : List Segment) :
    ((∀ segment ∈ segments, filling.Supplies segment) →
      filling.fill (Segment.pattern segments) = .ok (String.join (segments.map filling.value))) ∧
    ((∃ segment ∈ segments, ¬ filling.Supplies segment) →
      ∃ cause, filling.fill (Segment.pattern segments) = .error (.template cause)) := by
  have letters : (Segment.pattern segments).toList = segments.flatMap Segment.written :=
    String.toList_ofList
  unfold fill
  rw [letters]
  constructor
  · intro supplied
    rw [fillFrom_segments _ supplied]
    refine congrArg Except.ok (String.toList_inj.mp ?_)
    simp [flatMap_map]
  · intro missing
    obtain ⟨cause, failed⟩ := exists_fillFrom_eq_error (Segment.pattern segments) missing
    exact ⟨cause, by rw [failed]; rfl⟩

end Filling
end Retarget
