import Retarget.Proofs.State.Ending
import Retarget.Template.Instance

/-!
# Templates that fit their operands

Whether a template has an instance depends on the number of operands and on whether there is a name
for the result, and on nothing else. A template fits where it has an instance over blank operands;
then it has one over any operands, in any surroundings that answer what it asks for.
-/

namespace Retarget

theorem Except.isOk_map {ε α β : Type} (change : α → β) (result : Except ε α) :
    (result.map change).isOk = result.isOk := by
  cases result <;> rfl

theorem Except.isOk_bind_bind {ε α β γ : Type} (first : Except ε α) (second : Except ε β)
    (combine : α → β → γ) :
    (do let left ← first; let right ← second; pure (combine left right) : Except ε γ).isOk =
      (first.isOk && second.isOk) := by
  cases first <;> cases second <;> rfl

theorem Except.exists_of_isOk {ε α : Type} {result : Except ε α} (done : result.isOk = true) :
    ∃ value, result = .ok value := by
  cases result with
  | ok value => exact ⟨value, rfl⟩
  | error fault => cases done

namespace Filling

/-- A filling of a number of blank operands, with a blank name for the result or with none. -/
def blank (count : Nat) (stored : Bool) : Filling where
  operands := List.replicate count ""
  result := if stored then some "" else none
  typeName := ""
  width := 0

/-- A filling has something in the same places as a blank one. -/
structure Fits (filling : Filling) (count : Nat) (stored : Bool) : Prop where
  operands : filling.operands.length = count
  result : filling.result.isSome = stored

variable {filling : Filling} {count : Nat} {stored : Bool} (fits : filling.Fits count stored)

include fits

theorem isOk_operand (index : Nat) :
    (filling.operand index).isOk = ((blank count stored).operand index).isOk := by
  have length := fits.operands
  unfold operand blank
  by_cases inside : index < count
  · have here : index < filling.operands.length := by omega
    simp [here, inside, Except.isOk, Except.toBool]
  · have outside : filling.operands.length ≤ index := by omega
    simp [outside, inside, Except.isOk, Except.toBool]

theorem isOk_resultName :
    filling.resultName.isOk = (blank count stored).resultName.isOk := by
  have named := fits.result
  unfold resultName blank
  cases result : filling.result <;> rw [result] at named <;> subst named <;> rfl

theorem isOk_place (key : List Char) :
    (filling.place key).isOk = ((blank count stored).place key).isOk := by
  unfold place
  split
  · exact isOk_resultName fits
  split
  · rfl
  split
  · rfl
  split
  · exact isOk_operand fits _
  · rfl

/-- A pattern is filled or not whatever the operands are. -/
theorem isOk_fillFrom (pattern : String) (rest : List Char) (state : PatternState) :
    (filling.fillFrom pattern state rest).isOk =
      ((blank count stored).fillFrom pattern state rest).isOk := by
  induction rest generalizing state with
  | nil => cases state <;> rfl
  | cons c rest ih =>
    cases state with
    | text =>
      simp only [fillFrom]
      split
      · exact ih _
      split
      · exact ih _
      · rw [Except.isOk_map, Except.isOk_map, ih]
    | closed =>
      simp only [fillFrom]
      split
      · rw [Except.isOk_map, Except.isOk_map, ih]
      split
      · rw [Except.isOk_map, Except.isOk_map, ih]
      · rw [Except.isOk_map, Except.isOk_map, ih]
    | opened =>
      simp only [fillFrom]
      split
      · rw [Except.isOk_map, Except.isOk_map, ih]
      split
      · rw [Except.isOk_bind_bind, Except.isOk_bind_bind, isOk_place fits, ih]
      · exact ih _
    | key characters =>
      simp only [fillFrom]
      split
      · rw [Except.isOk_bind_bind, Except.isOk_bind_bind, isOk_place fits, ih]
      · exact ih _

end Filling

/-- Whether a shape has code over a number of arguments. -/
def Shape.fits (count : Nat) (stored : Bool) (shape : Shape) : Bool :=
  (shape.code (.blank count stored)).isOk

/-- A pattern fits by its letters. -/
theorem Shape.fits_pattern {text : String} {letters : List Char} (spelled : text.toList = letters)
    {count : Nat} {stored : Bool}
    (filled : ((Filling.blank count stored).fillFrom text .text letters).isOk = true) :
    (Shape.pattern text).fits count stored = true := by
  rw [Shape.fits, Shape.code, Filling.fill, Except.isOk_map, spelled, filled]

theorem Shape.exists_code {shape : Shape} (filling : Filling) {count : Nat} {stored : Bool}
    (fits : filling.Fits count stored) (fitting : shape.fits count stored = true) :
    ∃ code, shape.code filling = .ok code := by
  have length := fits.operands
  apply Except.exists_of_isOk
  rw [← fitting]
  unfold Shape.fits Shape.code
  cases shape with
  | call function => rfl
  | between operator =>
    have blank : (Filling.blank count stored).operands.length = filling.operands.length := by
      simp [Filling.blank, length]
    dsimp only
    rw [blank]
    split <;> rfl
  | before sign =>
    match filling, length with
    | ⟨[], _, _, _⟩, rfl => rfl
    | ⟨[_], _, _, _⟩, rfl => rfl
    | ⟨_ :: _ :: _, _, _, _⟩, rfl => rfl
  | pattern text =>
    dsimp only [Filling.fill]
    rw [Except.isOk_map, Except.isOk_map]
    exact Filling.isOk_fillFrom fits text text.toList .text

mutual

/-- Whether a template has an instance over a number of operands. -/
def Template.fits (count : Nat) (stored : Bool) : Template → Bool
  | .plain form => form.shape.fits count stored
  | .applied form arguments =>
    argumentsFit count stored arguments && form.shape.fits arguments.length stored

/-- Whether all arguments of a template have code over a number of operands. -/
def argumentsFit (count : Nat) (stored : Bool) : List TemplateArgument → Bool
  | [] => true
  | argument :: rest => argument.fits count stored && argumentsFit count stored rest

/-- Whether an argument of a template has code over a number of operands. -/
def TemplateArgument.fits (count : Nat) (stored : Bool) : TemplateArgument → Bool
  | .operand index => index < count
  | .result => stored
  | .literal _ => true
  | .nested template => template.fits count stored

end

section Instances

variable {σ : Type} {expected : Fault → Prop} {surroundings : Surroundings (EStateM Fault σ)}
  {holds : σ → Prop}

/-- The surroundings answer every request, or fail as expected, and keep a property. -/
structure Surroundings.Answer (expected : Fault → Prop) (holds : σ → Prop)
    (surroundings : Surroundings (EStateM Fault σ)) : Prop where
  requireHeader : ∀ header state, holds state →
    Ends expected (surroundings.requireHeader header) state fun _ after => holds after
  requireLibrary : ∀ library state, holds state →
    Ends expected (surroundings.requireLibrary library) state fun _ after => holds after
  materialize : ∀ code format state, holds state →
    Ends expected (surroundings.materialize code format) state fun _ after => holds after

variable {operands : List String} {result : Option String}
  (answer : surroundings.Answer expected holds)

include answer

theorem Form.require_ends (form : Form) {state : σ}
    (held : holds state) :
    Ends expected (form.require surroundings) state fun _ after => holds after := by
  refine (EndsIn.forM_of_mem (fun header _ => answer.requireHeader header) held).bind ?_
  exact fun _ _ kept => .forM_of_mem (fun library _ => answer.requireLibrary library) kept

theorem Form.finish_ends {form : Form} {arguments : List String} (format : Format) {state : σ}
    (fitting : form.shape.fits arguments.length result.isSome = true) (held : holds state) :
    Ends expected (form.finish surroundings arguments result format) state
      fun _ after => holds after := by
  obtain ⟨code, coded⟩ := Shape.exists_code
    ⟨arguments, result, surroundings.typeName format, format.width⟩ ⟨rfl, rfl⟩ fitting
  refine (EndsIn.liftExcept_of_eq_ok coded held :
    Ends expected _ state fun _ after => holds after).bind fun value middle kept => ?_
  split
  · exact answer.materialize value _ middle kept
  · exact .pure kept

set_option linter.unusedSectionVars false in
mutual

/-- A template that fits has an instance over any operands. -/
theorem Template.instantiate_ends (format : Format) {state : σ} (held : holds state) :
    (template : Template) →
    template.fits operands.length result.isSome = true →
    Ends expected (template.instantiate surroundings operands result format) state
      fun _ after => holds after
  | .plain form, fitting => by
    unfold Template.fits at fitting
    unfold Template.instantiate
    exact (form.require_ends answer held).bind fun _ middle kept =>
      Form.finish_ends answer format fitting kept
  | .applied form arguments, fitting => by
    unfold Template.fits at fitting
    obtain ⟨inner, outer⟩ := Bool.and_eq_true_iff.mp fitting
    unfold Template.instantiate
    refine (form.require_ends answer held).bind fun _ middle kept => ?_
    refine (expandAll_ends kept arguments inner).bind fun codes after ended => ?_
    rw [← ended.1] at outer
    exact Form.finish_ends answer format outer ended.2

theorem expandAll_ends {state : σ} (held : holds state) : (arguments : List TemplateArgument) →
    argumentsFit operands.length result.isSome arguments = true →
    Ends expected (expandAll surroundings operands result arguments) state
      fun codes after => codes.length = arguments.length ∧ holds after
  | [], _ => by
    unfold expandAll
    exact .pure ⟨rfl, held⟩
  | argument :: rest, fitting => by
    unfold argumentsFit at fitting
    obtain ⟨first, others⟩ := Bool.and_eq_true_iff.mp fitting
    unfold expandAll
    refine (expand_ends held argument first).bind fun code middle kept => ?_
    refine (expandAll_ends kept rest others).bind fun codes after ended => ?_
    exact .pure ⟨congrArg Nat.succ ended.1, ended.2⟩

theorem expand_ends {state : σ} (held : holds state) : (argument : TemplateArgument) →
    argument.fits operands.length result.isSome = true →
    Ends expected (expand surroundings operands result argument) state
      fun _ after => holds after
  | .operand index, fitting => by
    unfold TemplateArgument.fits at fitting
    have inside : index < operands.length := of_decide_eq_true fitting
    have found : Filling.operand ⟨operands, result, "", 0⟩ index = .ok operands[index] := by
      rw [Filling.operand, List.getElem?_eq_getElem inside]
    unfold expand
    exact .liftExcept_of_eq_ok found held
  | .result, fitting => by
    unfold TemplateArgument.fits at fitting
    obtain ⟨name, named⟩ := Option.isSome_iff_exists.mp fitting
    have found : Filling.resultName ⟨operands, result, "", 0⟩ = .ok name := by
      rw [Filling.resultName, named]
    unfold expand
    exact .liftExcept_of_eq_ok found held
  | .literal text, _ => by
    unfold expand
    exact .pure held
  | .nested template, fitting => by
    unfold TemplateArgument.fits at fitting
    unfold expand
    exact Template.instantiate_ends _ held template fitting

end

end Instances

end Retarget
