import Retarget.Template.Instance

/-!
# Instances of templates in related surroundings

What instantiation asks of its surroundings is put together by sequences alone. So where two kinds
of surroundings answer in a way that is kept by sequences, all instances of templates are related in
that way too.
-/

namespace Retarget

variable {m n : Type → Type} [Monad m] [MonadExceptOf Fault m] [Monad n] [MonadExceptOf Fault n]

/-- A relation between actions that sequences and faults keep. -/
structure Sequential (related : ∀ ⦃α : Type⦄, m α → n α → Prop) : Prop where
  pure : ∀ {α : Type} (value : α), related (pure value : m α) (pure value)
  throw : ∀ {α : Type} (fault : Fault), related (throw fault : m α) (throw fault)
  bind : ∀ {α β : Type} {first : m α} {second : n α} {next : α → m β} {next' : α → n β},
    related first second → (∀ value, related (next value) (next' value)) →
    related (first >>= next) (second >>= next')

/-- Two kinds of surroundings whose answers are related. -/
structure Surroundings.Related (related : ∀ ⦃α : Type⦄, m α → n α → Prop)
    (left : Surroundings m) (right : Surroundings n) : Prop where
  requireHeader : ∀ header, related (left.requireHeader header) (right.requireHeader header)
  requireLibrary : ∀ library, related (left.requireLibrary library) (right.requireLibrary library)
  materialize : ∀ code format,
    related (left.materialize code format) (right.materialize code format)
  typeName : left.typeName = right.typeName

section Related

variable {related : ∀ ⦃α : Type⦄, m α → n α → Prop} {left : Surroundings m}
  {right : Surroundings n}

namespace Sequential

theorem liftExcept (sequential : Sequential related) {α : Type} (result : Except Fault α) :
    related (liftExcept result : m α) (liftExcept result) := by
  cases result with
  | ok value => exact sequential.pure value
  | error fault => exact sequential.throw fault

theorem forM (sequential : Sequential related) {α : Type} {action : α → m PUnit}
    {action' : α → n PUnit} (each : ∀ value, related (action value) (action' value))
    (values : List α) : related (values.forM action) (values.forM action') := by
  induction values with
  | nil => exact sequential.pure _
  | cons value rest ih => exact sequential.bind (each value) fun _ => ih

end Sequential

section

variable (sequential : Sequential related) (answers : Surroundings.Related related left right)
  (form : Form)

include sequential answers

theorem Form.require_related : related (form.require left) (form.require right) :=
  sequential.bind (sequential.forM answers.requireHeader form.headers) fun _ =>
    sequential.forM answers.requireLibrary form.libraries

theorem Form.finish_related (arguments : List String) (result : Option String) (format : Format) :
    related (form.finish left arguments result format)
      (form.finish right arguments result format) := by
  unfold finish
  rw [answers.typeName]
  refine sequential.bind (sequential.liftExcept _) fun code => ?_
  by_cases stored : (form.materialized && !form.writesResult) = true
  · simp only [stored, ↓reduceIte]
    exact answers.materialize code _
  · simp only [stored]
    exact sequential.pure code

variable (operands : List String) (result : Option String)

include operands result

set_option linter.unusedSectionVars false in
mutual

theorem Template.instantiate_related (format : Format) : (template : Template) →
    related (template.instantiate left operands result format)
      (template.instantiate right operands result format)
  | .plain form => by
    unfold Template.instantiate
    exact sequential.bind (form.require_related sequential answers) fun _ =>
      form.finish_related sequential answers operands result format
  | .applied form arguments => by
    unfold Template.instantiate
    exact sequential.bind (form.require_related sequential answers) fun _ =>
      sequential.bind (expandAll_related arguments)
        fun codes => form.finish_related sequential answers codes result format

theorem expandAll_related : (arguments : List TemplateArgument) →
    related (expandAll left operands result arguments) (expandAll right operands result arguments)
  | [] => by
    unfold expandAll
    exact sequential.pure []
  | argument :: rest => by
    unfold expandAll
    exact sequential.bind (expand_related argument) fun code =>
      sequential.bind (expandAll_related rest) fun codes =>
        sequential.pure (code :: codes)

theorem expand_related : (argument : TemplateArgument) →
    related (expand left operands result argument) (expand right operands result argument)
  | .operand index => by
    unfold expand
    exact sequential.liftExcept _
  | .result => by
    unfold expand
    exact sequential.liftExcept _
  | .literal text => by
    unfold expand
    exact sequential.pure text
  | .nested template => by
    unfold expand
    exact Template.instantiate_related _ template

end

end

end Related

end Retarget
