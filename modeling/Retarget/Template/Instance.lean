import Retarget.Template.Basic

/-!
# Instances of templates

The code of a template over the code of operands. Headers, libraries and temporaries are asked of
the surroundings, which may be a program under construction or a record of what was asked.
-/

namespace Retarget

/-- What the code of a template may ask of its surroundings. -/
structure Surroundings (m : Type → Type) where
  requireHeader : String → m Unit
  requireLibrary : String → m Unit
  /-- Stores code of a format in a new temporary and gives its name. -/
  materialize : String → Format → m String
  typeName : Format → String

variable {m : Type → Type} [Monad m] [MonadExceptOf Fault m]

/-- The code of a shape over the code of its arguments. -/
def Shape.code (shape : Shape) (filling : Filling) : Except Fault String :=
  let arguments := filling.operands
  match shape with
  | .call function => .ok (function ++ "(" ++ ", ".intercalate arguments ++ ")")
  | .between operator =>
    if arguments.length < 2 then
      .error (.template (.tooFewForOperator operator arguments.length))
    else .ok ("(" ++ (" " ++ operator ++ " ").intercalate arguments ++ ")")
  | .before sign =>
    match arguments with
    | [argument] => .ok ("(" ++ sign ++ argument ++ ")")
    | _ => .error (.template (.notOneForSign sign arguments.length))
  | .pattern text => filling.fill text

/-- Asks for the headers and the libraries of a form. -/
def Form.require (surroundings : Surroundings m) (form : Form) : m Unit := do
  form.headers.forM surroundings.requireHeader
  form.libraries.forM surroundings.requireLibrary

/-- The code of a form over the code of its arguments, in a temporary where the form asks for
one. -/
def Form.finish (surroundings : Surroundings m) (form : Form) (arguments : List String)
    (result : Option String) (format : Format) : m String := do
  let code ← liftExcept
    (form.shape.code ⟨arguments, result, surroundings.typeName format, format.width⟩)
  if form.materialized && !form.writesResult then
    surroundings.materialize code (form.output.getD format)
  else pure code

mutual

/-- The code of a template over the code of a node's operands. Needs are announced before the
arguments are instantiated, from left to right. -/
def Template.instantiate (surroundings : Surroundings m) (operands : List String)
    (result : Option String) (format : Format) : Template → m String
  | .plain form => do
    form.require surroundings
    form.finish surroundings operands result format
  | .applied form arguments => do
    form.require surroundings
    let arguments ← expandAll surroundings operands result arguments
    form.finish surroundings arguments result format

def expandAll (surroundings : Surroundings m) (operands : List String) (result : Option String) :
    List TemplateArgument → m (List String)
  | [] => pure []
  | argument :: rest => do
    let code ← expand surroundings operands result argument
    let codes ← expandAll surroundings operands result rest
    pure (code :: codes)

/-- The code of an argument. A nested template has no format unless it fixes one. -/
def expand (surroundings : Surroundings m) (operands : List String) (result : Option String) :
    TemplateArgument → m String
  | .operand index => liftExcept (Filling.operand ⟨operands, result, "", 0⟩ index)
  | .result => liftExcept (Filling.resultName ⟨operands, result, "", 0⟩)
  | .literal text => pure text
  | .nested template =>
    template.instantiate surroundings operands result (template.form.output.getD .void)

end

end Retarget
