import Retarget.Template.Pattern

/-!
# Templates

A template turns the code of a node's operands into the code of the node. Its arguments may be
templates over the same operands, which is how compound sequences of calls are written.
-/

namespace Retarget

/-- How the arguments of a template are put together. -/
inductive Shape where
  /-- A call of a function. -/
  | call (function : String)
  /-- An operator between at least two arguments. -/
  | between (operator : String)
  /-- A sign in front of one argument. -/
  | before (sign : String)
  /-- Text with places for the arguments. -/
  | pattern (text : String)
deriving DecidableEq, Repr, Inhabited

/-- What a template says apart from its arguments. -/
structure Form where
  shape : Shape
  headers : List String := []
  libraries : List String := []
  /-- The format of the value, where it is not the node's. -/
  output : Option Format := none
  /-- The value must live in a named temporary. -/
  materialized : Bool := false
  /-- The code is a statement that stores the value itself. -/
  writesResult : Bool := false
deriving DecidableEq, Repr, Inhabited

mutual

/-- A code template. -/
inductive Template where
  /-- Applied to the operands of the node. -/
  | plain (form : Form)
  /-- Applied to arguments of its own. -/
  | applied (form : Form) (arguments : List TemplateArgument)

inductive TemplateArgument where
  | operand (index : Nat)
  | result
  | literal (text : String)
  | nested (template : Template)

end

instance : Inhabited Template := ⟨.plain default⟩

namespace Template

/-- What the template says apart from its arguments. -/
def form : Template → Form
  | .plain form => form
  | .applied form _ => form

/-- Changes what the template says apart from its arguments. -/
def mapForm (change : Form → Form) : Template → Template
  | .plain form => .plain (change form)
  | .applied form arguments => .applied (change form) arguments

def call (function : String) : Template := .plain { shape := .call function }

def between (operator : String) : Template := .plain { shape := .between operator }

def before (sign : String) : Template := .plain { shape := .before sign }

def pattern (text : String) : Template := .plain { shape := .pattern text }

/-- The template applied to arguments of its own. -/
def withArguments (template : Template) (arguments : List TemplateArgument) : Template :=
  .applied template.form arguments

/-- The template applied to templates over the operands of the node. -/
def applyTo (template : Template) (arguments : List Template) : Template :=
  template.withArguments (arguments.map .nested)

def withHeader (template : Template) (header : String) : Template :=
  template.mapForm fun form => { form with headers := form.headers ++ [header] }

def withLibrary (template : Template) (library : String) : Template :=
  template.mapForm fun form => { form with libraries := form.libraries ++ [library] }

def withOutput (template : Template) (output : Format) : Template :=
  template.mapForm fun form => { form with output := some output }

def inTemporary (template : Template) : Template :=
  template.mapForm fun form => { form with materialized := true }

/-- Makes the code a statement that stores the value itself. -/
def storingResult (template : Template) : Template :=
  template.mapForm fun form => { form with writesResult := true }

end Template

end Retarget
