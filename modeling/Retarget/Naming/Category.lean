/-!
# Categories of declared names

Every declared name belongs to one category, and a scope keeps one table of names for each.
-/

namespace Retarget

/-- A kind of declared entity. -/
inductive Category where
  | function
  | component
  | constant
  | table
  | signal
  | variable
  | reserved
deriving DecidableEq, Repr, Inhabited

namespace Category

/-- All categories, in the order in which their declarations are written. -/
def all : List Category :=
  [.function, .component, .constant, .table, .signal, .variable, .reserved]

/-- The place of a category in that order. -/
def index : Category → Nat
  | .function => 0
  | .component => 1
  | .constant => 2
  | .table => 3
  | .signal => 4
  | .variable => 5
  | .reserved => 6

def name : Category → String
  | .function => "function"
  | .component => "component"
  | .constant => "constant"
  | .table => "table"
  | .signal => "signal"
  | .variable => "variable"
  | .reserved => "protected"

def ofName? (name : String) : Option Category :=
  all.find? fun category => category.name = name

end Category

end Retarget
