import Retarget.Target.Basic

/-!
# Hardware

Operations on signals of logic vectors, as VHDL that can be synthesized.
-/

namespace Retarget.Hardware

open Format (Family)
open Rule (write)

/-- An operation on logic vectors, written by a template. -/
def logic (arity : Nat) (template : Template) : List Rule :=
  [write (.family .logic arity) template]

/-- A shift of a logic vector. -/
def shift (function : String) : List Rule :=
  logic 2 (.pattern
    ("std_logic_vector(" ++ function ++ "(unsigned({0}), to_integer(unsigned({1}))))"))

/-- A comparison of logic vectors. A conditional assignment is a statement, so its value lives in
a signal. -/
def comparison (operator : String) : List Rule :=
  [write ⟨Format.bool, [Family.logic, Family.logic]⟩
    (Template.pattern
      ("'1' when unsigned({0}) " ++ operator ++ " unsigned({1}) else '0'")).inTemporary]

def book : RuleBook :=
  .ofRules
    [(Operation.addition,
        logic 2 (.pattern "std_logic_vector(unsigned({0}) + unsigned({1}))")),
      (Operation.subtraction,
        logic 2 (.pattern "std_logic_vector(unsigned({0}) - unsigned({1}))")),
      (Operation.multiplication,
        logic 2 (.pattern "std_logic_vector(resize(unsigned({0}) * unsigned({1}), {w}))")),
      (Operation.negation, logic 1 (.pattern "std_logic_vector(-signed({0}))")),
      (Operation.bitAnd, logic 2 (.between "and")),
      (Operation.bitOr, logic 2 (.between "or")),
      (Operation.bitXor, logic 2 (.between "xor")),
      (Operation.bitNot, logic 1 (.before "not ")),
      (Operation.leftShift, shift "shift_left"),
      (Operation.rightShift, shift "shift_right"),
      (⟨.comparison, .less⟩, comparison "<"),
      (⟨.comparison, .lessOrEqual⟩, comparison "<="),
      (⟨.comparison, .equal⟩, comparison "="),
      (⟨.comparison, .notEqual⟩, comparison "/="),
      (⟨.comparison, .greater⟩, comparison ">"),
      (⟨.comparison, .greaterOrEqual⟩, comparison ">="),
      (Operation.select,
        [write ⟨Family.any, [Format.bool, Family.any, Family.any]⟩
          (Template.pattern "{1} when {0} = '1' else {2}").inTemporary]),
      (Operation.conversion, logic 1 (.pattern "std_logic_vector(resize(unsigned({0}), {w}))")),
      (Operation.tableLoad,
        [write ⟨Family.any, [Family.table, Family.logic]⟩
          (.pattern "{0}(to_integer(unsigned({1})))")])]

def target : Target :=
  TargetPlan.target
    { name := "vhdl"
      description := "Synthesizable VHDL on std_logic_vector signals"
      books := [(.vhdl, book)] }

end Retarget.Hardware
