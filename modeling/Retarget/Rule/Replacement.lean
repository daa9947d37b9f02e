import Retarget.Rule.Book

/-!
# Guards and replacements

Conditions on nodes and ways to replace them that rule books are made of.
-/

namespace Retarget

open Number (Double)

namespace Guard

def tagged : Guard := fun graph id => (graph.node id).tag.isSome

/-- The second operand is a constant other than zero whose magnitude has a whole base-two
logarithm. -/
def powerOfTwoDivisor : Guard := fun graph id =>
  match (graph.node id).operands[1]? with
  | none => false
  | some divisor =>
    match (graph.node divisor).payload with
    | .constant (.float value) => value.hasWholeLogarithm
    | _ => false

end Guard

namespace Replacement

/-- An operand of a node, by its number. -/
def operandOf (graph : Graph) (id : NodeId) (index : Nat) : NodeId :=
  (graph.node id).operands[index]?.getD 0

/-- The node itself, which no rule may give. -/
def itself : Replacement := fun graph id => .ok (graph, id)

def firstOperand : Replacement := fun graph id => .ok (graph, operandOf graph id 0)

def zeroMinus : Replacement := fun graph id =>
  let format := (graph.node id).format
  let operand := operandOf graph id 0
  let (graph, minuend) := graph.addConstant (.int 0) format
  .ok (graph.addOperation .subtraction .plain [minuend, operand] format)

def square : Replacement := fun graph id =>
  let operand := operandOf graph id 0
  .ok (graph.addOperation .multiplication .plain [operand, operand] (graph.node id).format)

def failing : Replacement := fun _ _ => .error (.graph .replacementFailed)

/-- The reciprocal of a constant; what is no such constant is taken as one. -/
def reciprocalOf (payload : Payload) : Double :=
  match payload with
  | .constant (.float value) => value.reciprocal
  | _ => Double.ofInt 1

/-- A division as the product with the reciprocal of its constant divisor. -/
def timesReciprocal : Replacement := fun graph id =>
  let format := (graph.node id).format
  let dividend := operandOf graph id 0
  let divisor := graph.node (operandOf graph id 1)
  let (graph, constant) :=
    graph.addConstant (.float (reciprocalOf divisor.payload)) divisor.format
  .ok (graph.addOperation .multiplication .plain [dividend, constant] format)

/-- The one of two operands for which a comparison holds, the second one if it does not hold. -/
def chooseBy (predicate : Specifier) : Replacement := fun graph id =>
  let format := (graph.node id).format
  let first := operandOf graph id 0
  let second := operandOf graph id 1
  let (graph, comparison) := graph.addOperation .comparison predicate [first, second] .bool
  .ok (graph.addOperation .select .plain [comparison, first, second] format)

end Replacement

end Retarget
