import Retarget.Rule.Book

/-!
# Selection

The rule that lowers a node: the first one, in the order of the book, whose group applies and
whose signature accepts the node's formats.
-/

namespace Retarget

/-- How a node is lowered. -/
inductive Lowering where
  /-- By a template over its operands. -/
  | template (template : Template)
  /-- By lowering another node of the graph in its place. -/
  | replaced (graph : Graph) (id : NodeId)

namespace RuleBook

/-- The first applicable rule of a list of groups. -/
def find? (groups : List RuleGroup) (graph : Graph) (id : NodeId) (result : Format)
    (operands : List Format) : Option Rule :=
  groups.findSome? fun group =>
    if group.applies graph id then
      group.rules.find? fun rule => rule.signature.accepts result operands
    else none

/-- What the first applicable rule does with a node. -/
def select (book : RuleBook) (graph : Graph) (id : NodeId) : Except Fault Action :=
  let node := graph.node id
  let key : RuleKey := ⟨node.operation, node.specifier⟩
  if !book.hasOperation node.operation then
    .error (.unsupported node.operation none node.tag)
  else if !book.hasKey key then
    .error (.unsupported node.operation (some node.specifier) node.tag)
  else
    let operands := graph.operandFormats id
    match find? (book.groupsFor key) graph id node.format operands with
    | some rule => .ok rule.action
    | none =>
      .error (.noMatchingRule node.operation node.specifier operands node.format node.tag)

/-- Whether some rule would lower a node if it had the given formats. -/
def lowers (book : RuleBook) (graph : Graph) (id : NodeId) (result : Format)
    (operands : List Format) : Bool :=
  let node := graph.node id
  (find? (book.groupsFor ⟨node.operation, node.specifier⟩) graph id result operands).isSome

/-- Selects a rule and applies it if it replaces the node. The replacement inherits the node's tag
unless it has one. -/
def lower (book : RuleBook) (graph : Graph) (id : NodeId) : Except Fault Lowering := do
  match ← book.select graph id with
  | .template template => pure (.template template)
  | .replace replacement =>
    let (graph, new) ← replacement graph id
    if new = id then throw (.graph (.replacedByItself (graph.node id).operation))
    else pure (.replaced (graph.shareTag id new) new)

end RuleBook

end Retarget
