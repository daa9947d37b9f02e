import Retarget.Graph.Operation
import Retarget.Graph.Scalar

/-!
# Operation graphs

Nodes live in one array and refer to each other by their place in it, so that a shared value is a
place used more than once.
-/

namespace Retarget

/-- The place of a node in a graph. -/
abbrev NodeId := Nat

/-- What a leaf stands for. -/
inductive Payload where
  | none
  | constant (value : Scalar)
  | variable (name : String)
  | table (values : List Scalar)
deriving DecidableEq, Repr, Inhabited

/-- A node of an operation graph. -/
structure Node where
  operation : Operation
  specifier : Specifier := .plain
  operands : List NodeId := []
  format : Format
  /-- A name of the source text, used in messages and for temporaries. -/
  tag : Option String := none
  payload : Payload := .none
deriving DecidableEq, Repr

/-- The empty sequence of statements. -/
def Node.nothing : Node := { operation := .sequence, format := .void }

instance : Inhabited Node := ⟨Node.nothing⟩

/-- An operation graph. -/
structure Graph where
  nodes : Array Node := #[]
deriving DecidableEq, Repr, Inhabited

namespace Graph

def size (graph : Graph) : Nat := graph.nodes.size

/-- The node at a place, if there is one. -/
def node? (graph : Graph) (id : NodeId) : Option Node := graph.nodes[id]?

/-- The node at a place. A place outside of the graph stands for the empty sequence. -/
def node (graph : Graph) (id : NodeId) : Node := (graph.node? id).getD Node.nothing

/-- The graph with one more node, and its place. -/
def add (graph : Graph) (node : Node) : Graph × NodeId :=
  (⟨graph.nodes.push node⟩, graph.size)

/-- Changes the node at a place. -/
def modify (graph : Graph) (id : NodeId) (change : Node → Node) : Graph :=
  ⟨graph.nodes.modify id change⟩

def addConstant (graph : Graph) (value : Scalar) (format : Format) : Graph × NodeId :=
  graph.add { operation := .constant, format, payload := .constant value }

def addVariable (graph : Graph) (name : String) (format : Format) : Graph × NodeId :=
  graph.add { operation := .variable, format, payload := .variable name }

/-- Adds a table of values stored in the given format. -/
def addTable (graph : Graph) (values : List Scalar) (storage : Format) : Graph × NodeId :=
  graph.add
    { operation := .table, format := .table storage values.length, payload := .table values }

def addOperation (graph : Graph) (operation : Operation) (specifier : Specifier)
    (operands : List NodeId) (format : Format) : Graph × NodeId :=
  graph.add { operation, specifier, operands, format }

def setTag (graph : Graph) (id : NodeId) (tag : String) : Graph :=
  graph.modify id fun node => { node with tag := some tag }

def setOperands (graph : Graph) (id : NodeId) (operands : List NodeId) : Graph :=
  graph.modify id fun node => { node with operands }

def operandFormats (graph : Graph) (id : NodeId) : List Format :=
  (graph.node id).operands.map fun operand => (graph.node operand).format

/-- Gives the tag of one node to another that has none. -/
def shareTag (graph : Graph) (source destination : NodeId) : Graph :=
  if source = destination then graph
  else
    let tag := (graph.node source).tag
    graph.modify destination fun node => { node with tag := node.tag.or tag }

/-- The number of operand places in the graph. -/
def operandCount (graph : Graph) : Nat :=
  graph.nodes.foldl (fun total node => total + node.operands.length) 0

theorem node_of_size_le {graph : Graph} {id : NodeId} (outside : graph.size ≤ id) :
    graph.node id = Node.nothing := by
  have absent : graph.nodes[id]? = none := Array.getElem?_eq_none outside
  rw [node, node?, absent, Option.getD_none]

theorem lt_size_of_value {graph : Graph} {id : NodeId}
    (value : (graph.node id).operation.role = .value) : id < graph.size := by
  refine Nat.lt_of_not_le fun outside => ?_
  rw [node_of_size_le outside] at value
  cases value

theorem lt_size_of_payload {graph : Graph} {id : NodeId}
    (leaf : (graph.node id).payload ≠ .none) : id < graph.size := by
  refine Nat.lt_of_not_le fun outside => leaf ?_
  rw [node_of_size_le outside]
  rfl

@[simp]
theorem size_add (graph : Graph) (new : Node) : (graph.add new).1.size = graph.size + 1 :=
  Array.size_push new

/-- A node is added at the end and nowhere else. -/
theorem node_add (graph : Graph) (new : Node) (id : NodeId) :
    (graph.add new).1.node id = if id = graph.size then new else graph.node id := by
  simp only [node, node?, add, Array.getElem?_push]
  by_cases last : id = graph.size
  · have atEnd : id = graph.nodes.size := last
    rw [if_pos atEnd, if_pos last, Option.getD_some]
  · have before : ¬ id = graph.nodes.size := last
    rw [if_neg before, if_neg last]

@[simp]
theorem size_modify (graph : Graph) (target : NodeId) (change : Node → Node) :
    (graph.modify target change).size = graph.size :=
  Array.size_modify

/-- A change is seen at its place and nowhere else. -/
theorem node_modify (graph : Graph) (target id : NodeId) (change : Node → Node) :
    (graph.modify target change).node id =
      if id = target ∧ id < graph.size then change (graph.node id) else graph.node id := by
  simp only [node, node?, modify, Array.getElem?_modify]
  by_cases same : target = id
  · subst same
    by_cases inside : target < graph.size
    · have present : graph.nodes[target]? = some graph.nodes[target] :=
        Array.getElem?_eq_getElem inside
      simp only [present, if_true, Option.map_some, Option.getD_some, inside, and_self]
    · have absent : graph.nodes[target]? = none :=
        Array.getElem?_eq_none (Nat.le_of_not_lt inside)
      simp only [absent, if_true, Option.map_none, Option.getD_none, inside, and_false, if_false]
  · have apart : ¬ id = target := fun equal => same equal.symm
    simp only [same, if_false, apart, false_and]

end Graph

/-- An argument of a function. -/
structure Argument where
  name : String
  format : Format
  node : NodeId
  /-- The interval that the argument lies in, where one is promised. -/
  range : Option (Number.Double × Number.Double) := none
deriving DecidableEq, Repr

/-- A function over an operation graph. -/
structure Function where
  name : String
  arguments : List Argument
  result : Format
  body : NodeId
deriving DecidableEq, Repr

/-- A graph and the functions defined over it. -/
structure Program where
  graph : Graph := {}
  functions : List Function := []
deriving DecidableEq, Repr, Inhabited

end Retarget
