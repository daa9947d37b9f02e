import Retarget.Graph.Uses
import Retarget.Rule.Selection

/-!
# Register promotion

Vector formats are layouts in memory, while the rules of a target ask for its registers. Promotion
gives a register format to every node whose format has one, provided that some rule lowers the
node with it. Where a promoted node meets one that stays in memory, a conversion is added: a load
on the way in, a store on the way out.
-/

namespace Retarget

/-- The register format that takes the place of each format in memory. -/
abbrev Promotions := OrderedMap Format Format

namespace Promotions

/-- The format that takes the place of another one, which may be itself. -/
def apply (promotions : Promotions) (format : Format) : Format :=
  (promotions.get? format).getD format

end Promotions

/-- A graph under promotion, with the conversions added so far by the node they convert. -/
structure Promoting where
  graph : Graph
  loads : OrderedMap NodeId NodeId := OrderedMap.empty
  stores : OrderedMap NodeId NodeId := OrderedMap.empty

namespace Graph

/-- Whether a node takes a register format. Conversions are the boundaries and do not. -/
def isPromoted (graph : Graph) (promotions : Promotions) (book : RuleBook) (id : NodeId) : Bool :=
  let node := graph.node id
  node.operation.role = .value && node.operation ≠ .conversion &&
    match promotions.get? node.format with
    | some register =>
      book.lowers graph id register ((graph.operandFormats id).map promotions.apply)
    | none => false

end Graph

namespace Promoting

/-- The node that loads another one into a register, added when it is needed first. -/
def load (state : Promoting) (id : NodeId) (register : Format) : Promoting × NodeId :=
  match state.loads.get? id with
  | some load => (state, load)
  | none =>
    let (graph, load) := state.graph.addOperation .conversion .plain [id] register
    ({ state with graph, loads := state.loads.insert id load }, load)

/-- The node that stores another one to memory, added when it is needed first. -/
def store (state : Promoting) (id : NodeId) (format : Format) : Promoting × NodeId :=
  match state.stores.get? id with
  | some store => (state, store)
  | none =>
    let (graph, store) := state.graph.addOperation .conversion .plain [id] format
    ({ state with graph, stores := state.stores.insert id store }, store)

/-- What a node uses in place of an operand. -/
def convert (promotions : Promotions) (promoted : List NodeId) (inside : Bool)
    (state : Promoting) (operand : NodeId) : Promoting × NodeId :=
  let format := (state.graph.node operand).format
  if inside && operand ∉ promoted then
    match promotions.get? format with
    | some register => state.load operand register
    | none => (state, operand)
  else if !inside && operand ∈ promoted then state.store operand format
  else (state, operand)

/-- What a node uses in place of each of its operands. -/
def convertAll (promotions : Promotions) (promoted : List NodeId) (inside : Bool) :
    Promoting → List NodeId → Promoting × List NodeId
  | state, [] => (state, [])
  | state, operand :: rest =>
    let (state, operand) := convert promotions promoted inside state operand
    let (state, rest) := convertAll promotions promoted inside state rest
    (state, operand :: rest)

/-- Gives a node the operands it uses after promotion. -/
def rewire (promotions : Promotions) (promoted : List NodeId) (state : Promoting) (id : NodeId) :
    Promoting :=
  let (state, operands) :=
    convertAll promotions promoted (id ∈ promoted) state (state.graph.node id).operands
  { state with graph := state.graph.setOperands id operands }

end Promoting

namespace Graph

/-- Gives a node its register format. -/
def retype (promotions : Promotions) (graph : Graph) (id : NodeId) : Graph :=
  graph.modify id fun node => { node with format := promotions.apply node.format }

/-- The nodes reachable from a root, in ascending order. -/
def reachable (graph : Graph) (root : NodeId) : List NodeId :=
  (graph.uses root).keys.mergeSort

/-- Promotes the nodes reachable from a root, and counts the promoted ones. -/
def promote (graph : Graph) (root : NodeId) (promotions : Promotions) (book : RuleBook) :
    Graph × Nat :=
  if promotions.isEmpty then (graph, 0)
  else
    let reachable := graph.reachable root
    let promoted := reachable.filter (graph.isPromoted promotions book)
    if promoted.isEmpty then (graph, 0)
    else
      let state := reachable.foldl (Promoting.rewire promotions promoted) { graph }
      (promoted.foldl (retype promotions) state.graph, promoted.length)

end Graph

end Retarget
