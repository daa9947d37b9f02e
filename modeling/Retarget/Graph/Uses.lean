import Retarget.Data.OrderedMap
import Retarget.Graph.Basic

/-!
# Uses of nodes

How often each node is used by the part of a graph that a root needs.
-/

namespace Retarget.Graph

/-- The number of uses of each node. -/
abbrev Uses := OrderedMap NodeId Nat

/-- Counts one more use of a node. -/
def countUse (uses : Uses) (id : NodeId) : Uses :=
  uses.insert id ((uses.get? id).getD 0 + 1)

/-- Counts the operands of every node waiting to be expanded, and of every node they lead to. A
node is expanded once. Every step but those for the first node takes an operand place of a node
expanded for the first time, which bounds the number of steps. -/
def expandUses (graph : Graph) : Nat → List NodeId → List NodeId → Uses → Uses
  | 0, _, _, uses => uses
  | _ + 1, [], _, uses => uses
  | steps + 1, id :: waiting, expanded, uses =>
    if id ∈ expanded then expandUses graph steps waiting expanded uses
    else
      let operands := (graph.node id).operands
      expandUses graph steps (operands.reverse ++ waiting) (id :: expanded)
        (operands.foldl countUse uses)

/-- How often each node reachable from `root` is used as an operand of a reachable node. The root
has one use more, by whoever asks. -/
def uses (graph : Graph) (root : NodeId) : Uses :=
  graph.expandUses (graph.operandCount + 2) [root] [] (OrderedMap.empty.insert root 1)

/-- Takes away one use of a node that has any. -/
def dropUse (uses : Uses) (id : NodeId) : Uses :=
  match uses.get? id with
  | some count => uses.insert id (count - 1)
  | none => uses

/-- Counts a use of a node, and puts the node in front of a list if it is the first one. -/
def countFirstUse (state : Uses × List NodeId) (id : NodeId) : Uses × List NodeId :=
  (countUse state.1 id, if state.1.contains id then state.2 else id :: state.2)

/-- Counts the operands of every waiting node, and of every node that is used for the first time.
Every step takes the operands of another node, which bounds the number of steps. -/
def countOperands (graph : Graph) : Nat → List NodeId → Uses → Uses
  | 0, _, uses => uses
  | _ + 1, [], uses => uses
  | steps + 1, id :: waiting, uses =>
    let (uses, waiting) := (graph.node id).operands.foldl countFirstUse (uses, waiting)
    countOperands graph steps waiting uses

/-- The uses after one node has taken the place of another: it gets the other's uses, the other no
longer uses its operands, and a node that nothing used before starts to use its own. -/
def moveUses (graph : Graph) (uses : Uses) (old new : NodeId) : Uses :=
  let count := (uses.get? old).getD 1
  let uses := (graph.node old).operands.foldl dropUse uses
  let known := uses.get? new
  let uses := uses.insert new (known.getD 0 + count)
  if known.isSome then uses else graph.countOperands (graph.operandCount + 2) [new] uses

end Retarget.Graph
