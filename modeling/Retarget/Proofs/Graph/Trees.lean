import Mathlib.Data.List.Forall2
import Mathlib.Data.List.Perm.Subperm
import Retarget.Graph.Basic

/-!
# Trees of statements

The statements of a function form a tree, though the graph that holds them may share parts of it
(`Graph.statement?`). No node stands below itself in a finite tree, so a tree that is found at any
depth is found at a depth of the size of the graph.
-/

namespace Retarget

open List

/-- A tree of statements over the nodes of values. -/
inductive StatementTree where
  | value (id : NodeId)
  | result (id : NodeId)
  | sequence (parts : List StatementTree)
  | guarded (condition : NodeId) (body : StatementTree)
  | choice (condition : NodeId) (yes no : StatementTree)

namespace StatementTree

mutual

/-- The nodes of the values that a statement uses, in order. -/
def values : StatementTree → List NodeId
  | .value id => [id]
  | .result id => [id]
  | .sequence parts => valuesOf parts
  | .guarded condition body => condition :: body.values
  | .choice condition yes no => condition :: (yes.values ++ no.values)

/-- The nodes of the values that some statements use, in order. -/
def valuesOf : List StatementTree → List NodeId
  | [] => []
  | part :: rest => part.values ++ valuesOf rest

end

/-- The statement of a node whose parts are known. -/
inductive At (part? : NodeId → Option StatementTree) (id : NodeId) (node : Node) :
    StatementTree → Prop where
  | value (notSequence : node.operation ≠ .sequence) (notResult : node.operation ≠ .ret)
      (notCondition : node.operation ≠ .condition) : At part? id node (.value id)
  | result {returned : NodeId} {more : List NodeId} (operation : node.operation = .ret)
      (operands : node.operands = returned :: more) : At part? id node (.result returned)
  | sequence {parts : List StatementTree} (operation : node.operation = .sequence)
      (each : List.Forall₂ (fun operand part => part? operand = some part) node.operands parts) :
      At part? id node (.sequence parts)
  | guarded {condition side : NodeId} {body : StatementTree}
      (operation : node.operation = .condition) (operands : node.operands = [condition, side])
      (first : part? side = some body) : At part? id node (.guarded condition body)
  | choice {condition side other : NodeId} {yes no : StatementTree}
      (operation : node.operation = .condition)
      (operands : node.operands = [condition, side, other]) (first : part? side = some yes)
      (second : part? other = some no) : At part? id node (.choice condition yes no)

theorem At.mono {part? wider? : NodeId → Option StatementTree} {id : NodeId} {node : Node}
    {tree : StatementTree} (statement : At part? id node tree)
    (implies : ∀ id part, part? id = some part → wider? id = some part) :
    At wider? id node tree := by
  cases statement with
  | value notSequence notResult notCondition => exact .value notSequence notResult notCondition
  | result operation operands => exact .result operation operands
  | sequence operation each => exact .sequence operation (each.imp implies)
  | guarded operation operands first => exact .guarded operation operands (implies _ _ first)
  | choice operation operands first second =>
    exact .choice operation operands (implies _ _ first) (implies _ _ second)

end StatementTree

namespace Graph

/-- The statement at a node, where it is not nested beyond the given depth. -/
def statement? (graph : Graph) : Nat → NodeId → Option StatementTree
  | 0, _ => none
  | depth + 1, id =>
    if id < graph.size then
      match (graph.node id).operation with
      | .sequence =>
        ((graph.node id).operands.mapM (graph.statement? depth)).map .sequence
      | .ret => (graph.node id).operands.head?.map .result
      | .condition =>
        match (graph.node id).operands with
        | [condition, side] => (graph.statement? depth side).map (.guarded condition)
        | [condition, side, other] => do
          return .choice condition (← graph.statement? depth side)
            (← graph.statement? depth other)
        | _ => none
      | _ => some (.value id)
    else none

theorem mapM_eq_some {α β : Type} {give : α → Option β} {values : List α} {results : List β} :
    values.mapM give = some results ↔
      List.Forall₂ (fun value result => give value = some result) values results := by
  induction values generalizing results with
  | nil => simp [eq_comm]
  | cons value rest ih =>
    rw [mapM_cons]
    cases results with
    | nil => simp [Option.bind_eq_some_iff]
    | cons result others => simp [Option.bind_eq_some_iff, ih]

section

variable {graph : Graph} {depth : Nat} {id : NodeId} {tree : StatementTree}

theorem statement?_succ : graph.statement? (depth + 1) id = some tree ↔
    id < graph.size ∧ StatementTree.At (graph.statement? depth) id (graph.node id) tree := by
  unfold statement?
  split
  · rename_i inside
    constructor
    · intro found
      refine ⟨inside, ?_⟩
      split at found
      · rename_i operation
        obtain ⟨parts, each, rfl⟩ := Option.map_eq_some_iff.mp found
        exact .sequence operation (mapM_eq_some.mp each)
      · rename_i operation
        obtain ⟨returned, first, rfl⟩ := Option.map_eq_some_iff.mp found
        obtain ⟨more, operands⟩ := head?_eq_some_iff.mp first
        exact .result operation operands
      · rename_i operation
        split at found
        · rename_i operands
          obtain ⟨body, first, rfl⟩ := Option.map_eq_some_iff.mp found
          exact .guarded operation operands first
        · rename_i operands
          obtain ⟨yes, first, rest⟩ := Option.bind_eq_some_iff.mp found
          obtain ⟨no, second, made⟩ := Option.bind_eq_some_iff.mp rest
          cases made
          exact .choice operation operands first second
        · cases found
      · rename_i notSequence notResult notCondition
        cases found
        exact .value notSequence notResult notCondition
    · rintro ⟨_, statement⟩
      cases statement with
      | value notSequence notResult notCondition =>
        split
        · exact absurd ‹_› notSequence
        · exact absurd ‹_› notResult
        · exact absurd ‹_› notCondition
        · rfl
      | result operation operands =>
        rw [operation, operands]
        rfl
      | sequence operation each =>
        rw [operation]
        exact Option.map_eq_some_iff.mpr ⟨_, mapM_eq_some.mpr each, rfl⟩
      | guarded operation operands first =>
        rw [operation, operands]
        exact Option.map_eq_some_iff.mpr ⟨_, first, rfl⟩
      | choice operation operands first second =>
        rw [operation, operands]
        simp only [first, second]
        rfl
  · rename_i outside
    exact ⟨(nomatch ·), fun statement => absurd statement.1 outside⟩

theorem statement?_mono {larger : Nat} (deeper : depth ≤ larger)
    (found : graph.statement? depth id = some tree) : graph.statement? larger id = some tree := by
  induction depth generalizing larger id tree with
  | zero => cases found
  | succ depth ih =>
    cases larger with
    | zero => exact absurd deeper (Nat.not_succ_le_zero depth)
    | succ larger =>
      obtain ⟨inside, statement⟩ := statement?_succ.mp found
      refine statement?_succ.mpr ⟨inside, statement.mono fun _ _ known => ?_⟩
      exact ih (Nat.le_of_succ_le_succ deeper) known

/-- A way down from node to node is no longer than the graph is large: the nodes above a statement
are nested more deeply than the statement itself. -/
theorem statement?_below {path : List NodeId} (found : graph.statement? depth id = some tree)
    (distinct : path.Nodup) (inside : ∀ above ∈ path, above < graph.size)
    (deeper : ∀ above ∈ path, graph.statement? depth above = none) :
    graph.statement? (graph.size - path.length) id = some tree := by
  induction depth generalizing id tree path with
  | zero => cases found
  | succ depth ih =>
    have upward {above : NodeId} (member : above ∈ path) :
        graph.statement? depth above = none := by
      refine Option.eq_none_iff_forall_ne_some.mpr fun tree known => ?_
      have later := statement?_mono (Nat.le_succ depth) known
      rw [deeper above member] at later
      cases later
    -- Where the node is nested as deeply as it was assumed to be, it is new on the way down.
    cases earlier : graph.statement? depth id with
    | some other =>
      have same := statement?_mono (Nat.le_succ depth) earlier
      cases found.symm.trans same
      exact ih earlier distinct inside fun _ member => upward member
    | none =>
      obtain ⟨here, statement⟩ := statement?_succ.mp found
      have apart : id ∉ path := by
        intro member
        rw [deeper id member] at found
        cases found
      have longer : (id :: path).Nodup := nodup_cons.mpr ⟨apart, distinct⟩
      have within : ∀ above ∈ id :: path, above < graph.size :=
        forall_mem_cons.mpr ⟨here, inside⟩
      have room : path.length + 1 ≤ graph.size := by
        have fits := (longer.subperm fun above member =>
          mem_range.mpr (within above member)).length_le
        rwa [length_range] at fits
      have parts : ∀ part body, graph.statement? depth part = some body →
          graph.statement? (graph.size - (path.length + 1)) part = some body :=
        fun part body known => ih known longer within
          (forall_mem_cons.mpr ⟨earlier, fun _ member => upward member⟩)
      rw [show graph.size - path.length = graph.size - (path.length + 1) + 1 by omega]
      exact statement?_succ.mpr ⟨here, statement.mono parts⟩

/-- A statement that is found at any depth is found at a depth of the size of the graph. -/
theorem statement?_size (found : graph.statement? depth id = some tree) :
    graph.statement? graph.size id = some tree :=
  statement?_below found nodup_nil (fun _ => (not_mem_nil · |>.elim))
    fun _ => (not_mem_nil · |>.elim)

end

end Graph

end Retarget
