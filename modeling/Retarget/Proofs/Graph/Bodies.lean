import Retarget.Proofs.Rule.Orderly
import Retarget.Proofs.Rule.Promotion

/-!
# Bodies of functions

Values are finite trees of operations over leaves, with shared parts, and statements are finite
trees of sequences, conditionals and results over values. Both stay so while a graph grows, and
under promotion.
-/

namespace Retarget.Graph

open List

/-- A leaf that carries a value, or an operation over values. -/
inductive Value (graph : Graph) : NodeId → Prop where
  | leaf {id : NodeId} (role : (graph.node id).operation.role = .leaf)
      (carries : (graph.node id).payload ≠ .none) (bare : (graph.node id).operands = []) :
      Value graph id
  | computed {id : NodeId} (role : (graph.node id).operation.role = .value)
      (operands : ∀ operand ∈ (graph.node id).operands, Value graph operand) : Value graph id

/-- A sequence of statements, a result, or, where they are allowed, a conditional. The parts of a
statement stand before it. -/
inductive Statement (graph : Graph) (branches : Prop) : NodeId → Prop where
  | sequence {id : NodeId} (operation : (graph.node id).operation = .sequence)
      (inside : id < graph.size) (earlier : ∀ part ∈ (graph.node id).operands, part < id)
      (parts : ∀ part ∈ (graph.node id).operands, Statement graph branches part) :
      Statement graph branches id
  | result {id value : NodeId} (operation : (graph.node id).operation = .ret)
      (operands : (graph.node id).operands = [value]) (isValue : graph.Value value) :
      Statement graph branches id
  | condition {id value : NodeId} {sides : List NodeId} (allowed : branches)
      (operation : (graph.node id).operation = .condition)
      (operands : (graph.node id).operands = value :: sides)
      (few : sides.length = 1 ∨ sides.length = 2) (isValue : graph.Value value)
      (earlier : ∀ side ∈ sides, side < id)
      (parts : ∀ side ∈ sides, Statement graph branches side) : Statement graph branches id

section

variable {graph larger : Graph} {branches : Prop} {id operand : NodeId}

theorem Value.lt_size (value : graph.Value id) : id < graph.size := by
  refine Nat.lt_of_not_le fun outside => ?_
  have statement : (graph.node id).operation.role = .statement := by
    rw [node_of_size_le outside]
    rfl
  cases value with
  | leaf role _ _ | computed role _ => cases role.symm.trans statement

theorem Value.of_operand (value : graph.Value id) (uses : operand ∈ (graph.node id).operands) :
    graph.Value operand := by
  cases value with
  | leaf _ _ bare =>
    rw [bare] at uses
    cases uses
  | computed _ operands => exact operands operand uses

theorem Statement.role_eq (statement : graph.Statement branches id) :
    (graph.node id).operation.role = .statement := by
  cases statement with
  | sequence operation => rw [operation]; rfl
  | result operation => rw [operation]; rfl
  | condition _ operation => rw [operation]; rfl

theorem Statement.lt_size (statement : graph.Statement branches id) : id < graph.size := by
  have outside (apart : (graph.node id).operation ≠ .sequence) : id < graph.size := by
    refine Nat.lt_of_not_le fun beyond => apart ?_
    rw [node_of_size_le beyond]
    rfl
  cases statement with
  | sequence _ inside => exact inside
  | result operation => exact outside (by rw [operation]; decide)
  | condition _ operation => exact outside (by rw [operation]; decide)

/-! ## Growing graphs -/

theorem Grows.operation_eq (grows : graph.Grows larger) (inside : id < graph.size) :
    (larger.node id).operation = (graph.node id).operation := by
  obtain ⟨tag, same⟩ := grows.node id inside
  rw [same]

theorem Value.grows (grows : graph.Grows larger) (value : graph.Value id) : larger.Value id := by
  induction value with
  | @leaf id role carries bare =>
    have inside := (Value.leaf role carries bare).lt_size
    refine .leaf ?_ ?_ ?_
    · rw [grows.operation_eq inside]
      exact role
    · rw [grows.payload_eq inside]
      exact carries
    · rw [grows.operands_eq inside]
      exact bare
  | @computed id role operands ih =>
    have inside := (Value.computed role operands).lt_size
    refine .computed ?_ ?_
    · rw [grows.operation_eq inside]
      exact role
    · rw [grows.operands_eq inside]
      exact ih

theorem Statement.grows (grows : graph.Grows larger) (statement : graph.Statement branches id) :
    larger.Statement branches id := by
  induction statement with
  | @sequence id operation inside earlier parts ih =>
    refine .sequence ?_ (Nat.lt_of_lt_of_le inside grows.size) ?_ ?_
    · rw [grows.operation_eq inside]
      exact operation
    · rw [grows.operands_eq inside]
      exact earlier
    · rw [grows.operands_eq inside]
      exact ih
  | @result id value operation operands isValue =>
    have whole : graph.Statement branches id := .result operation operands isValue
    have inside := whole.lt_size
    refine .result ?_ ?_ (isValue.grows grows)
    · rw [grows.operation_eq inside]
      exact operation
    · rw [grows.operands_eq inside]
      exact operands
  | @condition id value sides allowed operation operands few isValue earlier parts ih =>
    have inside :=
      (Statement.condition allowed operation operands few isValue earlier parts).lt_size
    refine .condition allowed ?_ ?_ few (isValue.grows grows) earlier ih
    · rw [grows.operation_eq inside]
      exact operation
    · rw [grows.operands_eq inside]
      exact operands

theorem Grows.add (graph : Graph) (new : Node) : graph.Grows (graph.add new).1 := by
  refine ⟨?_, fun id inside => ⟨(graph.node id).tag, ?_⟩⟩
  · rw [size_add]
    exact Nat.le_succ _
  · rw [node_add_of_lt inside]

/-- The node just added. -/
theorem node_add_self (graph : Graph) (new : Node) : (graph.add new).1.node graph.size = new := by
  rw [node_add, if_pos rfl]

/-- Two nodes follow those of a graph. -/
structure Joins (graph larger : Graph) (first second : Node) : Prop where
  grows : graph.Grows larger
  size : larger.size = graph.size + 2
  inner : ∃ tag, larger.node graph.size = { first with tag }
  outer : ∃ tag, larger.node (graph.size + 1) = { second with tag }

theorem joins_shareTag (graph : Graph) (first second : Node) (id : NodeId) :
    graph.Joins (((graph.add first).1.add second).1.shareTag id (graph.size + 1)) first second := by
  have tagged := Grows.shareTag ((graph.add first).1.add second).1 id (graph.size + 1)
  have size : ((graph.add first).1.add second).1.size = graph.size + 2 := by
    rw [size_add, size_add]
  have inner : ((graph.add first).1.add second).1.node graph.size = first := by
    rw [node_add_of_lt (Nat.lt_of_lt_of_eq (Nat.lt_succ_self _) (size_add _ _).symm),
      node_add_self]
  have outer : ((graph.add first).1.add second).1.node (graph.size + 1) = second := by
    rw [node_add, if_pos (size_add graph first).symm]
  refine ⟨(Grows.add graph first).trans ((Grows.add _ second).trans tagged), ?_, ?_, ?_⟩
  · rw [← size]
    unfold shareTag
    split
    · rfl
    · exact size_modify _ _ _
  · have same := tagged.node graph.size (by omega)
    rw [inner] at same
    exact same
  · have same := tagged.node (graph.size + 1) (by omega)
    rw [outer] at same
    exact same

theorem Joins.eq_of_size_le {graph larger : Graph} {first second : Node} {id : NodeId}
    (joins : graph.Joins larger first second) (beyond : graph.size ≤ id) (inside : id < larger.size) :
    id = graph.size ∨ id = graph.size + 1 := by
  rw [joins.size] at inside
  rcases Nat.lt_or_eq_of_le (Nat.le_of_lt_succ inside) with before | last
  · exact .inl (Nat.le_antisymm (Nat.le_of_lt_succ before) beyond)
  · exact .inr last

/-- Some node is a conditional. -/
def Branches (graph : Graph) : Prop :=
  ∃ id, (graph.node id).operation = .condition

/-! ## Reachable nodes -/

theorem Value.acc (value : graph.Value id) :
    Acc (fun operand user => graph.Operand user operand) id := by
  induction value with
  | leaf _ _ bare =>
    refine .intro _ fun operand uses => ?_
    rw [Operand, bare] at uses
    cases uses
  | computed _ _ ih => exact .intro _ ih

/-- No value is on the way to itself. -/
theorem Value.not_reaches (value : graph.Value id) (uses : operand ∈ (graph.node id).operands) :
    ¬ graph.Reaches operand id := by
  have irreflexive : ∀ {place : NodeId},
      Acc (Relation.TransGen fun operand user => graph.Operand user operand) place →
      ¬ Relation.TransGen (fun operand user => graph.Operand user operand) place place := by
    intro place accessible
    induction accessible with
    | intro place _ ih => exact fun cycle => ih place cycle cycle
  intro back
  apply irreflexive value.acc.transGen
  exact Relation.transGen_swap.mp (Relation.TransGen.head' uses back)

theorem Statement.reaches (statement : graph.Statement branches id) {other : NodeId}
    (reached : graph.Reaches id other) : graph.Statement branches other ∨ graph.Value other := by
  induction reached with
  | refl => exact .inl statement
  | @tail middle last _ uses ih =>
    rcases ih with inner | value
    · cases inner with
      | sequence _ _ _ parts => exact .inl (parts last uses)
      | result _ operands isValue =>
        rw [Operand, operands] at uses
        rw [mem_singleton.mp uses]
        exact .inr isValue
      | condition _ _ operands _ isValue _ parts =>
        rw [Operand, operands] at uses
        rcases mem_cons.mp uses with rfl | side
        · exact .inr isValue
        · exact .inl (parts last side)
    · exact .inr (value.of_operand uses)

/-- Everything that a statement reaches is in the graph. -/
theorem Statement.grounded (statement : graph.Statement branches id) (other : NodeId)
    (reached : graph.Reaches id other) : other < graph.size := by
  rcases statement.reaches reached with inner | value
  · exact inner.lt_size
  · exact value.lt_size

end

/-! ## Promotion -/

section Promotion

variable {before after : Graph} {promotions : Promotions} {promoted : List NodeId} {root : NodeId}
  {state : Promoting} {branches : Prop} {id : NodeId}

/-- Promotion changes nothing, or it rewires what the root reaches around some computed values. -/
theorem promote_cases (graph : Graph) (root : NodeId) (promotions : Promotions) (book : RuleBook)
    (grounded : ∀ id, graph.Reaches root id → id < graph.size) :
    (graph.promote root promotions book).1 = graph ∨
      ∃ promoted state,
        Rewired graph (graph.promote root promotions book).1 promotions promoted root state ∧
        ∀ id ∈ promoted, (graph.node id).operation.role = .value := by
  rcases promote_rewires graph root promotions book grounded rfl with
    ⟨_, unchanged⟩ | ⟨state, rewired, _⟩
  · exact .inl (by rw [unchanged])
  · refine .inr ⟨_, state, rewired, fun id member => ?_⟩
    have chosen := (mem_filter.mp member).2
    simp only [isPromoted, Bool.and_eq_true, decide_eq_true_eq] at chosen
    exact chosen.1.1

/-- An operand is kept, or a conversion of it stands in for it. -/
def StandsIn (after : Graph) (operand new : NodeId) : Prop :=
  new = operand ∨ ∃ format, after.node new = .conversionOf operand format

/-- What stands in for a value is a value. -/
theorem Value.of_standsIn {operand new : NodeId} (value : after.Value operand)
    (standsIn : StandsIn after operand new) : after.Value new := by
  rcases standsIn with rfl | ⟨format, node⟩
  · exact value
  · refine .computed ?_ ?_
    · rw [node]
      rfl
    · intro source uses
      rw [node] at uses
      rw [mem_singleton.mp uses]
      exact value

theorem eq_of_forall₂_kept {old new : List NodeId}
    (kept : List.Forall₂ (fun operand new => operand ∉ promoted → new = operand) old new)
    (away : ∀ operand ∈ old, operand ∉ promoted) : new = old := by
  induction kept with
  | nil => rfl
  | cons here _ ih =>
    obtain ⟨first, others⟩ := forall_mem_cons.mp away
    rw [here first, ih others]

namespace Rewired

variable (rewired : Rewired before after promotions promoted root state)
include rewired

theorem standsIn_of_replaces {inside : Bool} {operand new : NodeId}
    (replaces : Promoting.Replaces before promotions promoted state inside operand new) :
    StandsIn after operand new := by
  unfold Promoting.Replaces at replaces
  split at replaces
  · split at replaces
    · obtain ⟨added, _, _, _, register, _, node⟩ := rewired.rewiring.load operand new replaces
      exact .inr ⟨register, (rewired.node_of_size_le added).trans node⟩
    · exact .inl replaces
  · split at replaces
    · obtain ⟨added, _, _, _, node⟩ := rewired.rewiring.store operand new replaces
      exact .inr ⟨_, (rewired.node_of_size_le added).trans node⟩
    · exact .inl replaces

section

variable (inside : id < before.size)

include inside

theorem operation_eq : (after.node id).operation = (before.node id).operation :=
  (rewired.promotedTo.kept id inside).1

theorem payload_eq : (after.node id).payload = (before.node id).payload :=
  (rewired.promotedTo.kept id inside).2.2.2.1

/-- Each operand of a node is kept or converted. -/
theorem operands_standIn :
    List.Forall₂ (StandsIn after) (before.node id).operands (after.node id).operands := by
  by_cases reached : before.Reaches root id
  · exact (rewired.operands_replaced reached).imp fun _ _ both =>
      rewired.standsIn_of_replaces both.2
  · rw [rewired.promotedTo.untouched id inside reached]
    exact forall₂_same.mpr fun _ _ => .inl rfl

/-- A node that is not promoted keeps the operands that are not. -/
theorem operands_kept (outside : id ∉ promoted) :
    List.Forall₂ (fun operand new => operand ∉ promoted → new = operand)
      (before.node id).operands (after.node id).operands := by
  by_cases reached : before.Reaches root id
  · refine (rewired.operands_replaced reached).imp fun operand new both away => ?_
    have replaces := both.2
    unfold Promoting.Replaces at replaces
    simpa [outside, away] using replaces
  · rw [rewired.promotedTo.untouched id inside reached]
    exact forall₂_same.mpr fun _ _ _ => rfl

end

theorem value (value : before.Value id) : after.Value id := by
  induction value with
  | @leaf id role carries bare =>
    have inside := (Value.leaf role carries bare).lt_size
    have operands := rewired.operands_standIn inside
    refine .leaf ?_ ?_ ?_
    · rw [rewired.operation_eq inside]
      exact role
    · rw [rewired.payload_eq inside]
      exact carries
    · rw [bare] at operands
      exact forall₂_nil_left_iff.mp operands
  | @computed id role operands ih =>
    have inside := (Value.computed role operands).lt_size
    refine .computed ?_ ?_
    · rw [rewired.operation_eq inside]
      exact role
    · intro new uses
      obtain ⟨operand, known, standsIn⟩ :=
        exists_of_mem_forall₂ (rewired.operands_standIn inside) uses
      exact (ih operand known).of_standsIn standsIn

theorem statement (computed : ∀ id ∈ promoted, (before.node id).operation.role = .value)
    (statement : before.Statement branches id) : after.Statement branches id := by
  have away {part : NodeId} (inner : before.Statement branches part) : part ∉ promoted := by
    intro member
    have role := computed part member
    rw [inner.role_eq] at role
    cases role
  have larger := rewired.promotedTo.size_le
  induction statement with
  | @sequence id operation inside earlier parts ih =>
    have whole : before.Statement branches id := .sequence operation inside earlier parts
    have same : (after.node id).operands = (before.node id).operands :=
      eq_of_forall₂_kept (rewired.operands_kept inside (away whole))
        fun part member => away (parts part member)
    refine .sequence ?_ (Nat.lt_of_lt_of_le inside larger) ?_ ?_
    · rw [rewired.operation_eq inside]
      exact operation
    · rw [same]
      exact earlier
    · rw [same]
      exact ih
  | @result id value operation operands isValue =>
    have whole : before.Statement branches id := .result operation operands isValue
    have converted := rewired.operands_standIn whole.lt_size
    rw [operands, forall₂_cons_left_iff] at converted
    obtain ⟨new, rest, standsIn, none, listed⟩ := converted
    rw [forall₂_nil_left_iff.mp none] at listed
    refine .result ?_ listed ((rewired.value isValue).of_standsIn standsIn)
    rw [rewired.operation_eq whole.lt_size]
    exact operation
  | @condition id value sides allowed operation operands few isValue earlier parts ih =>
    have whole : before.Statement branches id :=
      .condition allowed operation operands few isValue earlier parts
    have converted := rewired.operands_standIn whole.lt_size
    have kept := rewired.operands_kept whole.lt_size (away whole)
    rw [operands, forall₂_cons_left_iff] at converted kept
    obtain ⟨new, rest, standsIn, _, listed⟩ := converted
    obtain ⟨_, others, _, keptSides, listed'⟩ := kept
    have same : rest = sides := by
      rw [listed] at listed'
      rw [(List.cons.inj listed').2]
      exact eq_of_forall₂_kept keptSides fun side member => away (parts side member)
    rw [same] at listed
    refine .condition allowed ?_ listed few ((rewired.value isValue).of_standsIn standsIn) earlier
      ih
    rw [rewired.operation_eq whole.lt_size]
    exact operation

end Rewired

/-- Statements stay statements when the values of one of them are promoted. -/
theorem Statement.promote {graph : Graph} {body : NodeId} (rooted : graph.Statement branches body)
    (promotions : Promotions) (book : RuleBook) (statement : graph.Statement branches id) :
    (graph.promote body promotions book).1.Statement branches id := by
  rcases promote_cases graph body promotions book rooted.grounded with
    same | ⟨_, _, rewired, computed⟩
  · rw [same]
    exact statement
  · exact rewired.statement computed statement

end Promotion

end Retarget.Graph
