import Retarget.Proofs.Data.Pairing
import Retarget.Proofs.Graph.Reachability
import Retarget.Proofs.Rule.Rewiring

/-!
# What promotion keeps

Promotion gives back the original graph up to the conversions it adds (`PromotedTo`): formats
change at the chosen nodes only, every user sees the formats it asked for, and looking through the
added conversions shows the operands as they were. In particular it adds no cycle.
-/

namespace Retarget.Graph

open List

/-- The node that an operand stands for: itself for one of the first `limit` nodes, and what it
converts for one added behind them. -/
def unconverted (graph : Graph) (limit : Nat) (operand : NodeId) : NodeId :=
  if operand < limit then operand else (graph.node operand).operands.headD operand

/-- No node that the root reaches lies on a cycle. -/
def AcyclicFrom (graph : Graph) (root : NodeId) : Prop :=
  ∀ id, graph.Reaches root id → ¬ Relation.TransGen graph.Operand id id

/-- A node loads a source into the register format of its format. -/
def IsLoad (before after : Graph) (promotions : Promotions) (source id : NodeId) : Prop :=
  ∃ register, promotions.get? (before.node source).format = some register ∧
    after.node id = .conversionOf source register

/-- A node stores a source back to the format it had. -/
def IsStore (before after : Graph) (source id : NodeId) : Prop :=
  after.node id = .conversionOf source (before.node source).format

/-- One graph is another one after the promotion of the chosen nodes among those that a root
reaches. -/
structure PromotedTo (before after : Graph) (root : NodeId) (promotions : Promotions)
    (chosen : Set NodeId) : Prop where
  size_le : before.size ≤ after.size
  kept : ∀ id < before.size,
    (after.node id).operation = (before.node id).operation ∧
      (after.node id).specifier = (before.node id).specifier ∧
      (after.node id).tag = (before.node id).tag ∧
      (after.node id).payload = (before.node id).payload ∧
      (after.node id).operands.length = (before.node id).operands.length
  untouched : ∀ id < before.size, ¬ before.Reaches root id → after.node id = before.node id
  chosen_format : ∀ id ∈ chosen,
    (after.node id).format = promotions.apply (before.node id).format
  chosen_operands : ∀ id ∈ chosen,
    after.operandFormats id = (before.operandFormats id).map promotions.apply
  other_format : ∀ id, before.Reaches root id → id ∉ chosen →
    (after.node id).format = (before.node id).format
  other_operands : ∀ id, before.Reaches root id → id ∉ chosen →
    after.operandFormats id = before.operandFormats id
  unconverted_operands : ∀ id, before.Reaches root id →
    (after.node id).operands.map (after.unconverted before.size) = (before.node id).operands
  added : ∀ id, before.size ≤ id → id < after.size →
    ∃ source < before.size,
      (source ∉ chosen ∧ IsLoad before after promotions source id) ∨
        (source ∈ chosen ∧ IsStore before after source id)
  added_once : ∀ first second, before.size ≤ first → first < after.size →
    before.size ≤ second → second < after.size →
    (after.node first).operands = (after.node second).operands → first = second
  acyclic : before.AcyclicFrom root → after.AcyclicFrom root

/-! ## Cycles -/

section Cycles

variable {before after : Graph} {root : NodeId}

section

variable (original : ∀ id, before.Reaches root id →
    (after.node id).operands.map (after.unconverted before.size) = (before.node id).operands)
  (converted : ∀ id, before.size ≤ id → ∀ operand, after.Operand id operand →
    operand < before.size ∧ after.unconverted before.size id = operand)

include original converted

/-- Where looking through conversions gives back the operands, a chain of operands that starts at
an original node runs along original operands. -/
theorem transGen_unconverted {start finish : NodeId} (reached : before.Reaches root start)
    (chain : Relation.TransGen after.Operand start finish) :
    Relation.TransGen before.Operand start (after.unconverted before.size finish) := by
  have operand_unconverted : ∀ id, before.Reaches root id → ∀ operand, after.Operand id operand →
      before.Operand id (after.unconverted before.size operand) := by
    intro id old operand uses
    unfold Operand
    rw [← original id old]
    exact mem_map_of_mem uses
  induction chain with
  | single uses => exact .single (operand_unconverted start reached _ uses)
  | @tail middle last _ uses ih =>
    by_cases old : middle < before.size
    · have stays : after.unconverted before.size middle = middle := if_pos old
      rw [stays] at ih
      have middleReached : before.Reaches root middle :=
        Relation.ReflTransGen.trans reached ih.to_reflTransGen
      exact ih.tail (operand_unconverted middle middleReached last uses)
    · obtain ⟨lastOld, through⟩ := converted middle (Nat.le_of_not_lt old) last uses
      have stays : after.unconverted before.size last = last := if_pos lastOld
      rw [stays, ← through]
      exact ih

theorem AcyclicFrom.of_unconverted (acyclic : before.AcyclicFrom root) :
    after.AcyclicFrom root := by
  have oldAcyclic : ∀ id < before.size, after.Reaches root id →
      ¬ Relation.TransGen after.Operand id id := by
    intro id old reached cycle
    have stays : after.unconverted before.size id = id := if_pos old
    have oldReached : before.Reaches root id := by
      rcases Relation.reflTransGen_iff_eq_or_transGen.mp reached with rfl | chain
      · exact .refl
      · have oldChain := transGen_unconverted original converted .refl chain
        rw [stays] at oldChain
        exact oldChain.to_reflTransGen
    have oldCycle := transGen_unconverted original converted oldReached cycle
    rw [stays] at oldCycle
    exact acyclic id oldReached oldCycle
  intro id reached cycle
  by_cases old : id < before.size
  · exact oldAcyclic id old reached cycle
  · -- A conversion on a cycle has its source on the same cycle.
    obtain ⟨source, uses, back⟩ := Relation.TransGen.head'_iff.mp cycle
    obtain ⟨sourceOld, _⟩ := converted id (Nat.le_of_not_lt old) source uses
    exact oldAcyclic source sourceOld (reached.tail uses) (.tail' back uses)

end

end Cycles

/-! ## Retyping -/

section

variable (promotions : Promotions) (ids : List NodeId) (graph : Graph)

theorem size_foldl_retype : (ids.foldl (retype promotions) graph).size = graph.size := by
  induction ids generalizing graph with
  | nil => rfl
  | cons id rest ih => rw [foldl_cons, ih, retype, size_modify]

/-- Each of a list of distinct nodes takes its register format once. -/
theorem node_foldl_retype (distinct : ids.Nodup) (inside : ∀ id ∈ ids, id < graph.size)
    (id : NodeId) :
    (ids.foldl (retype promotions) graph).node id =
      if id ∈ ids then
        { graph.node id with format := promotions.apply (graph.node id).format }
      else graph.node id := by
  induction ids generalizing graph with
  | nil => rfl
  | cons first rest ih =>
    rw [nodup_cons] at distinct
    have firstInside := inside first mem_cons_self
    have restInside : ∀ other ∈ rest, other < (retype promotions graph first).size := by
      intro other member
      rw [retype, size_modify]
      exact inside other (mem_cons_of_mem first member)
    rw [foldl_cons, ih (retype promotions graph first) distinct.2 restInside, retype,
      node_modify]
    by_cases here : id = first
    · subst here
      simp only [distinct.1, ↓reduceIte, firstInside, and_self, mem_cons, true_or]
    · simp only [here, false_and, ↓reduceIte, mem_cons, false_or]

end

/-! ## The promoted graph -/

section Promoted

/-- The graph after all nodes that the root reaches were rewired and the promoted ones retyped. -/
structure Rewired (before after : Graph) (promotions : Promotions) (promoted : List NodeId)
    (root : NodeId) (state : Promoting) : Prop where
  rewiring : Promoting.Rewiring before promotions promoted {id | before.Reaches root id} state
  distinct : promoted.Nodup
  reached : ∀ id ∈ promoted, before.Reaches root id
  retyped : after = promoted.foldl (retype promotions) state.graph

namespace Rewired

variable {id : NodeId} {before after : Graph} {promotions : Promotions} {promoted : List NodeId}
  {root : NodeId} {state : Promoting}
  (rewired : Rewired before after promotions promoted root state)
include rewired

theorem original (reached : before.Reaches root id) : id < before.size :=
  rewired.rewiring.original id reached

theorem size_eq : after.size = state.graph.size := by
  rw [rewired.retyped, size_foldl_retype]

theorem node_eq (id : NodeId) :
    after.node id =
      if id ∈ promoted then
        { state.graph.node id with format := promotions.apply (state.graph.node id).format }
      else state.graph.node id := by
  rw [rewired.retyped]
  refine node_foldl_retype promotions promoted state.graph rewired.distinct ?_ id
  intro other member
  exact Nat.lt_of_lt_of_le (rewired.original (rewired.reached other member))
    rewired.rewiring.size_le

theorem operands_eq (id : NodeId) : (after.node id).operands = (state.graph.node id).operands := by
  rw [rewired.node_eq]
  split <;> rfl

/-- An added node is not retyped. -/
theorem node_of_size_le (added : before.size ≤ id) : after.node id = state.graph.node id := by
  rw [rewired.node_eq, if_neg]
  intro member
  exact Nat.not_lt_of_le added (rewired.original (rewired.reached id member))

theorem format_eq (inside : id < before.size) :
    (after.node id).format =
      if id ∈ promoted then promotions.apply (before.node id).format
      else (before.node id).format := by
  rw [rewired.node_eq]
  split
  · change promotions.apply (state.graph.node id).format = _
    rw [rewired.rewiring.format_eq inside]
  · exact rewired.rewiring.format_eq inside

/-- What stands in for an operand leads back to it and has the format that the user asks for. -/
theorem replaces_spec {inside : Bool} {operand new : NodeId}
    (reached : before.Reaches root operand)
    (replaces : Promoting.Replaces before promotions promoted state inside operand new) :
    after.unconverted before.size new = operand ∧
      (after.node new).format =
        if inside then promotions.apply (before.node operand).format
        else (before.node operand).format := by
  have old : operand < before.size := rewired.original reached
  have stays : after.unconverted before.size operand = operand := if_pos old
  have converted : ∀ {format : Format}, before.size ≤ new →
      state.graph.node new = .conversionOf operand format →
      after.unconverted before.size new = operand ∧ (after.node new).format = format := by
    intro format added node
    rw [unconverted, if_neg (Nat.not_lt_of_le added), rewired.node_of_size_le added, node]
    exact ⟨rfl, rfl⟩
  unfold Promoting.Replaces at replaces
  split_ifs at replaces with entering leaving
  · obtain ⟨rfl, outside⟩ : inside = true ∧ operand ∉ promoted := by simpa using entering
    rw [if_pos rfl, Promotions.apply]
    cases mapped : promotions.get? (before.node operand).format with
    | some register =>
      rw [mapped] at replaces
      obtain ⟨added, _, _, _, found, same, node⟩ := rewired.rewiring.load operand new replaces
      cases mapped.symm.trans same
      exact converted added node
    | none =>
      rw [mapped] at replaces
      subst replaces
      refine ⟨stays, ?_⟩
      rw [rewired.format_eq old, if_neg outside, Option.getD_none]
  · obtain ⟨rfl, _⟩ : inside = false ∧ operand ∈ promoted := by simpa using leaving
    obtain ⟨added, _, _, _, node⟩ := rewired.rewiring.store operand new replaces
    exact converted added node
  · subst replaces
    refine ⟨stays, ?_⟩
    rw [rewired.format_eq old]
    cases inside with
    | true =>
      have member : new ∈ promoted := by simpa using entering
      rw [if_pos member, if_pos rfl]
    | false =>
      have outside : new ∉ promoted := by simpa using leaving
      rw [if_neg outside, if_neg Bool.false_ne_true]

/-- The operands of a reached node, each with what stands in for it. -/
theorem operands_replaced (reached : before.Reaches root id) :
    List.Forall₂
      (fun operand new => before.Reaches root operand ∧
        Promoting.Replaces before promotions promoted state (id ∈ promoted) operand new)
      (before.node id).operands (after.node id).operands := by
  rw [forall₂_and_left, rewired.operands_eq]
  exact ⟨fun operand uses => reached.tail uses, rewired.rewiring.rewired id reached⟩

theorem unconverted_operands (reached : before.Reaches root id) :
    (after.node id).operands.map (after.unconverted before.size) = (before.node id).operands := by
  have same : _ = (before.node id).operands.map fun operand => operand :=
    map_eq_map_of_forall₂ (rewired.operands_replaced reached)
      fun operand new both => (rewired.replaces_spec both.1 both.2).1
  rw [same, map_id']

theorem operandFormats_eq (reached : before.Reaches root id) :
    after.operandFormats id =
      if id ∈ promoted then (before.operandFormats id).map promotions.apply
      else before.operandFormats id := by
  have same := map_eq_map_of_forall₂ (rewired.operands_replaced reached)
    fun operand new both => (rewired.replaces_spec both.1 both.2).2
  unfold operandFormats
  rw [same]
  by_cases member : id ∈ promoted
  · simp only [member, decide_true, ↓reduceIte, map_map, Function.comp_def]
  · simp only [member, decide_false, Bool.false_eq_true, ↓reduceIte]

/-- An added node is the load or the store of a source, which its place in the maps tells. -/
theorem added_spec (above : before.size ≤ id) (under : id < after.size) :
    ∃ source < before.size, ∃ format, after.node id = .conversionOf source format ∧
      ((source ∉ promoted ∧ state.loads.get? source = some id ∧
          promotions.get? (before.node source).format = some format) ∨
        (source ∈ promoted ∧ state.stores.get? source = some id ∧
          format = (before.node source).format)) := by
  rw [rewired.size_eq] at under
  rw [rewired.node_of_size_le above]
  obtain ⟨source, found | found⟩ := rewired.rewiring.added id above under
  · obtain ⟨_, _, inside, outside, register, mapped, node⟩ := rewired.rewiring.load source id found
    exact ⟨source, inside, register, node, .inl ⟨outside, found, mapped⟩⟩
  · obtain ⟨_, _, inside, member, node⟩ := rewired.rewiring.store source id found
    exact ⟨source, inside, _, node, .inr ⟨member, found, rfl⟩⟩

theorem added_once {first second : NodeId} (firstAbove : before.size ≤ first)
    (firstUnder : first < after.size) (secondAbove : before.size ≤ second)
    (secondUnder : second < after.size)
    (same : (after.node first).operands = (after.node second).operands) : first = second := by
  obtain ⟨source, _, _, firstNode, firstKind⟩ := rewired.added_spec firstAbove firstUnder
  obtain ⟨other, _, _, secondNode, secondKind⟩ := rewired.added_spec secondAbove secondUnder
  have equal : source = other := by
    rw [firstNode, secondNode] at same
    exact (List.cons.inj same).1
  subst equal
  rcases firstKind with ⟨outside, firstFound, _⟩ | ⟨member, firstFound, _⟩ <;>
    rcases secondKind with ⟨otherOutside, secondFound, _⟩ | ⟨otherMember, secondFound, _⟩
  · exact Option.some.inj (firstFound.symm.trans secondFound)
  · exact absurd otherMember outside
  · exact absurd member otherOutside
  · exact Option.some.inj (firstFound.symm.trans secondFound)

/-- An added node stands for its one operand. -/
theorem unconverted_eq {operand : NodeId} (above : before.size ≤ id)
    (uses : after.Operand id operand) :
    operand < before.size ∧ after.unconverted before.size id = operand := by
  obtain ⟨source, inside, format, node, _⟩ := rewired.added_spec above uses.lt_size
  rw [Operand, node] at uses
  have equal : operand = source := mem_singleton.mp uses
  rw [unconverted, if_neg (Nat.not_lt_of_le above), node, equal]
  exact ⟨inside, rfl⟩

/-- What the root reaches after promotion stands for something that it reached before. -/
theorem reaches (reached : after.Reaches root id) :
    before.Reaches root (after.unconverted before.size id) := by
  rcases Relation.reflTransGen_iff_eq_or_transGen.mp reached with rfl | chain
  · have stays : after.unconverted before.size id = id := if_pos (rewired.original .refl)
    rw [stays]
    exact .refl
  · exact (transGen_unconverted (fun _ => rewired.unconverted_operands)
      (fun _ above _ => rewired.unconverted_eq above) .refl chain).to_reflTransGen

theorem promotedTo : before.PromotedTo after root promotions {id | id ∈ promoted} where
  size_le := by
    rw [rewired.size_eq]
    exact rewired.rewiring.size_le
  kept := by
    intro id inside
    have node := rewired.rewiring.kept id inside
    have length : (after.node id).operands.length = (before.node id).operands.length := by
      by_cases reached : before.Reaches root id
      · exact (rewired.operands_replaced reached).length_eq.symm
      · rw [rewired.operands_eq, rewired.rewiring.untouched id inside reached]
    rw [rewired.node_eq] at length ⊢
    split at length <;> rename_i member <;> simp only [member, ↓reduceIte]
    all_goals
      refine ⟨?_, ?_, ?_, ?_, length⟩ <;> rw [node]
  untouched := by
    intro id inside unreached
    have outside : id ∉ promoted := fun member => unreached (rewired.reached id member)
    rw [rewired.node_eq, if_neg outside, rewired.rewiring.kept id inside,
      rewired.rewiring.untouched id inside unreached]
  chosen_format := by
    intro id member
    rw [rewired.format_eq (rewired.original (rewired.reached id member))]
    exact if_pos member
  chosen_operands := by
    intro id member
    rw [rewired.operandFormats_eq (rewired.reached id member)]
    exact if_pos member
  other_format := by
    intro id reached outside
    rw [rewired.format_eq (rewired.original reached)]
    exact if_neg outside
  other_operands := by
    intro id reached outside
    rw [rewired.operandFormats_eq reached]
    exact if_neg outside
  unconverted_operands := fun id => rewired.unconverted_operands
  added := by
    intro id above under
    obtain ⟨source, inside, format, node, kind⟩ := rewired.added_spec above under
    refine ⟨source, inside, ?_⟩
    rcases kind with ⟨outside, _, mapped⟩ | ⟨member, _, rfl⟩
    · exact .inl ⟨outside, format, mapped, node⟩
    · exact .inr ⟨member, node⟩
  added_once := fun _ _ => rewired.added_once
  acyclic := .of_unconverted (fun _ => rewired.unconverted_operands) fun _ above _ =>
    rewired.unconverted_eq above

end Rewired

end Promoted

/-! ## Promotion -/

/-- The nodes that promotion gives a register format. -/
def chosen (graph : Graph) (root : NodeId) (promotions : Promotions) (book : RuleBook) :
    Set NodeId :=
  {id | graph.Reaches root id ∧ graph.isPromoted promotions book id}

section

variable (graph : Graph) (root : NodeId) (promotions : Promotions)

/-- A graph is its own promotion where nothing is chosen. -/
theorem PromotedTo.refl (grounded : ∀ id, graph.Reaches root id → id < graph.size) :
    graph.PromotedTo graph root promotions ∅ where
  size_le := Nat.le_refl _
  kept _ _ := ⟨rfl, rfl, rfl, rfl, rfl⟩
  untouched _ _ _ := rfl
  chosen_format _ impossible := absurd impossible (Set.notMem_empty _)
  chosen_operands _ impossible := absurd impossible (Set.notMem_empty _)
  other_format _ _ _ := rfl
  other_operands _ _ _ := rfl
  unconverted_operands := by
    intro id reached
    have stays : ∀ operand ∈ (graph.node id).operands,
        graph.unconverted graph.size operand = operand :=
      fun operand uses => if_pos (grounded operand (reached.tail uses))
    rw [map_congr_left stays, map_id']
  added id above under := absurd under (Nat.not_lt_of_le above)
  added_once first _ above under := absurd under (Nat.not_lt_of_le above)
  acyclic := id

/-- The chosen nodes as the list that promotion walks. -/
theorem chosen_eq (book : RuleBook) :
    graph.chosen root promotions book =
      {id | id ∈ (graph.reachable root).filter (graph.isPromoted promotions book)} := by
  ext id
  rw [Set.mem_ofPred_eq, mem_filter, mem_reachable]
  rfl

end

theorem isPromoted_of_isEmpty {promotions : Promotions} (empty : promotions.isEmpty)
    (graph : Graph) (book : RuleBook) (id : NodeId) :
    graph.isPromoted promotions book id = false := by
  have nothing : promotions.get? (graph.node id).format = none := by
    rw [OrderedMap.isEmpty, List.isEmpty_iff] at empty
    rw [OrderedMap.get?, empty]
    rfl
  simp only [isPromoted, nothing, Bool.and_false]

theorem ncard_mem_eq_length {ids : List NodeId} (distinct : ids.Nodup) :
    {id | id ∈ ids}.ncard = ids.length := by
  rw [← coe_toFinset, Set.ncard_coe_finset, toFinset_card_of_nodup distinct]

section

variable (graph : Graph) (root : NodeId) (promotions : Promotions) (book : RuleBook)
  (grounded : ∀ id, graph.Reaches root id → id < graph.size)

include grounded

/-- Promotion changes nothing where it chooses nothing, and otherwise rewires what the root reaches
around the chosen nodes. -/
theorem promote_rewires {promoted : List NodeId}
    (all : (graph.reachable root).filter (graph.isPromoted promotions book) = promoted) :
    (promoted = [] ∧ graph.promote root promotions book = (graph, 0)) ∨
      ∃ state, Rewired graph (graph.promote root promotions book).1 promotions promoted root state ∧
        (graph.promote root promotions book).2 = promoted.length := by
  by_cases nothing : promoted = []
  · refine .inl ⟨nothing, ?_⟩
    simp only [promote, all, nothing, isEmpty_nil, ↓reduceIte, ite_self]
  · have mapped : ¬ promotions.isEmpty := by
      intro empty
      rw [← all] at nothing
      refine nothing (filter_eq_nil_iff.mpr fun id _ => ?_)
      rw [isPromoted_of_isEmpty empty]
      exact Bool.false_ne_true
    have walk : {id | graph.Reaches root id} = ∅ ∪ {id | id ∈ graph.reachable root} := by
      ext id
      rw [Set.empty_union, Set.mem_ofPred_eq, Set.mem_ofPred_eq, mem_reachable]
    simp only [promote, mapped, all, List.isEmpty_iff, nothing, Bool.false_eq_true, ↓reduceIte]
    refine .inr ⟨_, { rewiring := ?_, distinct := ?_, reached := ?_, retyped := rfl }, trivial⟩
    · rw [walk]
      refine Promoting.Rewiring.start.foldl_rewire _ (graph.nodup_reachable root)
        (fun _ _ => Set.notMem_empty _) ?_ ?_
      · intro id member
        exact grounded id ((mem_reachable graph root id).mp member)
      · intro id member operand uses
        exact grounded operand (((mem_reachable graph root id).mp member).tail uses)
    · rw [← all]
      exact (graph.nodup_reachable root).filter _
    · intro id member
      rw [← all] at member
      exact (mem_reachable graph root id).mp (mem_filter.mp member).1

/-- Promotion keeps the graph up to the conversions it adds. -/
theorem promotedTo_promote :
    graph.PromotedTo (graph.promote root promotions book).1 root promotions
      (graph.chosen root promotions book) := by
  rw [chosen_eq]
  rcases promote_rewires graph root promotions book grounded rfl with
    ⟨nothing, unchanged⟩ | ⟨_, rewired, _⟩
  · have noneChosen : {id : NodeId | id ∈ ([] : List NodeId)} = ∅ := by
      ext id
      exact iff_of_false not_mem_nil (Set.notMem_empty id)
    rw [unchanged, nothing, noneChosen]
    exact PromotedTo.refl graph root promotions grounded
  · exact rewired.promotedTo

end

/-- Promotion counts the nodes it retypes and keeps the graph up to the conversions it adds. -/
theorem promote_promotedTo (graph : Graph) (root : NodeId) (promotions : Promotions)
    (book : RuleBook) (grounded : ∀ id, graph.Reaches root id → id < graph.size) :
    (graph.promote root promotions book).2 = (graph.chosen root promotions book).ncard ∧
      graph.PromotedTo (graph.promote root promotions book).1 root promotions
        (graph.chosen root promotions book) := by
  refine ⟨?_, graph.promotedTo_promote root promotions book grounded⟩
  rw [chosen_eq, ncard_mem_eq_length ((graph.nodup_reachable root).filter _)]
  rcases promote_rewires graph root promotions book grounded rfl with
    ⟨nothing, unchanged⟩ | ⟨_, _, counted⟩
  · rw [unchanged, nothing]
    rfl
  · exact counted

/-- Where every operand is a node of the graph, so is everything that a node of it reaches. -/
theorem Reaches.lt_size {graph : Graph} {root id : NodeId}
    (closed : ∀ node ∈ graph.nodes.toList, ∀ operand ∈ node.operands, operand < graph.size)
    (rootInside : root < graph.size) (reached : graph.Reaches root id) : id < graph.size := by
  induction reached with
  | refl => exact rootInside
  | @tail user operand _ uses inside =>
    refine closed (graph.node user) ?_ operand uses
    have present : graph.nodes[user]? = some graph.nodes[user] :=
      Array.getElem?_eq_getElem inside
    rw [node, node?, present, Option.getD_some]
    exact Array.getElem_mem_toList inside

/-- Vectors of eight floats, kept in registers. -/
def eightFloats : Promotions := ⟨[(.vector .binary32 8, .register .m256v8float32)]⟩

/-- Two sums that use each other and a shared variable. -/
def mutualSums : Graph where
  nodes := #[
    { operation := .variable, format := .vector .binary32 8, payload := .variable "x" },
    { operation := .addition, operands := [0, 2], format := .vector .binary32 8 },
    { operation := .addition, operands := [1, 0], format := .vector .binary32 8 },
    { operation := .ret, operands := [2], format := .void }]

/-- The one rule that lowers sums of registers. -/
def registerSums : RuleBook :=
  .ofRules [(Operation.addition,
    [.write (.uniform (.register .m256v8float32) 2) (.call "_mm256_add_ps")])]

theorem mutualSums_grounded (id : NodeId) (reached : mutualSums.Reaches 3 id) :
    id < mutualSums.size :=
  reached.lt_size (by decide) (by decide)

/-- The two sums are promoted, with one load and one store, although they form a cycle. -/
theorem promote_mutualSums :
    ((mutualSums.promote 3 eightFloats registerSums).2 = 2 ∧
      (mutualSums.promote 3 eightFloats registerSums).1.size = 6) ∧
    (mutualSums.promote 3 eightFloats registerSums).2 =
        (mutualSums.chosen 3 eightFloats registerSums).ncard ∧
      mutualSums.PromotedTo (mutualSums.promote 3 eightFloats registerSums).1 3 eightFloats
        (mutualSums.chosen 3 eightFloats registerSums) :=
  ⟨by constructor <;> cbv,
    promote_promotedTo mutualSums 3 eightFloats registerSums mutualSums_grounded⟩

end Retarget.Graph
