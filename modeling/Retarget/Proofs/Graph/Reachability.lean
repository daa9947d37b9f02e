import Mathlib
import Retarget.Rule.Promotion

/-!
# The part of a graph that a root needs

A root reaches the nodes that some chain of operands leads to. Counting uses visits exactly these
nodes, each of them once, in graphs with sharing and with cycles alike: the bound on the number of
steps is never what ends the traversal. So the count of a node is the number of operand places that
hold it (`uses_exact`).
-/

namespace Retarget.Graph

open List

variable {graph : Graph} {root : NodeId}

/-- A node uses another one as an operand. -/
def Operand (graph : Graph) (user operand : NodeId) : Prop :=
  operand ∈ (graph.node user).operands

theorem Operand.lt_size {user operand : NodeId} (uses : graph.Operand user operand) :
    user < graph.size := by
  refine Nat.lt_of_not_le fun outside => ?_
  rw [Operand, node_of_size_le outside] at uses
  cases uses

/-- A chain of operands, which may be empty, leads from one node to another. -/
def Reaches (graph : Graph) : NodeId → NodeId → Prop :=
  Relation.ReflTransGen graph.Operand

/-- A set that holds the root and the operands of its members holds all that the root reaches. -/
theorem Reaches.mem_of_closed {id : NodeId} (reached : graph.Reaches root id)
    {members : List NodeId} (start : root ∈ members)
    (closed : ∀ user ∈ members, ∀ operand, graph.Operand user operand → operand ∈ members) :
    id ∈ members := by
  induction reached with
  | refl => exact start
  | tail _ uses ih => exact closed _ ih _ uses

/-! ## Counting operands -/

/-- The number of uses of a node. -/
def tally (uses : Uses) (id : NodeId) : Nat :=
  (uses.get? id).getD 0

theorem tally_insert (uses : Uses) (id other : NodeId) (count : Nat) :
    tally (uses.insert id count) other = if id = other then count else tally uses other := by
  rw [tally, OrderedMap.get?_insert]
  split <;> rfl

theorem tally_countUse (uses : Uses) (id other : NodeId) :
    tally (countUse uses id) other = tally uses other + if id = other then 1 else 0 := by
  rw [countUse, tally_insert]
  split
  · rename_i same
    rw [← same]
    rfl
  · rfl

theorem tally_foldl_countUse (operands : List NodeId) (uses : Uses) (other : NodeId) :
    tally (operands.foldl countUse uses) other = tally uses other + operands.count other := by
  induction operands generalizing uses with
  | nil => rfl
  | cons operand rest ih =>
    rw [foldl_cons, ih, tally_countUse, count_cons]
    simp only [beq_iff_eq]
    omega

theorem mem_keys_countUse (uses : Uses) (id other : NodeId) :
    other ∈ (countUse uses id).keys ↔ other ∈ uses.keys ∨ other = id :=
  OrderedMap.mem_keys_insert uses id other _

theorem mem_keys_foldl_countUse (operands : List NodeId) (uses : Uses) (other : NodeId) :
    other ∈ (operands.foldl countUse uses).keys ↔ other ∈ uses.keys ∨ other ∈ operands := by
  induction operands generalizing uses with
  | nil => simp
  | cons operand rest ih =>
    rw [foldl_cons, ih, mem_keys_countUse, mem_cons, or_assoc]

theorem nodup_keys_foldl_countUse (operands : List NodeId) (uses : Uses)
    (distinct : uses.keys.Nodup) : (operands.foldl countUse uses).keys.Nodup := by
  induction operands generalizing uses with
  | nil => exact distinct
  | cons operand rest ih => exact ih _ (OrderedMap.nodup_keys_insert uses operand _ distinct)

/-! ## The bound on the number of steps -/

/-- The number of operand places of the nodes that are not expanded so far. -/
def unexpandedPlaces (graph : Graph) (expanded : List NodeId) : Nat :=
  ∑ id ∈ Finset.range graph.size, if id ∈ expanded then 0 else (graph.node id).operands.length

/-- Expanding a node takes its operand places out of the count. -/
theorem unexpandedPlaces_cons (graph : Graph) {expanded : List NodeId} {id : NodeId}
    (fresh : id ∉ expanded) :
    graph.unexpandedPlaces expanded =
      graph.unexpandedPlaces (id :: expanded) + (graph.node id).operands.length := by
  by_cases inside : id < graph.size
  · have member : id ∈ Finset.range graph.size := Finset.mem_range.mpr inside
    unfold unexpandedPlaces
    rw [← Finset.add_sum_erase _ _ member, ← Finset.add_sum_erase _ _ member, if_neg fresh,
      if_pos mem_cons_self, Nat.zero_add, Nat.add_comm]
    refine congrArg (· + _) (Finset.sum_congr rfl fun other apart => ?_)
    simp only [mem_cons, Finset.ne_of_mem_erase apart, false_or]
  · have outside : graph.size ≤ id := Nat.le_of_not_lt inside
    have empty : (graph.node id).operands = [] := by rw [node_of_size_le outside]; rfl
    rw [empty, length_nil, Nat.add_zero]
    refine Finset.sum_congr rfl fun other member => ?_
    have apart : other ≠ id := by
      have := Finset.mem_range.mp member
      omega
    simp only [mem_cons, apart, false_or]

theorem sum_range_getD_eq_foldl (nodes : List Node) (start : Nat) :
    start + ∑ id ∈ Finset.range nodes.length, (nodes[id]?.getD Node.nothing).operands.length =
      nodes.foldl (fun total node => total + node.operands.length) start := by
  induction nodes generalizing start with
  | nil => rfl
  | cons node rest ih =>
    rw [foldl_cons, ← ih, length_cons, Finset.sum_range_succ']
    simp only [getElem?_cons_succ, getElem?_cons_zero, Option.getD_some]
    omega

/-- All operand places of the graph are unexpanded at first. -/
theorem unexpandedPlaces_nil (graph : Graph) :
    graph.unexpandedPlaces [] = graph.operandCount := by
  have sum := sum_range_getD_eq_foldl graph.nodes.toList 0
  rw [Nat.zero_add, Array.foldl_toList] at sum
  unfold unexpandedPlaces operandCount
  rw [← sum]
  refine Finset.sum_congr rfl fun id _ => ?_
  simp only [not_mem_nil, ↓reduceIte, node, node?, Array.getElem?_toList]

/-! ## The traversal -/

/-- Counting uses without a bound on the number of steps: a run that ends, with the counts that it
ends with. -/
inductive Expands (graph : Graph) : List NodeId → List NodeId → Uses → Uses → Prop where
  | done (expanded : List NodeId) (uses : Uses) : Expands graph [] expanded uses uses
  | skip {id : NodeId} {waiting expanded : List NodeId} {uses counts : Uses}
      (known : id ∈ expanded) (rest : Expands graph waiting expanded uses counts) :
      Expands graph (id :: waiting) expanded uses counts
  | expand {id : NodeId} {waiting expanded : List NodeId} {uses counts : Uses}
      (new : id ∉ expanded)
      (rest : Expands graph ((graph.node id).operands.reverse ++ waiting) (id :: expanded)
        ((graph.node id).operands.foldl countUse uses) counts) :
      Expands graph (id :: waiting) expanded uses counts

/-- What holds while uses are counted: the counted nodes are reached, and the operands of expanded
ones are counted, place by place. -/
structure Traversal (graph : Graph) (root : NodeId) (waiting expanded : List NodeId)
    (uses : Uses) : Prop where
  distinct : uses.keys.Nodup
  root_counted : root ∈ uses.keys
  reached : ∀ id ∈ uses.keys, graph.Reaches root id
  waiting_counted : ∀ id ∈ waiting, id ∈ uses.keys
  expanded_or_waiting : ∀ id ∈ uses.keys, id ∈ expanded ∨ id ∈ waiting
  operands_counted : ∀ id ∈ expanded, ∀ operand, graph.Operand id operand → operand ∈ uses.keys
  expanded_once : expanded.Nodup
  expanded_counted : ∀ id ∈ expanded, id ∈ uses.keys
  places_counted : ∀ id, tally uses id =
    (expanded.map fun user => (graph.node user).operands.count id).sum + if root = id then 1 else 0

namespace Traversal

variable {graph : Graph} {root id : NodeId} {waiting expanded : List NodeId} {uses : Uses}

theorem start (graph : Graph) (root : NodeId) :
    Traversal graph root [root] [] (OrderedMap.empty.insert root 1) where
  distinct := OrderedMap.nodup_keys_insert _ _ _ nodup_nil
  root_counted := by simp [OrderedMap.mem_keys_insert]
  reached := by
    intro id counted
    rcases (OrderedMap.mem_keys_insert _ _ _ _).mp counted with impossible | rfl
    · exact absurd impossible not_mem_nil
    · exact .refl
  waiting_counted := by
    intro id member
    rw [mem_singleton] at member
    exact (OrderedMap.mem_keys_insert _ _ _ _).mpr (.inr member)
  expanded_or_waiting := by
    intro id counted
    rcases (OrderedMap.mem_keys_insert _ _ _ _).mp counted with impossible | rfl
    · exact absurd impossible not_mem_nil
    · exact .inr (mem_singleton_self _)
  operands_counted := fun _ impossible => absurd impossible not_mem_nil
  expanded_once := nodup_nil
  expanded_counted := fun _ impossible => absurd impossible not_mem_nil
  places_counted := fun id => by
    rw [tally_insert, map_nil, sum_nil, Nat.zero_add]
    rfl

section

variable (traversal : Traversal graph root (id :: waiting) expanded uses)

include traversal

/-- A node that is expanded already needs no more work. -/
theorem skip (known : id ∈ expanded) : Traversal graph root waiting expanded uses where
  distinct := traversal.distinct
  root_counted := traversal.root_counted
  reached := traversal.reached
  waiting_counted other member := traversal.waiting_counted other (mem_cons_of_mem id member)
  expanded_or_waiting := by
    intro other counted
    rcases traversal.expanded_or_waiting other counted with done | member
    · exact .inl done
    · rcases mem_cons.mp member with rfl | later
      · exact .inl known
      · exact .inr later
  operands_counted := traversal.operands_counted
  expanded_once := traversal.expanded_once
  expanded_counted := traversal.expanded_counted
  places_counted := traversal.places_counted

/-- Expanding a node counts its operands and makes them wait. -/
theorem expand (fresh : id ∉ expanded) :
    Traversal graph root ((graph.node id).operands.reverse ++ waiting) (id :: expanded)
      ((graph.node id).operands.foldl countUse uses) where
  distinct := nodup_keys_foldl_countUse _ _ traversal.distinct
  root_counted := (mem_keys_foldl_countUse _ _ _).mpr (.inl traversal.root_counted)
  reached := by
    have here : graph.Reaches root id :=
      traversal.reached id (traversal.waiting_counted id mem_cons_self)
    intro other counted
    rcases (mem_keys_foldl_countUse _ _ _).mp counted with before | operand
    · exact traversal.reached other before
    · exact here.tail operand
  waiting_counted := by
    intro other member
    rw [mem_keys_foldl_countUse]
    rcases mem_append.mp member with operand | later
    · exact .inr (mem_reverse.mp operand)
    · exact .inl (traversal.waiting_counted other (mem_cons_of_mem id later))
  expanded_or_waiting := by
    intro other counted
    rcases (mem_keys_foldl_countUse _ _ _).mp counted with before | operand
    · rcases traversal.expanded_or_waiting other before with done | member
      · exact .inl (mem_cons_of_mem id done)
      · rcases mem_cons.mp member with rfl | later
        · exact .inl mem_cons_self
        · exact .inr (mem_append_right _ later)
    · exact .inr (mem_append_left _ (mem_reverse.mpr operand))
  operands_counted := by
    intro user member operand uses
    rw [mem_keys_foldl_countUse]
    rcases mem_cons.mp member with rfl | earlier
    · exact .inr uses
    · exact .inl (traversal.operands_counted user earlier operand uses)
  expanded_once := nodup_cons.mpr ⟨fresh, traversal.expanded_once⟩
  expanded_counted := by
    intro user member
    rw [mem_keys_foldl_countUse]
    rcases mem_cons.mp member with rfl | earlier
    · exact .inl (traversal.waiting_counted user mem_cons_self)
    · exact .inl (traversal.expanded_counted user earlier)
  places_counted := by
    intro other
    have before := traversal.places_counted other
    rw [map_cons, sum_cons, tally_foldl_countUse]
    omega

end

/-- Where nothing waits, exactly the nodes that the root reaches are expanded. -/
theorem mem_expanded (traversal : Traversal graph root [] expanded uses) :
    id ∈ expanded ↔ graph.Reaches root id := by
  have done : ∀ id ∈ uses.keys, id ∈ expanded := fun id counted =>
    (traversal.expanded_or_waiting id counted).resolve_right not_mem_nil
  constructor
  · exact fun member => traversal.reached id (traversal.expanded_counted id member)
  · intro reached
    refine reached.mem_of_closed (done root traversal.root_counted) fun user member operand uses => ?_
    exact done operand (traversal.operands_counted user member operand uses)

theorem mem_keys (traversal : Traversal graph root [] expanded uses) :
    id ∈ uses.keys ↔ graph.Reaches root id := by
  constructor
  · exact traversal.reached id
  · exact fun reached => traversal.expanded_counted id (traversal.mem_expanded.mpr reached)

end Traversal

section

variable (graph : Graph)

/-- A traversal with steps enough for all waiting nodes and unexpanded places ends with nothing
waiting. -/
theorem expandUses_traversal (root : NodeId) (steps : Nat) (waiting expanded : List NodeId)
    (uses : Uses) (traversal : Traversal graph root waiting expanded uses)
    (enough : waiting.length + graph.unexpandedPlaces expanded ≤ steps) :
    graph.Expands waiting expanded uses (graph.expandUses steps waiting expanded uses) ∧
      ∃ finished,
        Traversal graph root [] finished (graph.expandUses steps waiting expanded uses) := by
  induction steps generalizing waiting expanded uses with
  | zero =>
    have nothing : waiting = [] := eq_nil_of_length_eq_zero (by omega)
    subst nothing
    exact ⟨.done expanded uses, expanded, traversal⟩
  | succ steps ih =>
    cases waiting with
    | nil => exact ⟨.done expanded uses, expanded, traversal⟩
    | cons id waiting =>
      rw [length_cons] at enough
      by_cases known : id ∈ expanded
      · simp only [expandUses, known, ↓reduceIte]
        exact (ih waiting expanded uses (traversal.skip known) (by omega)).imp_left (.skip known)
      · simp only [expandUses, known, ↓reduceIte]
        have places := unexpandedPlaces_cons graph known
        refine (ih _ _ _ (traversal.expand known) ?_).imp_left (.expand known)
        rw [length_append, length_reverse]
        omega

theorem uses_traversal (root : NodeId) :
    graph.Expands [root] [] (OrderedMap.empty.insert root 1) (graph.uses root) ∧
      ∃ finished, Traversal graph root [] finished (graph.uses root) := by
  refine expandUses_traversal graph root _ _ _ _ (Traversal.start graph root) ?_
  rw [length_singleton, unexpandedPlaces_nil]
  omega

/-- Exactly the nodes that the root reaches are counted. -/
theorem mem_keys_uses (root id : NodeId) : id ∈ (graph.uses root).keys ↔ graph.Reaches root id := by
  obtain ⟨_, finished, traversal⟩ := graph.uses_traversal root
  exact traversal.mem_keys

/-- Each node that the root reaches counts its operand places once, and the root counts one more. -/
theorem exists_users (root : NodeId) :
    ∃ users : Finset NodeId, (∀ id, id ∈ users ↔ graph.Reaches root id) ∧ ∀ id,
      tally (graph.uses root) id =
        (∑ user ∈ users, (graph.node user).operands.count id) + if root = id then 1 else 0 := by
  obtain ⟨_, finished, traversal⟩ := graph.uses_traversal root
  refine ⟨finished.toFinset, fun id => ?_, fun id => ?_⟩
  · rw [mem_toFinset, traversal.mem_expanded]
  · rw [sum_toFinset _ traversal.expanded_once, traversal.places_counted]

end

/-- The places of one node that the root reaches are counted. -/
theorem count_le_tally {user : NodeId} (reached : graph.Reaches root user) (id : NodeId) :
    (graph.node user).operands.count id ≤ tally (graph.uses root) id := by
  obtain ⟨users, all, counted⟩ := graph.exists_users root
  have place := Finset.single_le_sum (f := fun user => (graph.node user).operands.count id)
    (fun _ _ => Nat.zero_le _) ((all user).mpr reached)
  have whole := counted id
  omega

/-- The places of two nodes that the root reaches are counted. -/
theorem count_add_count_le {first second : NodeId} (reachedFirst : graph.Reaches root first)
    (reachedSecond : graph.Reaches root second) (apart : first ≠ second) (id : NodeId) :
    (graph.node first).operands.count id + (graph.node second).operands.count id ≤
      tally (graph.uses root) id := by
  obtain ⟨users, all, counted⟩ := graph.exists_users root
  have places := Finset.add_le_sum (f := fun user => (graph.node user).operands.count id)
    (fun _ _ => Nat.zero_le _) ((all first).mpr reachedFirst) ((all second).mpr reachedSecond) apart
  have whole := counted id
  omega

/-- Counting uses ends without a bound on the number of steps, in every graph. It counts exactly the
nodes that the root reaches, and the count of a node is the number of operand places of such nodes
that hold it, and one more for the root. -/
theorem uses_exact (graph : Graph) (root : NodeId) :
    graph.Expands [root] [] (OrderedMap.empty.insert root 1) (graph.uses root) ∧
    (∀ id, id ∈ (graph.uses root).keys ↔ graph.Reaches root id) ∧
    ∃ users : Finset NodeId, (∀ id, id ∈ users ↔ graph.Reaches root id) ∧ ∀ id,
      (graph.uses root).get? id =
        if id ∈ users then
          some ((∑ user ∈ users, (graph.node user).operands.count id) + if root = id then 1 else 0)
        else none := by
  obtain ⟨users, all, counted⟩ := graph.exists_users root
  refine ⟨(graph.uses_traversal root).1, graph.mem_keys_uses root, users, all, fun id => ?_⟩
  have known : id ∈ users ↔ ((graph.uses root).get? id).isSome := by
    rw [all, ← mem_keys_uses, OrderedMap.mem_keys]
  rw [← counted id, tally]
  cases count : (graph.uses root).get? id with
  | none => simp [known, count]
  | some count' => simp [known, count]

theorem mem_reachable (graph : Graph) (root id : NodeId) :
    id ∈ graph.reachable root ↔ graph.Reaches root id := by
  rw [reachable, mem_mergeSort, mem_keys_uses]

theorem nodup_reachable (graph : Graph) (root : NodeId) : (graph.reachable root).Nodup := by
  obtain ⟨_, finished, traversal⟩ := graph.uses_traversal root
  exact (mergeSort_perm _ _).nodup_iff.mpr traversal.distinct

end Retarget.Graph
