import Retarget.Proofs.Generation.Recursion
import Retarget.Proofs.Rule.Parts

/-!
# Cycles of dependencies

A node depends on its operands, or on the node that takes its place where a rule replaces it, in the
graph with the nodes that were added. A cycle is ahead of a root where nodes that are not remembered
lead from it to some node, and from there to the same node again (`Generator.CycleAhead`).

Replacements add nodes without end, but nothing new comes back: new nodes lead to parts of the node
whose place they take. So a cycle is ahead exactly where one is met among the parts of nodes, in the
graph as it is (`Generator.cycleAhead_iff`).
-/

namespace Retarget

open Relation (ReflTransGen TransGen)

namespace Graph

/-- All that a node reaches is in the graph. -/
def GroundedFrom (graph : Graph) (root : NodeId) : Prop :=
  ∀ id, graph.Reaches root id → id < graph.size

namespace GroundedFrom

variable {graph larger : Graph} {id operand : NodeId}

theorem lt_size (grounded : graph.GroundedFrom id) : id < graph.size :=
  grounded id .refl

theorem of_operand (grounded : graph.GroundedFrom id) (uses : operand ∈ (graph.node id).operands) :
    graph.GroundedFrom operand :=
  fun place reached => grounded place (.head uses reached)

theorem of_operands (inside : id < graph.size)
    (each : ∀ operand ∈ (graph.node id).operands, graph.GroundedFrom operand) :
    graph.GroundedFrom id := by
  intro place reached
  rcases ReflTransGen.cases_head reached with rfl | ⟨operand, uses, onward⟩
  · exact inside
  · exact each operand uses place onward

/-- A graph that grows gives a node nothing more to reach. -/
theorem grows (grounded : graph.GroundedFrom id) (grows : graph.Grows larger) :
    larger.GroundedFrom id := by
  intro place reached
  have before : graph.Reaches id place := by
    induction reached with
    | refl => exact .refl
    | tail _ uses ih =>
      unfold Operand at uses
      rw [grows.operands_eq (grounded _ ih)] at uses
      exact ih.tail uses
  exact Nat.lt_of_lt_of_le (grounded place before) grows.size

/-- What takes the place of a node reaches no more than the node does. -/
theorem replaced {book : RuleBook} (grounded : graph.GroundedFrom id) {later : Graph} {new : NodeId}
    (place : book.TakesPlace graph later id new) : later.GroundedFrom new := by
  have below : later.GroundedFrom graph.size := by
    refine of_operands ?_ fun operand uses => ?_
    · rw [place.size]
      exact Nat.lt_add_of_pos_right Nat.two_pos
    · exact (grounded.of_operand (place.inner operand uses)).grows place.grows
  refine of_operands ?_ fun operand uses => ?_
  · rw [place.last, place.size]
    exact Nat.lt_succ_self _
  · rcases place.outer operand uses with old | same
    · exact (grounded.of_operand old).grows place.grows
    · rw [same]
      exact below

end GroundedFrom

end Graph

/-- A node depends on its operands, or on the node that takes its place where a rule replaces it.
Leaves depend on nothing. A replacement adds nodes, so a node stands together with its graph. -/
inductive RuleBook.DependsOn (book : RuleBook) : Graph × NodeId → Graph × NodeId → Prop where
  | operand {graph : Graph} {id operand : NodeId}
      (role : (graph.node id).operation.role ≠ .leaf)
      (kept : ∀ later new, book.lower graph id ≠ .ok (.replaced later new))
      (uses : operand ∈ (graph.node id).operands) :
      DependsOn book (graph, id) (graph, operand)
  | replacement {graph later : Graph} {id new : NodeId}
      (role : (graph.node id).operation.role ≠ .leaf)
      (lowered : book.lower graph id = .ok (.replaced later new)) :
      DependsOn book (graph, id) (later, new)

namespace Generator

/-- A node that is not remembered depends on another one. -/
def Pursues (start : Generator) (book : RuleBook) (source next : Graph × NodeId) : Prop :=
  start.code? source.2 = none ∧ book.DependsOn source next

/-- Nodes that are not remembered lead from a root to some node, and on to the same node again. -/
def CycleAhead (start : Generator) (book : RuleBook) (root : NodeId) : Prop :=
  ∃ graph later id, ReflTransGen (start.Pursues book) (start.graph, root) (graph, id) ∧
    TransGen (start.Pursues book) (graph, id) (later, id)

/-- A node that is not remembered has another one as a part. -/
def Needs (start : Generator) (book : RuleBook) (graph : Graph) (id part : NodeId) : Prop :=
  start.code? id = none ∧ book.PartOf graph id part

/-- No cycle is met among the parts of a node. -/
def Free (start : Generator) (book : RuleBook) (graph : Graph) (id : NodeId) : Prop :=
  ∀ place, ReflTransGen (start.Needs book graph) id place →
    ¬ TransGen (start.Needs book graph) place place

variable {start : Generator} {book : RuleBook} {graph larger later : Graph}
  {id part place new : NodeId}

/-! ## Chains of parts -/

theorem Needs.grounded (needs : start.Needs book graph id part)
    (grounded : graph.GroundedFrom id) : graph.GroundedFrom part :=
  grounded.of_operand needs.2.uses

theorem needs_iff (steady : book.Steady) (grounded : graph.GroundedFrom id)
    (grows : graph.Grows larger) :
    start.Needs book larger id part ↔ start.Needs book graph id part :=
  and_congr_right fun _ => steady.partOf_iff grows grounded.lt_size fun _ uses =>
    (grounded.of_operand uses).lt_size

/-- Two relations agree on a set that the first one does not leave. -/
theorem reflTransGen_of_closed {related other : NodeId → NodeId → Prop} {closed : NodeId → Prop}
    (step : ∀ id part, closed id → related id part → other id part ∧ closed part)
    (start : closed id) (chain : ReflTransGen related id place) :
    ReflTransGen other id place ∧ closed place := by
  induction chain with
  | refl => exact ⟨.refl, start⟩
  | tail _ last ih =>
    obtain ⟨along, inside⟩ := ih
    obtain ⟨onward, here⟩ := step _ _ inside last
    exact ⟨along.tail onward, here⟩

section Growing

variable (steady : book.Steady) (grounded : graph.GroundedFrom id) (grows : graph.Grows larger)

include steady grounded grows

theorem chain_grows (chain : ReflTransGen (start.Needs book graph) id place) :
    ReflTransGen (start.Needs book larger) id place ∧ graph.GroundedFrom place := by
  refine reflTransGen_of_closed (fun id part grounded needs => ?_) grounded chain
  exact ⟨(needs_iff steady grounded grows).mpr needs, needs.grounded grounded⟩

theorem chain_of_grows (chain : ReflTransGen (start.Needs book larger) id place) :
    ReflTransGen (start.Needs book graph) id place ∧ graph.GroundedFrom place := by
  refine reflTransGen_of_closed (fun id part grounded needs => ?_) grounded chain
  have before := (needs_iff steady grounded grows).mp needs
  exact ⟨before, before.grounded grounded⟩

theorem loop_iff : TransGen (start.Needs book larger) id place ↔
    TransGen (start.Needs book graph) id place := by
  rw [TransGen.head'_iff, TransGen.head'_iff]
  constructor
  · rintro ⟨part, needs, chain⟩
    have before := (needs_iff steady grounded grows).mp needs
    exact ⟨part, before, (chain_of_grows steady (before.grounded grounded) grows chain).1⟩
  · rintro ⟨part, needs, chain⟩
    refine ⟨part, (needs_iff steady grounded grows).mpr needs, ?_⟩
    exact (chain_grows steady (needs.grounded grounded) grows chain).1

/-- A cycle is met in a larger graph where it was met before. -/
theorem free_iff : start.Free book larger id ↔ start.Free book graph id := by
  constructor
  · intro free place chain loop
    obtain ⟨along, inside⟩ := chain_grows steady grounded grows chain
    exact free place along ((loop_iff steady inside grows).mpr loop)
  · intro free place chain loop
    obtain ⟨along, inside⟩ := chain_of_grows steady grounded grows chain
    exact free place along ((loop_iff steady inside grows).mp loop)

end Growing

theorem Free.of_needs (free : start.Free book graph id) (needs : start.Needs book graph id part) :
    start.Free book graph part :=
  fun place chain => free place (.head needs chain)

/-- A cycle that is met from a node is met from one of its parts, even where the node is on it. -/
theorem Free.of_parts (each : ∀ part, start.Needs book graph id part → start.Free book graph part) :
    start.Free book graph id := by
  intro place chain loop
  rcases ReflTransGen.cases_head chain with rfl | ⟨part, needs, onward⟩
  · obtain ⟨part, needs, back⟩ := TransGen.head'_iff.mp loop
    exact each part needs id back loop
  · exact each part needs place onward loop

/-! ## Replaced nodes -/

section Replaced

variable (steady : book.Steady) (grounded : graph.GroundedFrom id)
  (unknown : start.code? id = none) (lowered : book.lower graph id = .ok (.replaced later new))

include steady grounded unknown lowered

/-- Old nodes that are met from what takes the place of a node are met from the node itself. -/
theorem loop_of_replaced (old : place < graph.size)
    (chain : TransGen (start.Needs book later) new place) :
    TransGen (start.Needs book graph) id place := by
  have takes := steady.takesPlace lowered
  have through {part : NodeId} (part_of : book.PartOf graph id part)
      (onward : ReflTransGen (start.Needs book later) part place) :
      TransGen (start.Needs book graph) id place := by
    have inside := grounded.of_operand part_of.uses
    exact .head' ⟨unknown, part_of⟩ (chain_of_grows steady inside takes.grows onward).1
  obtain ⟨part, outer, onward⟩ := TransGen.head'_iff.mp chain
  rcases takes.of_outer lowered outer.2 with rfl | part_of
  · rcases ReflTransGen.cases_head onward with rfl | ⟨part, inner, rest⟩
    · exact absurd old (Nat.lt_irrefl _)
    · exact through (takes.of_inner lowered inner.2) rest
  · exact through part_of onward

/-- No cycle is met from what takes the place of a node where none is met from the node. -/
theorem Free.replaced (free : start.Free book graph id) : start.Free book later new := by
  have takes := steady.takesPlace lowered
  have each {part : NodeId} (part_of : book.PartOf graph id part) : start.Free book later part :=
    (free_iff steady (grounded.of_operand part_of.uses) takes.grows).mpr
      (free.of_needs ⟨unknown, part_of⟩)
  apply Free.of_parts
  intro part outer
  rcases takes.of_outer lowered outer.2 with rfl | part_of
  · apply Free.of_parts
    intro part inner
    exact each (takes.of_inner lowered inner.2)
  · exact each part_of

end Replaced

/-! ## Chains of dependencies -/

/-- Dependencies stay on the ground and meet no cycle of parts where none was met before. -/
theorem Pursues.free (steady : book.Steady) {source next : Graph × NodeId}
    (pursues : start.Pursues book source next) (grounded : source.1.GroundedFrom source.2)
    (free : start.Free book source.1 source.2) :
    next.1.GroundedFrom next.2 ∧ start.Free book next.1 next.2 := by
  obtain ⟨unknown, depends⟩ := pursues
  cases depends with
  | operand role kept uses =>
    have part_of := RuleBook.partOf_of_unreplaced kept role uses
    exact ⟨grounded.of_operand uses, free.of_needs ⟨unknown, part_of⟩⟩
  | replacement role lowered =>
    exact ⟨grounded.replaced (steady.takesPlace lowered),
      free.replaced steady grounded unknown lowered⟩

/-- A chain of dependencies to an old node is one of parts, without the new nodes between. -/
theorem loop_of_pursues (steady : book.Steady) {source : Graph × NodeId}
    (chain : TransGen (start.Pursues book) source (later, place))
    (grounded : source.1.GroundedFrom source.2) (old : place < source.1.size) :
    TransGen (start.Needs book source.1) source.2 place := by
  induction chain using TransGen.head_induction_on with
  | single pursues =>
    obtain ⟨unknown, depends⟩ := pursues
    cases depends with
    | operand role kept uses =>
      exact .single ⟨unknown, RuleBook.partOf_of_unreplaced kept role uses⟩
    | replacement role lowered =>
      rw [(steady.takesPlace lowered).last] at old
      exact absurd old (Nat.not_lt_of_le (Nat.le_succ _))
  | head pursues _ ih =>
    obtain ⟨unknown, depends⟩ := pursues
    cases depends with
    | operand role kept uses =>
      have onward := ih (grounded.of_operand uses) old
      exact .head ⟨unknown, RuleBook.partOf_of_unreplaced kept role uses⟩ onward
    | replacement role lowered =>
      have takes := steady.takesPlace lowered
      have onward := ih (grounded.replaced takes) (Nat.lt_of_lt_of_le old takes.grows.size)
      exact loop_of_replaced steady grounded unknown lowered old onward

section Ahead

variable (steady : book.Steady) (fresh : ∀ place, start.graph.size ≤ place → start.code? place = none)

include steady fresh

/-- A node leads to each of its parts, in a larger graph where it is replaced. -/
theorem Needs.pursues (grown : start.graph.Grows graph)
    (needs : start.Needs book graph id part) :
    ∃ later, graph.Grows later ∧ TransGen (start.Pursues book) (graph, id) (later, part) := by
  by_cases kept : ∀ later new, book.lower graph id ≠ .ok (.replaced later new)
  · exact ⟨graph, .refl graph, .single ⟨needs.1, .operand needs.2.role kept needs.2.uses⟩⟩
  · push Not at kept
    obtain ⟨later, new, lowered⟩ := kept
    have takes := steady.takesPlace lowered
    have unknown : start.code? new = none := by
      apply fresh
      rw [takes.last]
      exact Nat.le_succ_of_le grown.size
    have outer := takes.partOf lowered needs.2
    refine ⟨later, takes.grows, .tail (.single ⟨needs.1, .replacement needs.2.role lowered⟩) ?_⟩
    exact ⟨unknown, .operand outer.role takes.keptOuter outer.uses⟩

/-- A chain of parts is followed by dependencies, from every graph that has grown. -/
theorem pursues_of_chain (grounded : graph.GroundedFrom id) (grown : start.graph.Grows larger)
    (grows : graph.Grows larger) (chain : ReflTransGen (start.Needs book graph) id place) :
    ∃ later, larger.Grows later ∧ ReflTransGen (start.Pursues book) (larger, id) (later, place) := by
  induction chain with
  | refl => exact ⟨larger, .refl larger, .refl⟩
  | tail along last ih =>
    obtain ⟨middle, wider, pursues⟩ := ih
    have inside := (chain_grows steady grounded grows along).2
    have here := (needs_iff steady inside (grows.trans wider)).mpr last
    obtain ⟨later, widest, onward⟩ := here.pursues steady fresh (grown.trans wider)
    exact ⟨later, wider.trans widest, pursues.trans onward.to_reflTransGen⟩

/-- A cycle of dependencies is ahead exactly where a cycle of parts is met. -/
theorem cycleAhead_iff {root : NodeId} (grounded : start.graph.GroundedFrom root) :
    start.CycleAhead book root ↔ ¬ start.Free book start.graph root := by
  constructor
  · rintro ⟨graph, later, id, chain, loop⟩ free
    have reached : graph.GroundedFrom id ∧ start.Free book graph id := by
      clear loop
      generalize same : (graph, id) = position at chain
      suffices position.1.GroundedFrom position.2 ∧ start.Free book position.1 position.2 by
        rw [← same] at this
        exact this
      clear same
      induction chain with
      | refl => exact ⟨grounded, free⟩
      | tail _ pursues ih => exact pursues.free steady ih.1 ih.2
    exact reached.2 id .refl (loop_of_pursues steady loop reached.1 reached.1.lt_size)
  · intro met
    unfold Free at met
    push Not at met
    obtain ⟨id, chain, loop⟩ := met
    have inside := (chain_grows steady grounded (.refl _) chain).2
    obtain ⟨graph, grown, toward⟩ := pursues_of_chain steady fresh grounded (.refl _) (.refl _) chain
    obtain ⟨part, needs, back⟩ := TransGen.head'_iff.mp loop
    have here := (needs_iff steady inside grown).mpr needs
    obtain ⟨middle, wider, first⟩ := here.pursues steady fresh grown
    obtain ⟨later, _, rest⟩ := pursues_of_chain steady fresh (needs.grounded inside)
      (grown.trans wider) (grown.trans wider) back
    exact ⟨graph, later, id, toward, first.trans_left rest⟩

end Ahead

end Generator

end Retarget
