import Retarget.Proofs.Graph.Bodies
import Retarget.Proofs.Rule.Reselection

/-!
# Promotion a second time

Promotion finds nothing more to do in a graph that it made (`Graph.promote_promote`). A promoted node
has a register format, which has no register of its own. A node that was refused sees the formats and
the leaves that it saw before, through stores where its operands were promoted, so it is refused
again. The conversions in between are never promoted.
-/

namespace Retarget

open List

/-- The guards that a rule may ask: one that always holds, one that never does, and those that look
for a tag or for a constant divisor. -/
inductive Guard.Basic : Guard → Prop where
  | holds : Basic fun _ _ => true
  | fails : Basic fun _ _ => false
  | tagged : Basic Guard.tagged
  | divisor : Basic Guard.powerOfTwoDivisor

/-- Every guard of a book is a basic one. -/
def RuleBook.BasicGuards (book : RuleBook) : Prop :=
  ∀ entry ∈ book.groups, ∀ guard, entry.2.guard = some guard → guard.Basic

theorem RuleBook.BasicGuards.basic {book : RuleBook} (basic : book.BasicGuards) {key : RuleKey}
    {group : RuleGroup} (known : group ∈ book.groupsFor key) {guard : Guard}
    (guarded : group.guard = some guard) : guard.Basic := by
  obtain ⟨entry, member, keyed⟩ := mem_filterMap.mp known
  split at keyed
  · cases keyed
    exact basic entry member guard guarded
  · cases keyed

/-- No format is both promoted and the register of another one. -/
def Promotions.Settled (promotions : Promotions) : Prop :=
  ∀ format register, promotions.get? format = some register → promotions.get? register = none

/-- It is enough to look at the registers that are entered. -/
theorem Promotions.Settled.of_entries {promotions : Promotions}
    (unmapped : ∀ entry ∈ promotions.entries, promotions.get? entry.2 = none) :
    promotions.Settled := by
  intro format register mapped
  exact unmapped (format, register) (OrderedMap.mem_of_lookup mapped)

namespace Graph

variable {graph : Graph} {id : NodeId} {promotions : Promotions} {book : RuleBook}

/-- Only leaves carry a value of their own. -/
def LeafPayloads (graph : Graph) : Prop :=
  ∀ id, (graph.node id).operation.role ≠ .leaf → (graph.node id).payload = .none

/-- A divisor is looked up alike where the operands have the same values of their own. -/
theorem powerOfTwoDivisor_eq_of_payloads {other : Graph}
    (same : ((other.node id).operands.map fun operand => (other.node operand).payload) =
      (graph.node id).operands.map fun operand => (graph.node operand).payload) :
    Guard.powerOfTwoDivisor other id = Guard.powerOfTwoDivisor graph id := by
  have second := congrArg (·[1]?) same
  simp only [getElem?_map] at second
  unfold Guard.powerOfTwoDivisor
  cases found : (other.node id).operands[1]? with
  | none =>
    cases before : (graph.node id).operands[1]? with
    | none => rfl
    | some divisor =>
      rw [found, before] at second
      cases second
  | some new =>
    cases before : (graph.node id).operands[1]? with
    | none =>
      rw [found, before] at second
      cases second
    | some divisor =>
      rw [found, before, Option.map_some, Option.map_some, Option.some.injEq] at second
      dsimp only
      rw [second]

/-- Where nothing that the root reaches is chosen, promotion does nothing. -/
theorem promote_eq_self {root : NodeId}
    (none : ∀ id, graph.Reaches root id → graph.isPromoted promotions book id = false) :
    graph.promote root promotions book = (graph, 0) := by
  have empty : (graph.reachable root).filter (graph.isPromoted promotions book) = [] := by
    apply filter_eq_nil_iff.mpr
    intro id member
    rw [none id ((mem_reachable graph root id).mp member)]
    exact Bool.false_ne_true
  unfold promote
  simp only [empty, isEmpty_nil, ↓reduceIte, ite_self]

theorem isPromoted_of_unmapped (unmapped : promotions.get? (graph.node id).format = none) :
    graph.isPromoted promotions book id = false := by
  simp only [isPromoted, unmapped, Bool.and_false]

theorem role_of_isPromoted (chosen : graph.isPromoted promotions book id = true) :
    (graph.node id).operation.role = .value := by
  simp only [isPromoted, Bool.and_eq_true, decide_eq_true_eq] at chosen
  exact chosen.1.1

namespace Rewired

variable {before after : Graph} {promotions : Promotions} {promoted : List NodeId} {root : NodeId}
  {state : Promoting} {id : NodeId} {book : RuleBook}
  (rewired : Rewired before after promotions promoted root state)

include rewired

section

variable (leaves : before.LeafPayloads)
  (values : ∀ id ∈ promoted, (before.node id).operation.role = .value)
  (reached : before.Reaches root id) (outside : id ∉ promoted)

include leaves values reached outside

/-- What a refused node uses has the values that its operands had: a promoted operand had none, and
neither has its store. -/
theorem payloads_eq :
    ((after.node id).operands.map fun operand => (after.node operand).payload) =
      (before.node id).operands.map fun operand => (before.node operand).payload := by
  apply map_eq_map_of_forall₂ (rewired.operands_replaced reached)
  intro operand new both
  obtain ⟨operandReached, replaces⟩ := both
  have original := rewired.original operandReached
  unfold Promoting.Replaces at replaces
  by_cases member : operand ∈ promoted
  · simp only [outside, member, decide_false, decide_true, Bool.false_and, Bool.false_eq_true,
      Bool.not_false, Bool.and_self, ↓reduceIte] at replaces
    obtain ⟨added, _, _, _, node⟩ := rewired.rewiring.store operand new replaces
    have bare : (before.node operand).payload = .none := by
      apply leaves
      rw [values operand member]
      intro leaf
      cases leaf
    rw [rewired.node_of_size_le added, node, bare]
    rfl
  · simp only [outside, member, decide_false, Bool.false_and, Bool.and_false, Bool.false_eq_true,
      ↓reduceIte] at replaces
    rw [replaces, rewired.payload_eq original]

/-- A group applies to a refused node as it did before. -/
theorem applies_eq {group : RuleGroup} (basic : ∀ guard, group.guard = some guard → guard.Basic) :
    group.applies after id = group.applies before id := by
  unfold RuleGroup.applies
  cases guarded : group.guard with
  | none => rfl
  | some guard =>
    cases basic guard guarded with
    | holds => rfl
    | fails => rfl
    | tagged =>
      obtain ⟨_, _, tag, _⟩ := rewired.promotedTo.kept id (rewired.original reached)
      simp only [Guard.tagged, tag]
    | divisor =>
      exact powerOfTwoDivisor_eq_of_payloads
        (rewired.payloads_eq leaves values reached outside)

/-- A node that is refused would be lowered with other formats exactly where it would have been
before. -/
theorem lowers_eq (basic : book.BasicGuards) (result : Format) (operands : List Format) :
    book.lowers after id result operands = book.lowers before id result operands := by
  obtain ⟨operation, specifier, _⟩ := rewired.promotedTo.kept id (rewired.original reached)
  unfold RuleBook.lowers
  dsimp only
  rw [operation, specifier, Bool.eq_iff_iff, RuleBook.isSome_find?_iff, RuleBook.isSome_find?_iff]
  apply exists_congr
  intro group
  apply and_congr_right
  intro known
  rw [rewired.applies_eq leaves values reached outside fun _ => basic.basic known]

/-- A refused node is refused again. -/
theorem isPromoted_eq (basic : book.BasicGuards) :
    after.isPromoted promotions book id = before.isPromoted promotions book id := by
  unfold isPromoted
  dsimp only
  rw [rewired.operation_eq (rewired.original reached),
    rewired.promotedTo.other_format id reached outside,
    rewired.promotedTo.other_operands id reached outside]
  simp only [rewired.lowers_eq leaves values reached outside basic]

end

/-- A promoted node has a register format, which is promoted no further. -/
theorem isPromoted_of_mem (settled : promotions.Settled) (member : id ∈ promoted)
    (chosen : before.isPromoted promotions book id = true) :
    after.isPromoted promotions book id = false := by
  apply isPromoted_of_unmapped
  rw [rewired.promotedTo.chosen_format id member]
  cases mapped : promotions.get? (before.node id).format with
  | none =>
    rw [isPromoted_of_unmapped mapped] at chosen
    cases chosen
  | some register =>
    rw [Promotions.apply, mapped, Option.getD_some]
    exact settled _ _ mapped

/-- What promotion added is a boundary, and what lies outside of the graph computes nothing. -/
theorem isPromoted_of_size_le (added : before.size ≤ id) :
    after.isPromoted promotions book id = false := by
  by_cases inside : id < after.size
  · obtain ⟨source, _, format, node, _⟩ := rewired.added_spec added inside
    unfold isPromoted
    rw [node]
    rfl
  · unfold isPromoted
    rw [Graph.node_of_size_le (Nat.le_of_not_lt inside)]
    rfl

end Rewired

/-- Promotion is idempotent: a second run on the graph that it made promotes no node and changes
nothing. -/
theorem promote_promote (graph : Graph) (root : NodeId) (promotions : Promotions)
    (book : RuleBook) (grounded : ∀ id, graph.Reaches root id → id < graph.size)
    (leaves : graph.LeafPayloads) (basic : book.BasicGuards) (settled : promotions.Settled) :
    (graph.promote root promotions book).1.promote root promotions book =
      ((graph.promote root promotions book).1, 0) := by
  rcases promote_rewires graph root promotions book grounded rfl with
    ⟨_, unchanged⟩ | ⟨state, rewired, _⟩
  · rw [unchanged]
    exact unchanged
  have chosen (id : NodeId) (member : id ∈ (graph.reachable root).filter
      (graph.isPromoted promotions book)) : graph.isPromoted promotions book id = true :=
    (mem_filter.mp member).2
  apply promote_eq_self
  intro id reachedAfter
  by_cases old : id < graph.size
  · have reached : graph.Reaches root id := by
      have stands := rewired.reaches reachedAfter
      rwa [unconverted, if_pos old] at stands
    by_cases member : id ∈ (graph.reachable root).filter (graph.isPromoted promotions book)
    · exact rewired.isPromoted_of_mem settled member (chosen id member)
    · have refused : graph.isPromoted promotions book id = false := by
        rw [mem_filter, mem_reachable, not_and] at member
        exact Bool.eq_false_iff.mpr (member reached)
      rw [← refused]
      exact rewired.isPromoted_eq leaves (fun id member => role_of_isPromoted (chosen id member))
        reached member basic
  · exact rewired.isPromoted_of_size_le (Nat.le_of_not_lt old)

/-- A vector divided by the sum of itself with itself. -/
def halves : Graph where
  nodes := #[
    { operation := .variable, format := .vector .binary32 8, payload := .variable "x" },
    { operation := .addition, operands := [0, 0], format := .vector .binary32 8 },
    { operation := .division, operands := [0, 1], format := .vector .binary32 8 },
    { operation := .ret, operands := [2], format := .void }]

/-- Sums of registers, and quotients of registers where the divisor is a constant. -/
def sumsAndQuotients : RuleBook :=
  registerSums.layeredOn (RuleBook.quotientsWhere "power of two" Guard.powerOfTwoDivisor)

/-- The sum is promoted and the quotient is refused, since its divisor is no constant. It is refused
again when it divides by the store of the sum. -/
theorem promote_promote_halves :
    (∀ id, halves.Reaches 3 id → id < halves.size) ∧ halves.LeafPayloads ∧
      sumsAndQuotients.BasicGuards ∧ eightFloats.Settled ∧
      (halves.promote 3 eightFloats sumsAndQuotients).2 = 1 ∧
      (halves.promote 3 eightFloats sumsAndQuotients).1.promote 3 eightFloats sumsAndQuotients =
        ((halves.promote 3 eightFloats sumsAndQuotients).1, 0) := by
  have grounded (id : NodeId) (reached : halves.Reaches 3 id) : id < halves.size :=
    reached.lt_size (by decide) (by decide)
  have leaves : halves.LeafPayloads := by
    intro id computed
    by_cases inside : id < 4
    · interval_cases id
      · exact absurd rfl computed
      all_goals rfl
    · rw [node_of_size_le (Nat.le_of_not_lt inside)]
      rfl
  have basic : sumsAndQuotients.BasicGuards := by
    intro entry member guard guarded
    rcases mem_append.mp member with sums | quotients
    · cases mem_singleton.mp sums
      cases guarded
    · cases mem_singleton.mp quotients
      cases guarded
      exact .divisor
  have settled : eightFloats.Settled := .of_entries (by decide)
  exact ⟨grounded, leaves, basic, settled, by cbv,
    promote_promote halves 3 eightFloats sumsAndQuotients grounded leaves basic settled⟩

end Graph

end Retarget
