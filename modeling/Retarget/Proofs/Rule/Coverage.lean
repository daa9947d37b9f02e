import Retarget.Proofs.Graph.Bodies
import Retarget.Proofs.Rule.Reselection

/-!
# Rules for all that a node reaches

A book covers a node where it has a rule for it. Where the guards of a book ask for nothing but
constant divisors of numbers, coverage depends on the formats and leaves that a node sees
(`RuleBook.Guarded.covers`), so it is kept while a graph grows. Promotion keeps it as well
(`RuleBook.CoversFrom.promote`): nodes that stay in memory see the formats they saw before, promoted
ones have a rule for their registers, and the conversions in between have rules of their own.
-/

namespace Retarget

open List

/-- Two graphs agree on a node but for its tag, and on the formats and leaves that it sees. -/
structure Graph.Alike (graph other : Graph) (id : NodeId) : Prop where
  node : ∃ tag, other.node id = { graph.node id with tag }
  format : ∀ operand ∈ (graph.node id).operands,
    (other.node operand).format = (graph.node operand).format
  payload : ∀ operand ∈ (graph.node id).operands,
    (other.node operand).payload = (graph.node operand).payload

namespace Graph.Alike

variable {graph other larger : Graph} {id : NodeId}

section

variable (alike : graph.Alike other id)

include alike

theorem ruleKey_eq : other.ruleKey id = graph.ruleKey id := by
  obtain ⟨tag, same⟩ := alike.node
  rw [ruleKey, ruleKey, same]

theorem format_eq : (other.node id).format = (graph.node id).format := by
  obtain ⟨tag, same⟩ := alike.node
  rw [same]

theorem operands_eq : (other.node id).operands = (graph.node id).operands := by
  obtain ⟨tag, same⟩ := alike.node
  rw [same]

theorem operandFormats_eq : other.operandFormats id = graph.operandFormats id := by
  unfold operandFormats
  rw [alike.operands_eq]
  exact map_congr_left alike.format

/-- A divisor is looked up alike in graphs that are alike. -/
theorem powerOfTwoDivisor_eq :
    Guard.powerOfTwoDivisor other id = Guard.powerOfTwoDivisor graph id := by
  unfold Guard.powerOfTwoDivisor
  rw [alike.operands_eq]
  cases uses : (graph.node id).operands[1]? with
  | none => rfl
  | some divisor =>
    dsimp only
    rw [alike.payload divisor (mem_of_getElem? uses)]

end

/-- Nodes whose operands are in the graph are alike when it has grown. -/
theorem of_grows (grows : graph.Grows larger) (inside : id < graph.size)
    (operands : ∀ operand ∈ (graph.node id).operands, operand < graph.size) :
    graph.Alike larger id :=
  ⟨grows.node id inside, fun operand uses => grows.format_eq (operands operand uses),
    fun operand uses => grows.payload_eq (operands operand uses)⟩

theorem symm (alike : graph.Alike other id) : other.Alike graph id := by
  have same := alike.operands_eq
  refine ⟨?_, fun operand uses => ?_, fun operand uses => ?_⟩
  · obtain ⟨tag, node⟩ := alike.node
    exact ⟨(graph.node id).tag, by rw [node]⟩
  · rw [same] at uses
    exact (alike.format operand uses).symm
  · rw [same] at uses
    exact (alike.payload operand uses).symm

theorem trans (first : graph.Alike other id) (second : other.Alike larger id) :
    graph.Alike larger id := by
  have same := first.operands_eq
  refine ⟨?_, fun operand uses => ?_, fun operand uses => ?_⟩
  · obtain ⟨_, node⟩ := first.node
    obtain ⟨tag, later⟩ := second.node
    exact ⟨tag, by rw [later, node]⟩
  · rw [second.format operand (same ▸ uses), first.format operand uses]
  · rw [second.payload operand (same ▸ uses), first.payload operand uses]

end Graph.Alike

/-- A group without a guard, or one for numbers with a constant divisor. -/
def RuleGroup.Guarded (group : RuleGroup) : Prop :=
  group.guard = none ∨ (group.guard = some Guard.powerOfTwoDivisor ∧
    ∀ rule ∈ group.rules, rule.signature = .family .float 2)

/-- Such a group applies alike to nodes with the same divisor. -/
theorem RuleGroup.Guarded.applies_eq {group : RuleGroup} (guarded : group.Guarded)
    {graph other : Graph} {id partner : NodeId}
    (divisor : Guard.powerOfTwoDivisor graph id = Guard.powerOfTwoDivisor other partner) :
    group.applies graph id = group.applies other partner := by
  unfold RuleGroup.applies
  rcases guarded with free | ⟨divides, _⟩
  · rw [free]
  · rw [divides]
    exact divisor

namespace RuleBook

theorem find?_eq_of_divisor {groups : List RuleGroup}
    (guarded : ∀ group ∈ groups, group.Guarded) {graph other : Graph} {id partner : NodeId}
    (divisor : Guard.powerOfTwoDivisor graph id = Guard.powerOfTwoDivisor other partner)
    (result : Format) (operands : List Format) :
    find? groups graph id result operands = find? groups other partner result operands := by
  induction groups with
  | nil => rfl
  | cons group rest ih =>
    obtain ⟨here, others⟩ := forall_mem_cons.mp guarded
    unfold find? at ih ⊢
    rw [findSome?_cons, findSome?_cons, here.applies_eq divisor, ih others]

/-- Some rule is for a node. -/
def Covers (book : RuleBook) (graph : Graph) (id : NodeId) : Prop :=
  ∃ action, book.select graph id = .ok action

/-- Some rule is for every computed value that a node reaches. -/
def CoversFrom (book : RuleBook) (graph : Graph) (root : NodeId) : Prop :=
  ∀ id, graph.Reaches root id → (graph.node id).operation.role = .value → book.Covers graph id

/-- All groups of a book are without a guard, or for numbers with a constant divisor. -/
def Guarded (book : RuleBook) : Prop :=
  ∀ entry ∈ book.groups, entry.2.Guarded

theorem Guarded.layeredOn {book base : RuleBook} (own : book.Guarded) (inherited : base.Guarded) :
    (book.layeredOn base).Guarded :=
  forall_mem_append.mpr ⟨own, inherited⟩

theorem Guarded.ofRules (entries : List (RuleKey × List Rule)) :
    (RuleBook.ofRules entries).Guarded := by
  intro entry member
  obtain ⟨_, _, rfl⟩ := mem_map.mp member
  exact .inl rfl

theorem Guarded.group {book : RuleBook} (guarded : book.Guarded) {key : RuleKey} {group : RuleGroup}
    (known : group ∈ book.groupsFor key) : group.Guarded := by
  obtain ⟨entry, member, keyed⟩ := mem_filterMap.mp known
  split at keyed
  · cases keyed
    exact guarded entry member
  · cases keyed

section

variable {book : RuleBook} {graph other : Graph} {id root : NodeId}

theorem covers_of_lower {lowering : Lowering} (lowered : book.lower graph id = .ok lowering) :
    book.Covers graph id := by
  cases selected : book.select graph id with
  | error fault =>
    rw [lower, selected] at lowered
    cases lowered
  | ok action => exact ⟨action, selected⟩

theorem Guarded.covers (guarded : book.Guarded) (alike : graph.Alike other id)
    (covers : book.Covers graph id) : book.Covers other id := by
  obtain ⟨group, known, applies, accepted⟩ := exists_select_iff.mp covers
  refine exists_select_iff.mpr ⟨group, ?_, ?_, ?_⟩
  · rw [alike.ruleKey_eq]
    exact known
  · exact ((guarded.group known).applies_eq alike.powerOfTwoDivisor_eq).trans applies
  · rw [alike.format_eq, alike.operandFormats_eq]
    exact accepted

end

end RuleBook

/-- No format of numbers is promoted, and no register is one. -/
def Promotions.OffNumbers (promotions : Promotions) : Prop :=
  ∀ format register, promotions.get? format = some register →
    format.isFloat = false ∧ register.isFloat = false

/-- A rule for two values of a family accepts nothing but values of that family. -/
theorem Signature.contains_of_accepts {family : Format.Family} {result : Format}
    {operands : List Format} (accepted : (Signature.family family 2).accepts result operands = true) :
    family.contains result = true ∧ ∀ operand ∈ operands, family.contains operand = true := by
  simp only [accepts, Bool.and_eq_true, decide_eq_true_eq] at accepted
  obtain ⟨⟨two, result⟩, each⟩ := accepted
  obtain ⟨first, second, rfl⟩ := length_eq_two.mp two.symm
  refine ⟨result, ?_⟩
  simpa [Signature.family, List.replicate, Matcher.accepts] using each

namespace Graph

variable {before after : Graph} {promotions : Promotions} {promoted : List NodeId} {root : NodeId}
  {state : Promoting} {id : NodeId}

theorem exists_register_of_isPromoted {graph : Graph} {book : RuleBook}
    (chosen : graph.isPromoted promotions book id = true) :
    ∃ register, promotions.get? (graph.node id).format = some register := by
  unfold isPromoted at chosen
  dsimp only at chosen
  cases mapped : promotions.get? (graph.node id).format with
  | none =>
    rw [mapped, Bool.and_false] at chosen
    cases chosen
  | some register => exact ⟨register, rfl⟩

/-- A node that is not promoted and that computes with numbers has its divisor as before. -/
theorem Rewired.powerOfTwoDivisor_eq (rewired : Rewired before after promotions promoted root state)
    (reached : before.Reaches root id) (outside : id ∉ promoted)
    (away : ∀ operand ∈ (before.node id).operands, operand ∉ promoted) :
    Guard.powerOfTwoDivisor after id = Guard.powerOfTwoDivisor before id := by
  have same := eq_of_forall₂_kept (rewired.operands_kept (rewired.original reached) outside) away
  unfold Guard.powerOfTwoDivisor
  rw [same]
  cases uses : (before.node id).operands[1]? with
  | none => rfl
  | some divisor =>
    have inside := rewired.original (reached.tail (mem_of_getElem? uses))
    dsimp only
    rw [rewired.payload_eq inside]

end Graph

namespace RuleBook

variable {book : RuleBook} {graph after : Graph} {root id : NodeId} {promotions : Promotions}
  {promoted : List NodeId} {state : Promoting}

section

variable (guarded : book.Guarded) (offNumbers : promotions.OffNumbers)
  (rewired : graph.Rewired after promotions promoted root state)

include guarded offNumbers rewired

/-- A promoted node has a rule for its registers, which is none for numbers, so no guard stands
before it. -/
theorem Guarded.covers_promoted (member : id ∈ promoted)
    (chosen : graph.isPromoted promotions book id = true) : book.Covers after id := by
  have promotedTo := rewired.promotedTo
  obtain ⟨operation, specifier, _⟩ :=
    promotedTo.kept id (rewired.original (rewired.reached id member))
  have key : after.ruleKey id = graph.ruleKey id := by
    rw [Graph.ruleKey, Graph.ruleKey, operation, specifier]
  obtain ⟨register, mapped⟩ := Graph.exists_register_of_isPromoted chosen
  obtain ⟨group, known, _, rule, inGroup, accepted⟩ := Graph.exists_rule_of_isPromoted chosen
  have free : group.guard = none := by
    rcases guarded.group known with free | ⟨_, numbers⟩
    · exact free
    · rw [numbers rule inGroup, Promotions.apply, mapped, Option.getD_some] at accepted
      have isNumber : register.isFloat = true := (Signature.contains_of_accepts accepted).1
      rw [(offNumbers _ _ mapped).2] at isNumber
      cases isNumber
  refine exists_select_iff.mpr ⟨group, ?_, ?_, rule, inGroup, ?_⟩
  · rw [key]
    exact known
  · rw [RuleGroup.applies, free]
  · rw [promotedTo.chosen_format id member, promotedTo.chosen_operands id member]
    exact accepted

/-- A node that is not promoted sees the formats that it saw before. -/
theorem Guarded.covers_unpromoted
    (chosen : ∀ id ∈ promoted, graph.isPromoted promotions book id = true)
    (reached : graph.Reaches root id) (outside : id ∉ promoted) (covers : book.Covers graph id) :
    book.Covers after id := by
  have promotedTo := rewired.promotedTo
  obtain ⟨operation, specifier, _⟩ := promotedTo.kept id (rewired.original reached)
  have key : after.ruleKey id = graph.ruleKey id := by
    rw [Graph.ruleKey, Graph.ruleKey, operation, specifier]
  obtain ⟨group, known, applies, rule, inGroup, accepted⟩ := exists_select_iff.mp covers
  refine exists_select_iff.mpr ⟨group, ?_, ?_, rule, inGroup, ?_⟩
  · rw [key]
    exact known
  · unfold RuleGroup.applies at applies ⊢
    rcases guarded.group known with free | ⟨divides, numbers⟩
    · rw [free]
    · rw [divides] at applies ⊢
      rw [numbers rule inGroup] at accepted
      refine (rewired.powerOfTwoDivisor_eq reached outside fun operand uses inside => ?_).trans applies
      obtain ⟨register, mapped⟩ := Graph.exists_register_of_isPromoted (chosen operand inside)
      have isNumber : (graph.node operand).format.isFloat = true :=
        (Signature.contains_of_accepts accepted).2 _ (mem_map_of_mem uses)
      rw [(offNumbers _ _ mapped).1] at isNumber
      cases isNumber
  · rw [promotedTo.other_format id reached outside, promotedTo.other_operands id reached outside]
    exact accepted

end

/-- Coverage is kept by promotion. -/
theorem CoversFrom.promote (covers : book.CoversFrom graph root) (guarded : book.Guarded)
    (offNumbers : promotions.OffNumbers)
    (converts : ∀ (graph : Graph) id source format,
      graph.node id = .conversionOf source format → book.Covers graph id)
    (grounded : ∀ id, graph.Reaches root id → id < graph.size) :
    book.CoversFrom (graph.promote root promotions book).1 root := by
  rcases graph.promote_rewires root promotions book grounded rfl with
    ⟨_, same⟩ | ⟨state, rewired, _⟩
  · rw [same]
    exact covers
  have chosen (id : NodeId) (member : id ∈ (graph.reachable root).filter
      (graph.isPromoted promotions book)) : graph.isPromoted promotions book id = true :=
    (mem_filter.mp member).2
  intro id reached role
  by_cases old : id < graph.size
  · have stays : (graph.promote root promotions book).1.unconverted graph.size id = id := if_pos old
    have before := rewired.reaches reached
    rw [stays] at before
    rw [rewired.operation_eq old] at role
    by_cases member : id ∈ (graph.reachable root).filter (graph.isPromoted promotions book)
    · exact guarded.covers_promoted offNumbers rewired member (chosen id member)
    · exact guarded.covers_unpromoted offNumbers rewired chosen before member (covers id before role)
  · have inside := Graph.lt_size_of_value role
    obtain ⟨source, _, format, node, _⟩ := rewired.added_spec (Nat.le_of_not_lt old) inside
    exact converts _ id source format node

end RuleBook

end Retarget
