import Retarget.Proofs.Rule.Promotion
import Retarget.Proofs.Rule.Shadowing

/-!
# Selection after promotion

Promotion chooses a node where some rule accepts the registers that the node would have, and it asks
the guards of the rules on the graph that it finds. A guard is asked again when the promoted node is
lowered, on a graph in which loads stand in for operands. So a rule is selected for a promoted node
exactly where a group with a rule for its registers applies to the promoted graph
(`RuleBook.select_promoted`). A guard that looks at a constant operand may no longer hold there
(`RuleBook.select_quarter`).
-/

namespace Retarget

open List

namespace RuleBook

/-- A search of groups finds a rule where one of them applies and has a rule for the formats. -/
theorem isSome_find?_iff {groups : List RuleGroup} {graph : Graph} {id : NodeId} {result : Format}
    {operands : List Format} :
    (find? groups graph id result operands).isSome = true ↔
      ∃ group ∈ groups, group.applies graph id = true ∧
        ∃ rule ∈ group.rules, rule.signature.accepts result operands = true := by
  rw [find?, findSome?_isSome_iff]
  refine exists_congr fun group => and_congr_right fun _ => ?_
  by_cases applies : group.applies graph id = true
  · rw [if_pos applies, find?_isSome]
    exact (and_iff_right applies).symm
  · rw [if_neg applies]
    exact iff_of_false Bool.false_ne_true fun both => applies both.1

/-- A rule is selected for a node where one of the groups for its operation applies and has a rule
for its formats. -/
theorem exists_select_iff {book : RuleBook} {graph : Graph} {id : NodeId} :
    (∃ action, book.select graph id = .ok action) ↔
      ∃ group ∈ book.groupsFor (graph.ruleKey id), group.applies graph id = true ∧
        ∃ rule ∈ group.rules,
          rule.signature.accepts (graph.node id).format (graph.operandFormats id) = true := by
  rw [← isSome_find?_iff, find?_eq_chosen?, Option.isSome_map, Option.isSome_iff_exists]
  constructor
  · rintro ⟨action, selected⟩
    obtain ⟨entry, chosen, _⟩ := (book.select_eq_ok_iff_chosen? graph id action).mp selected
    exact ⟨entry, chosen⟩
  · rintro ⟨entry, chosen⟩
    exact ⟨_, (book.select_eq_ok_iff_chosen? graph id _).mpr ⟨entry, chosen, rfl⟩⟩

end RuleBook

namespace Graph

variable {before after : Graph} {promotions : Promotions} {promoted : List NodeId} {root : NodeId}
  {state : Promoting} {id : NodeId}

/-- A chosen node has a rule for its registers, in a group that applies to it as it stands. -/
theorem exists_rule_of_isPromoted {graph : Graph} {book : RuleBook}
    (chosen : graph.isPromoted promotions book id = true) :
    ∃ group ∈ book.groupsFor (graph.ruleKey id), group.applies graph id = true ∧
      ∃ rule ∈ group.rules,
        rule.signature.accepts (promotions.apply (graph.node id).format)
          ((graph.operandFormats id).map promotions.apply) = true := by
  unfold isPromoted at chosen
  dsimp only at chosen
  cases mapped : promotions.get? (graph.node id).format with
  | none =>
    rw [mapped, Bool.and_false] at chosen
    cases chosen
  | some register =>
    have applied : promotions.apply (graph.node id).format = register := by
      rw [Promotions.apply, mapped, Option.getD_some]
    rw [mapped, Bool.and_eq_true] at chosen
    rw [applied]
    exact RuleBook.isSome_find?_iff.mp chosen.2

/-- A promoted node uses an operand as it is where the format of the operand has no register. -/
theorem Rewired.operand_eq (rewired : Rewired before after promotions promoted root state)
    (member : id ∈ promoted) {place : Nat} {operand : NodeId}
    (uses : (before.node id).operands[place]? = some operand)
    (unmapped : promotions.get? (before.node operand).format = none) :
    (after.node id).operands[place]? = some operand := by
  have paired := forall₂_iff_get.mp (rewired.operands_replaced (rewired.reached id member))
  obtain ⟨inside, found⟩ := List.getElem?_eq_some_iff.mp uses
  have insideAfter : place < (after.node id).operands.length := by
    rw [← paired.1]
    exact inside
  obtain ⟨_, replaces⟩ := paired.2 place inside insideAfter
  rw [get_eq_getElem, get_eq_getElem, found] at replaces
  rw [getElem?_eq_getElem insideAfter, Option.some.injEq]
  unfold Promoting.Replaces at replaces
  rw [unmapped] at replaces
  simp only [member, decide_true, Bool.true_and, decide_not, Bool.not_true, Bool.false_and,
    Bool.false_eq_true, ↓reduceIte, ite_self] at replaces
  exact replaces

/-- A group applies to a promoted node as it did before where it has no guard, where its guard looks
for a tag, and where its guard looks at a divisor of a format without a register. -/
def Unmoved (graph : Graph) (promotions : Promotions) (id : NodeId) (group : RuleGroup) : Prop :=
  group.guard = none ∨ group.guard = some Guard.tagged ∨
    (group.guard = some Guard.powerOfTwoDivisor ∧
      ∀ divisor, (graph.node id).operands[1]? = some divisor →
        promotions.get? (graph.node divisor).format = none)

theorem Unmoved.applies {group : RuleGroup} (unmoved : before.Unmoved promotions id group)
    (rewired : Rewired before after promotions promoted root state) (member : id ∈ promoted)
    (applied : group.applies before id = true) : group.applies after id = true := by
  have inside := rewired.original (rewired.reached id member)
  have kept := rewired.promotedTo.kept
  unfold RuleGroup.applies at applied ⊢
  rcases unmoved with free | tagged | ⟨divides, unmapped⟩
  · rw [free]
  · rw [tagged] at applied ⊢
    dsimp only [Guard.tagged] at applied ⊢
    rw [(kept id inside).2.2.1]
    exact applied
  · rw [divides] at applied ⊢
    dsimp only [Guard.powerOfTwoDivisor] at applied ⊢
    cases uses : (before.node id).operands[1]? with
    | none =>
      rw [uses] at applied
      cases applied
    | some divisor =>
      have reached := (rewired.reached id member).tail (mem_of_getElem? uses)
      rw [uses] at applied
      rw [rewired.operand_eq member uses (unmapped divisor uses)]
      dsimp only at applied ⊢
      rw [(kept divisor (rewired.original reached)).2.2.2.1]
      exact applied

end Graph

/-- A rule is selected for a promoted node exactly where some group with a rule for its registers
applies to the promoted graph. That is so for every promoted node whose groups have guards that do
not look at an operand which is loaded into a register. -/
theorem RuleBook.select_promoted {graph : Graph} {root id : NodeId} {promotions : Promotions}
    {book : RuleBook} (grounded : ∀ id, graph.Reaches root id → id < graph.size)
    (chosen : id ∈ graph.chosen root promotions book) :
    ((∃ action, book.select (graph.promote root promotions book).1 id = .ok action) ↔
      ∃ group ∈ book.groupsFor (graph.ruleKey id),
        group.applies (graph.promote root promotions book).1 id = true ∧
          ∃ rule ∈ group.rules,
            rule.signature.accepts (promotions.apply (graph.node id).format)
              ((graph.operandFormats id).map promotions.apply) = true) ∧
      ((∀ group ∈ book.groupsFor (graph.ruleKey id), graph.Unmoved promotions id group) →
        ∃ action, book.select (graph.promote root promotions book).1 id = .ok action) := by
  rw [Graph.chosen_eq, Set.mem_ofPred_eq] at chosen
  rcases graph.promote_rewires root promotions book grounded rfl with
    ⟨nothing, _⟩ | ⟨state, rewired, _⟩
  · rw [nothing] at chosen
    cases chosen
  have promoted := rewired.promotedTo
  have key : (graph.promote root promotions book).1.ruleKey id = graph.ruleKey id := by
    obtain ⟨operation, specifier, _⟩ :=
      promoted.kept id (rewired.original (rewired.reached id chosen))
    rw [Graph.ruleKey, Graph.ruleKey, operation, specifier]
  have exact_ := @exists_select_iff book (graph.promote root promotions book).1 id
  rw [key, promoted.chosen_format id chosen, promoted.chosen_operands id chosen] at exact_
  refine ⟨exact_, fun unmoved => exact_.mpr ?_⟩
  obtain ⟨group, known, applies, accepted⟩ :=
    Graph.exists_rule_of_isPromoted (mem_filter.mp chosen).2
  exact ⟨group, known, (unmoved group known).applies rewired chosen applies, accepted⟩

namespace RuleBook

/-- A vector divided by four in each lane, with a tag. -/
def quarter : Graph where
  nodes := #[
    { operation := .variable, format := .vector .binary32 8, payload := .variable "x" },
    { operation := .constant, format := .vector .binary32 8
      payload := .constant (.float (Number.Double.ofInt 4)) },
    { operation := .division, operands := [0, 1], format := .vector .binary32 8, tag := some "q" }]

theorem quarter_grounded (id : NodeId) (reached : quarter.Reaches 2 id) : id < quarter.size :=
  reached.lt_size (by decide) (by decide)

/-- Quotients of registers, where a guard holds. -/
def quotientsWhere (label : String) (guard : Guard) : RuleBook :=
  ⟨[(Operation.division, .when label guard
    [.write (.uniform (.register .m256v8float32) 2) (.between "/")])]⟩

/-- A guard that looks for a tag holds after promotion, so the promoted quotient has its rule. -/
theorem select_promoted_quarter :
    2 ∈ quarter.chosen 2 Graph.eightFloats (quotientsWhere "tagged" Guard.tagged) ∧
      (∀ group ∈ (quotientsWhere "tagged" Guard.tagged).groupsFor (quarter.ruleKey 2),
        quarter.Unmoved Graph.eightFloats 2 group) ∧
      ∃ action, (quotientsWhere "tagged" Guard.tagged).select
        (quarter.promote 2 Graph.eightFloats (quotientsWhere "tagged" Guard.tagged)).1 2 =
          .ok action := by
  have chosen : 2 ∈ quarter.chosen 2 Graph.eightFloats (quotientsWhere "tagged" Guard.tagged) :=
    ⟨.refl, by decide +kernel⟩
  have unmoved : ∀ group ∈ (quotientsWhere "tagged" Guard.tagged).groupsFor (quarter.ruleKey 2),
      quarter.Unmoved Graph.eightFloats 2 group := by
    intro group member
    cases mem_singleton.mp member
    exact .inr (.inl rfl)
  exact ⟨chosen, unmoved, (select_promoted quarter_grounded chosen).2 unmoved⟩

/-- The same quotient of registers, over the loads of its operands. -/
def loadedQuarter : Graph where
  nodes := #[
    { operation := .variable, format := .vector .binary32 8, payload := .variable "x" },
    { operation := .constant, format := .vector .binary32 8
      payload := .constant (.float (Number.Double.ofInt 4)) },
    { operation := .division, operands := [3, 4], format := .register .m256v8float32
      tag := some "q" },
    .conversionOf 0 (.register .m256v8float32),
    .conversionOf 1 (.register .m256v8float32)]

theorem promote_quarter :
    quarter.promote 2 Graph.eightFloats (quotientsWhere "power of two" Guard.powerOfTwoDivisor) =
      (loadedQuarter, 1) := by
  have listed : (quarter.uses 2).keys = [2, 0, 1] := by decide +kernel
  have walked : quarter.reachable 2 = [0, 1, 2] := by
    rw [Graph.reachable, listed]
    cbv
  unfold Graph.promote
  rw [walked]
  decide +kernel

/-- A guard that looks for a constant divisor holds before promotion and not after it, when a load
stands in for the constant: the quotient is promoted, and then it has no rule. -/
theorem select_quarter :
    2 ∈ quarter.chosen 2 Graph.eightFloats
        (quotientsWhere "power of two" Guard.powerOfTwoDivisor) ∧
      ¬ ∃ action, (quotientsWhere "power of two" Guard.powerOfTwoDivisor).select
        (quarter.promote 2 Graph.eightFloats
          (quotientsWhere "power of two" Guard.powerOfTwoDivisor)).1 2 = .ok action := by
  refine ⟨⟨.refl, by decide +kernel⟩, ?_⟩
  rw [promote_quarter]
  rintro ⟨action, selected⟩
  cases selected

end RuleBook

end Retarget
