import Retarget.Proofs.Rule.Coverage
import Retarget.Proofs.Rule.Tame
import Retarget.Proofs.Target.Builtin

/-!
# Books that extend the portable one

All rules for C code are layered over those of portable C, which are the only ones with a guard and
the only ones that replace nodes. So a node that is replaced becomes a product with a reciprocal or
a choice between two numbers (`Graph.Rebuilt`), for which there are portable rules again.
-/

namespace Retarget

open List

variable {graph : Graph} {id : NodeId}

/-- A rule that replaces nodes of an operation, with the guard before it. -/
structure Replacing where
  operation : Operation
  guard : Option Guard
  signature : Signature
  replacement : Replacement

namespace RuleBook

/-- The rules of a book that replace nodes. -/
def replacing (book : RuleBook) : List Replacing :=
  book.groups.flatMap fun entry => entry.2.rules.filterMap fun rule =>
    rule.action.replacement?.map fun replacement =>
      ⟨entry.1.operation, entry.2.guard, rule.signature, replacement⟩

theorem mem_replacing {book : RuleBook} {entry : RuleKey × RuleGroup} (known : entry ∈ book.groups)
    {rule : Rule} (inGroup : rule ∈ entry.2.rules) {replacement : Replacement}
    (replaces : rule.action = .replace replacement) :
    ⟨entry.1.operation, entry.2.guard, rule.signature, replacement⟩ ∈ book.replacing := by
  refine mem_flatMap.mpr ⟨entry, known, mem_filterMap.mpr ⟨rule, inGroup, ?_⟩⟩
  rw [replaces]
  rfl

/-- The rules of a book are those of portable C and others that have no guard and replace nothing. -/
structure ExtendsPortable (book : RuleBook) : Prop where
  includes : Portable.book.groups ⊆ book.groups
  guarded : book.Guarded
  replacing : book.replacing ⊆ Portable.book.replacing

end RuleBook

theorem Portable.replacing_eq :
    Portable.book.replacing =
      [⟨.division, some Guard.powerOfTwoDivisor, .family .float 2, Replacement.timesReciprocal⟩,
        ⟨.minimum, none, .family .float 2, Replacement.chooseBy .less⟩,
        ⟨.minimum, none, .family .integer 2, Replacement.chooseBy .less⟩,
        ⟨.maximum, none, .family .float 2, Replacement.chooseBy .greater⟩,
        ⟨.maximum, none, .family .integer 2, Replacement.chooseBy .greater⟩] := rfl

theorem Portable.book_guarded : Portable.book.Guarded := by
  have arithmetic : Portable.arithmeticBook.Guarded := by
    refine forall_mem_append.mpr
      ⟨forall_mem_append.mpr ⟨RuleBook.Guarded.ofRules _, ?_⟩, RuleBook.Guarded.ofRules _⟩
    exact forall_mem_singleton.mpr (.inr ⟨rfl, forall_mem_singleton.mpr rfl⟩)
  exact arithmetic.layeredOn ((RuleBook.Guarded.ofRules _).layeredOn (RuleBook.Guarded.ofRules _))

namespace RuleBook.ExtendsPortable

variable {book base : RuleBook}

theorem layeredOn (extended : base.ExtendsPortable) (guarded : book.Guarded)
    (none : book.replacing = []) : (book.layeredOn base).ExtendsPortable where
  includes := subset_append_of_subset_right _ extended.includes
  guarded := guarded.layeredOn extended.guarded
  replacing := by
    have both : (book.layeredOn base).replacing = book.replacing ++ base.replacing :=
      flatMap_append
    rw [both, none]
    exact extended.replacing

/-- A node for which portable C has a rule without a guard. -/
theorem covers (extended : book.ExtendsPortable) {graph : Graph} {id : NodeId} {key : RuleKey}
    {rules : List Rule} (listed : Portable.book.groupsFor key = [.always rules])
    (keyed : graph.ruleKey id = key) {rule : Rule} (member : rule ∈ rules)
    (accepted : rule.signature.accepts (graph.node id).format (graph.operandFormats id) = true) :
    book.Covers graph id := by
  have own : RuleGroup.always rules ∈ Portable.book.groupsFor key := by
    rw [listed]
    exact mem_singleton_self _
  have known : RuleGroup.always rules ∈ book.groupsFor key := by
    obtain ⟨entry, inBook, same⟩ := mem_filterMap.mp own
    exact mem_filterMap.mpr ⟨entry, extended.includes inBook, same⟩
  rw [← keyed] at known
  exact exists_select_iff.mpr ⟨_, known, rfl, rule, member, accepted⟩

/-- Every conversion has a portable rule. -/
theorem covers_conversion (extended : book.ExtendsPortable) (graph : Graph) (id source : NodeId)
    (format : Format) (node : graph.node id = .conversionOf source format) :
    book.Covers graph id := by
  have listed : Portable.book.groupsFor ⟨.conversion, .plain⟩ = [.always _] := rfl
  refine extended.covers listed ?_ (mem_singleton_self _) ?_
  · rw [Graph.ruleKey, node]
    rfl
  · rw [Graph.operandFormats, node]
    rfl

end RuleBook.ExtendsPortable

/-- The two nodes that a replacement adds for a quotient with a constant divisor, for a minimum or
for a maximum. -/
inductive Graph.Rebuilt (graph : Graph) (id : NodeId) : Replacement → Node → Node → Prop where
  | product {left right : NodeId} (operands : (graph.node id).operands = [left, right])
      (constant : (graph.node right).payload ≠ .none)
      (numbers : ∀ place ∈ [id, left, right], (graph.node place).format.isFloat = true)
      (quotient : (graph.node id).operation = .division) :
      Rebuilt graph id Replacement.timesReciprocal
        { operation := .constant, format := (graph.node right).format
          payload := .constant (.float (Replacement.reciprocalOf (graph.node right).payload)) }
        { operation := .multiplication, operands := [left, graph.size]
          format := (graph.node id).format }
  | choice {left right : NodeId} {predicate : Specifier} {family : Format.Family}
      (operands : (graph.node id).operands = [left, right])
      (ordered : ((graph.node id).operation, predicate) ∈
        [(Operation.minimum, Specifier.less), (.maximum, .greater)])
      (ranked : family ∈ [Format.Family.float, .integer])
      (members : ∀ place ∈ [id, left, right], family.contains (graph.node place).format = true) :
      Rebuilt graph id (Replacement.chooseBy predicate)
        { operation := .comparison, specifier := predicate, operands := [left, right]
          format := .bool }
        { operation := .select, operands := [graph.size, left, right]
          format := (graph.node id).format }

/-- A node of a family of numbers is in the graph. -/
theorem Graph.lt_size_of_contains {family : Format.Family}
    (ranked : family ∈ [Format.Family.float, .integer])
    (member : family.contains (graph.node id).format = true) : id < graph.size := by
  refine Nat.lt_of_not_le fun outside => ?_
  rw [node_of_size_le outside] at member
  simp only [mem_cons, not_mem_nil, or_false] at ranked
  rcases ranked with rfl | rfl <;> cases member

/-- A node that a rule for two values of a family accepts. -/
theorem Graph.two_of_accepts {family : Format.Family}
    (accepted : (Signature.family family 2).accepts (graph.node id).format
      (graph.operandFormats id) = true) :
    ∃ left right, (graph.node id).operands = [left, right] ∧
      ∀ place ∈ [id, left, right], family.contains (graph.node place).format = true := by
  obtain ⟨left, right, operands⟩ :=
    length_eq_two.mp (RuleBook.length_of_accepts accepted)
  obtain ⟨result, each⟩ := Signature.contains_of_accepts accepted
  refine ⟨left, right, operands, forall_mem_cons.mpr ⟨result, fun place member => ?_⟩⟩
  rw [operandFormats, operands] at each
  exact each _ (mem_map_of_mem member)

/-- Where a divisor is looked for, it is a constant. -/
theorem Guard.payload_of_powerOfTwoDivisor {left right : NodeId}
    (operands : (graph.node id).operands = [left, right])
    (holds : powerOfTwoDivisor graph id = true) : (graph.node right).payload ≠ .none := by
  intro bare
  unfold powerOfTwoDivisor at holds
  rw [operands] at holds
  simp only [getElem?_cons_succ, getElem?_cons_zero, bare] at holds
  cases holds

/-- Where a replacement adds two nodes, the second takes the place. -/
theorem Graph.joins_of_made {added : Graph} {new : NodeId} {replacement : Replacement}
    {inner outer : Node} (made : replacement graph id = .ok (added, new))
    (same : replacement graph id = .ok ((graph.add inner).1.add outer)) :
    graph.Joins (added.shareTag id new) inner outer ∧ new = graph.size + 1 := by
  have place : new = graph.size + 1 := by
    cases made.symm.trans same
    exact Graph.size_add graph inner
  refine ⟨?_, place⟩
  have joined := graph.joins_shareTag inner outer id
  rw [← place] at joined
  cases made.symm.trans same
  exact joined

namespace Replacement

variable {graph : Graph} {id left right : NodeId}

theorem timesReciprocal_eq (operands : (graph.node id).operands = [left, right]) :
    timesReciprocal graph id = .ok ((graph.add
      { operation := .constant, format := (graph.node right).format
        payload := .constant (.float (reciprocalOf (graph.node right).payload)) }).1.add
      { operation := .multiplication, operands := [left, graph.size]
        format := (graph.node id).format }) := by
  have first : operandOf graph id 0 = left := by rw [operandOf, operands]; rfl
  have second : operandOf graph id 1 = right := by rw [operandOf, operands]; rfl
  simp only [timesReciprocal, first, second]
  rfl

theorem chooseBy_eq (operands : (graph.node id).operands = [left, right]) (predicate : Specifier) :
    chooseBy predicate graph id = .ok ((graph.add
      { operation := .comparison, specifier := predicate, operands := [left, right]
        format := .bool }).1.add
      { operation := .select, operands := [graph.size, left, right]
        format := (graph.node id).format }) := by
  have first : operandOf graph id 0 = left := by rw [operandOf, operands]; rfl
  have second : operandOf graph id 1 = right := by rw [operandOf, operands]; rfl
  simp only [chooseBy, first, second]
  rfl

end Replacement

section

variable {replacement : Replacement} {first second : Node}
  (rebuilt : graph.Rebuilt id replacement first second)

include rebuilt

theorem Graph.Rebuilt.operands : ∃ left right, (graph.node id).operands = [left, right] := by
  cases rebuilt with
  | product operands | choice operands => exact ⟨_, _, operands⟩

theorem Graph.Rebuilt.made : replacement graph id = .ok ((graph.add first).1.add second) := by
  cases rebuilt with
  | product operands => exact Replacement.timesReciprocal_eq operands
  | choice operands => exact Replacement.chooseBy_eq operands _

end

namespace RuleBook.ExtendsPortable

variable {book base : RuleBook} {graph later larger : Graph} {id new : NodeId} {first second : Node}

/-- What a replacement adds for a node. -/
theorem rebuilt_of_select (extended : book.ExtendsPortable) {replacement : Replacement}
    (selected : book.select graph id = .ok (.replace replacement)) :
    ∃ first second, graph.Rebuilt id replacement first second := by
  obtain ⟨entry, known, operation, applies, rule, inGroup, replaces, accepted⟩ :=
    select_eq_ok selected
  have listed := extended.replacing (mem_replacing known inGroup replaces)
  have chosen {family : Format.Family} {predicate : Specifier}
      (ordered : (entry.1.operation, predicate) ∈
        [(Operation.minimum, Specifier.less), (.maximum, .greater)])
      (ranked : family ∈ [Format.Family.float, .integer])
      (signature : rule.signature = .family family 2)
      (same : replacement = Replacement.chooseBy predicate) :
      ∃ first second, graph.Rebuilt id replacement first second := by
    rw [signature] at accepted
    obtain ⟨left, right, operands, members⟩ := Graph.two_of_accepts accepted
    subst same
    exact ⟨_, _, .choice operands (operation ▸ ordered) ranked members⟩
  rw [Portable.replacing_eq] at listed
  simp only [mem_cons, not_mem_nil, or_false, Replacing.mk.injEq] at listed
  rcases listed with ⟨kind, guard, signature, same⟩ | ⟨kind, _, signature, same⟩ |
    ⟨kind, _, signature, same⟩ | ⟨kind, _, signature, same⟩ | ⟨kind, _, signature, same⟩
  · rw [signature] at accepted
    obtain ⟨left, right, operands, numbers⟩ := Graph.two_of_accepts accepted
    rw [RuleGroup.applies, guard] at applies
    subst same
    exact ⟨_, _, .product operands (Guard.payload_of_powerOfTwoDivisor operands applies) numbers
      (operation.symm.trans kind)⟩
  all_goals exact chosen (by simp [kind]) (by simp) signature same

/-- What takes the place of a node. -/
theorem rebuilt (extended : book.ExtendsPortable)
    (lowered : book.lower graph id = .ok (.replaced later new)) :
    ∃ replacement first second, graph.Rebuilt id replacement first second ∧
      graph.Joins later first second ∧ new = graph.size + 1 := by
  obtain ⟨replacement, added, selected, made, rfl⟩ := lower_replaced lowered
  obtain ⟨first, second, rebuilt⟩ := extended.rebuilt_of_select selected
  exact ⟨replacement, first, second, rebuilt, Graph.joins_of_made made rebuilt.made⟩

/-- The nodes that take the place of another one have portable rules. -/
theorem covers_rebuilt (extended : book.ExtendsPortable) {replacement : Replacement}
    (rebuilt : graph.Rebuilt id replacement first second) (joins : graph.Joins later first second)
    (grows : later.Grows larger) {fresh : NodeId} (beyond : graph.size ≤ fresh) (inside : fresh < later.size)
    (role : (larger.node fresh).operation.role = .value) : book.Covers larger fresh := by
  have size := joins.size
  have firstInside : graph.size < later.size := by omega
  have lastInside : graph.size + 1 < later.size := by omega
  obtain ⟨_, firstNode⟩ := joins.inner
  obtain ⟨_, secondNode⟩ := joins.outer
  obtain ⟨_, inner⟩ := grows.node graph.size firstInside
  obtain ⟨_, outer⟩ := grows.node (graph.size + 1) lastInside
  rw [firstNode] at inner
  rw [secondNode] at outer
  have kept {place : NodeId} {family : Format.Family}
      (ranked : family ∈ [Format.Family.float, .integer])
      (member : family.contains (graph.node place).format = true) :
      family.contains (larger.node place).format = true := by
    rw [(joins.grows.trans grows).format_eq (Graph.lt_size_of_contains ranked member)]
    exact member
  rcases joins.eq_of_size_le beyond inside with rfl | rfl
  · cases rebuilt with
    | product operands constant numbers =>
      rw [inner] at role
      cases role
    | @choice left right predicate family operands ordered ranked members =>
      have accepted (operator : String) : (Rule.write ⟨Format.bool, [.anyOf family, .anyOf family]⟩
          (.between operator)).signature.accepts (larger.node graph.size).format
            (larger.operandFormats graph.size) = true := by
        have leftKept := kept ranked (members left (by simp))
        have rightKept := kept ranked (members right (by simp))
        simp [Graph.operandFormats, inner, Rule.write, Signature.accepts, Matcher.accepts, leftKept,
          rightKept]
      simp only [mem_cons, not_mem_nil, or_false, Prod.mk.injEq] at ordered
      rcases ordered with ⟨_, rfl⟩ | ⟨_, rfl⟩
      · have listed : Portable.book.groupsFor ⟨.comparison, .less⟩ = [.always _] := rfl
        exact extended.covers listed (by rw [Graph.ruleKey, inner])
          (mem_map_of_mem ranked) (accepted "<")
      · have listed : Portable.book.groupsFor ⟨.comparison, .greater⟩ = [.always _] := rfl
        exact extended.covers listed (by rw [Graph.ruleKey, inner])
          (mem_map_of_mem ranked) (accepted ">")
  · cases rebuilt with
    | @product left right operands constant numbers =>
      have listed : Portable.book.groupsFor ⟨.multiplication, .plain⟩ = [.always _] := rfl
      refine extended.covers listed (by rw [Graph.ruleKey, outer]) mem_cons_self ?_
      have float : Format.Family.float ∈ [Format.Family.float, .integer] := mem_cons_self
      have leftKept : (larger.node left).format.isFloat = true :=
        kept float (numbers left (by simp))
      have rightNumber := numbers right (by simp)
      have result := numbers id mem_cons_self
      simp [Graph.operandFormats, inner, outer, Rule.write, Signature.family, Signature.accepts,
        Matcher.accepts, Format.Family.contains, leftKept, rightNumber, result]
    | @choice left right predicate family operands ordered ranked members =>
      have listed : Portable.book.groupsFor ⟨.select, .plain⟩ = [.always _] := rfl
      refine extended.covers listed (by rw [Graph.ruleKey, outer]) (mem_singleton_self _) ?_
      simp [Graph.operandFormats, inner, outer, Rule.write, Signature.accepts, Matcher.accepts,
        Format.Family.contains]

end RuleBook.ExtendsPortable

namespace Intrinsics

/-- The books of the whole family extend the portable one. -/
theorem family_extendsPortable :
    ∀ target ∈ Portable.target :: family, target.Every RuleBook.ExtendsPortable := by
  refine family_every ⟨List.Subset.refl _, Portable.book_guarded, List.Subset.refl _⟩ ?_
  simp only [books, forall_mem_cons]
  refine ⟨?_, ?_, ?_, ?_, ?_, ?_, ?_, fun _ member => by cases member⟩ <;>
    exact fun _ extended => extended.layeredOn (.ofRules _) rfl

end Intrinsics

namespace Catalog

variable {name : String} {target : Target} (found : builtin.target name = .ok target)

include found

/-- The rules of all targets for C code extend the portable ones. -/
theorem builtin_extendsPortable {book : RuleBook} (known : target.books.get? .c = some book) :
    book.ExtendsPortable := by
  rcases mem_append.mp (mem_of_target found) with family | other
  · exact Intrinsics.family_extendsPortable target family .c book known
  · simp only [mem_cons, not_mem_nil, or_false] at other
    rcases other with rfl | rfl <;> cases known

/-- No target promotes numbers. -/
theorem builtin_offNumbers : target.promotions.OffNumbers := by
  have checked : ∀ target ∈ Portable.target :: Intrinsics.family ++
      [Hardware.target, Verification.target], ∀ entry ∈ target.promotions.entries,
        entry.1.isFloat = false ∧ entry.2.isFloat = false := by
    decide
  intro format register mapped
  exact checked target (mem_of_target found) (format, register) (OrderedMap.mem_of_lookup mapped)

/-- Targets that promote anything are for C code. -/
theorem builtin_promotions_isEmpty {language : Language} {book : RuleBook}
    (known : target.books.get? language = some book) (other : language ≠ .c) :
    target.promotions.isEmpty = true := by
  rcases mem_append.mp (mem_of_target found) with family | hardware
  · have onlyC : ∀ target ∈ Portable.target :: Intrinsics.family,
        ∀ language ∈ [Language.vhdl, .gappa], (target.books.get? language).isNone = true := by
      decide
    have none : (target.books.get? language).isNone = true := by
      apply onlyC target family
      cases language <;> first | exact absurd rfl other | decide
    rw [known] at none
    cases none
  · simp only [mem_cons, not_mem_nil, or_false] at hardware
    rcases hardware with rfl | rfl <;> rfl

end Catalog

end Retarget
