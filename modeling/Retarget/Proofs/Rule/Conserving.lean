import Retarget.Proofs.Rule.Tame

/-!
# Replacements that keep uses

The two nodes that take the place of another one use every computed value at least as often as it
did (`Graph.Conserves`), so that counting their uses instead of its own never makes a value seem
less shared. A division by a constant drops its divisor, which is a leaf.
-/

namespace Retarget

open List

/-- Computed values carry nothing. -/
def Graph.Bare (graph : Graph) : Prop :=
  ∀ id, (graph.node id).operation.role = .value → (graph.node id).payload = .none

/-- Two nodes are added in place of one: the second uses the first once, and both together use every
computed value no less than it did. -/
structure Graph.Conserves (graph : Graph) (id : NodeId) (first second : Node) : Prop where
  bare : ∀ node ∈ [first, second], node.operation.role = .value → node.payload = .none
  once : second.operands.count graph.size = 1
  kept : ∀ operand, (graph.node operand).operation.role = .value →
    (graph.node id).operands.count operand ≤
      first.operands.count operand + second.operands.count operand

/-- Where a guard holds, the nodes that a replacement adds conserve uses. -/
def Replacement.Conserves (guard : Option Guard) (replacement : Replacement) : Prop :=
  ∀ (graph : Graph) (id first second : NodeId), graph.Bare →
    (∀ check ∈ guard, check graph id = true) → (graph.node id).operands = [first, second] →
    first < graph.size → second < graph.size →
    ∃ inner outer, replacement graph id = .ok ((graph.add inner).1.add outer) ∧
      graph.Conserves id inner outer

namespace Replacement

theorem timesReciprocal_conserves : timesReciprocal.Conserves (some Guard.powerOfTwoDivisor) := by
  intro graph id dividend divisor bare guarded same below _
  have constant : (graph.node divisor).operation.role ≠ .value := by
    intro role
    have checked := guarded _ rfl
    unfold Guard.powerOfTwoDivisor at checked
    rw [same] at checked
    simp only [getElem?_cons_succ, getElem?_cons_zero, bare divisor role] at checked
    cases checked
  have apart : dividend ≠ graph.size := Nat.ne_of_lt below
  refine ⟨_, _, rfl, ?_, ?_, ?_⟩
  · refine forall_mem_cons.mpr ⟨nofun, forall_mem_singleton.mpr fun _ => rfl⟩
  · simp [operandOf, same, apart]
  · intro operand role
    have other : divisor ≠ operand := by
      rintro rfl
      exact constant role
    simp [operandOf, same, count_cons, other]

theorem chooseBy_conserves (predicate : Specifier) : (chooseBy predicate).Conserves none := by
  intro graph id first second _ _ same below below'
  have apart : first ≠ graph.size := Nat.ne_of_lt below
  have apart' : second ≠ graph.size := Nat.ne_of_lt below'
  refine ⟨_, _, rfl, ?_, ?_, ?_⟩
  · refine forall_mem_cons.mpr ⟨fun _ => rfl, forall_mem_singleton.mpr fun _ => rfl⟩
  · simp [operandOf, same, apart, apart']
  · intro operand _
    simp only [operandOf, same]
    exact Nat.le_add_right _ _

end Replacement

/-- Adding two nodes tells which they are. -/
theorem Graph.add_add_inj {graph : Graph} {first second other another : Node}
    (same : (graph.add first).1.add second = (graph.add other).1.add another) :
    first = other ∧ second = another := by
  have atSize (inner outer : Node) : ((graph.add inner).1.add outer).1.node graph.size = inner := by
    rw [node_add, size_add, if_neg (Nat.ne_of_lt (Nat.lt_succ_self _)), node_add, if_pos rfl]
  have atNext (inner outer : Node) :
      ((graph.add inner).1.add outer).1.node (graph.size + 1) = outer := by
    rw [node_add, size_add, if_pos rfl]
  constructor
  · rw [← atSize first second, same, atSize]
  · rw [← atNext first second, same, atNext]

namespace RuleBook

variable {book : RuleBook}

/-- The replacements of a book with the guards before them. -/
def replacements (book : RuleBook) : List (Option Guard × Replacement) :=
  book.groups.flatMap fun entry =>
    ((entry.2.rules.map Rule.action).filterMap Action.replacement?).map (entry.2.guard, ·)

/-- All replacements of a book conserve uses. -/
def Conserving (book : RuleBook) : Prop :=
  ∀ entry ∈ book.replacements, entry.2.Conserves entry.1

theorem Conserving.layeredOn {base : RuleBook} (own : book.Conserving)
    (inherited : base.Conserving) : (book.layeredOn base).Conserving := by
  intro entry member
  have split : (book.layeredOn base).replacements = book.replacements ++ base.replacements :=
    flatMap_append
  rw [split] at member
  rcases mem_append.mp member with mine | others
  · exact own entry mine
  · exact inherited entry others

/-- A node that a book of tame rules replaces has two operands. -/
theorem Tame.length_of_replaced (tame : book.Tame) {graph later : Graph} {id new : NodeId}
    (lowered : book.lower graph id = .ok (.replaced later new)) :
    (graph.node id).operands.length = 2 := by
  obtain ⟨replacement, _, selected, _, _⟩ := lower_replaced lowered
  obtain ⟨entry, member, _, _, rule, known, action, accepted⟩ := select_eq_ok selected
  have checked := tame.rules entry member rule known
  unfold Rule.isTame at checked
  rw [action, Bool.and_eq_true] at checked
  rw [length_of_accepts accepted]
  exact of_decide_eq_true checked.2

/-- What a conserving book adds for a node conserves uses. -/
theorem Conserving.of_makes (conserving : book.Conserving) {graph : Graph} (bare : graph.Bare)
    {id : NodeId} {first second : Node} (makes : book.Makes graph id first second)
    (two : (graph.node id).operands.length = 2)
    (inside : ∀ operand ∈ (graph.node id).operands, operand < graph.size) :
    graph.Conserves id first second := by
  obtain ⟨entry, member, applies, rule, known, replacement, action, made⟩ := makes
  have listed : (entry.2.guard, replacement) ∈ book.replacements := by
    refine mem_flatMap.mpr ⟨entry, member, mem_map.mpr ⟨replacement, ?_, rfl⟩⟩
    refine mem_filterMap.mpr ⟨rule.action, mem_map.mpr ⟨rule, known, rfl⟩, ?_⟩
    rw [action]
    rfl
  have guarded : ∀ check ∈ entry.2.guard, check graph id = true := by
    intro check same
    unfold RuleGroup.applies at applies
    rw [Option.mem_def.mp same] at applies
    exact applies
  obtain ⟨left, right, same⟩ := length_eq_two.mp two
  rw [same] at inside
  obtain ⟨below, below', _⟩ := forall_mem_cons.mp inside |>.imp_right forall_mem_cons.mp
  obtain ⟨inner, outer, given, conserves⟩ :=
    conserving _ listed graph id left right bare guarded same below below'
  obtain ⟨rfl, rfl⟩ := Graph.add_add_inj (Except.ok.inj (made.symm.trans given))
  exact conserves

end RuleBook

end Retarget
