import Retarget.Proofs.Rule.Orderly
import Retarget.Proofs.Template.Fitting

/-!
# Tame rules

A tame rule that writes code has a template that fits the operands it accepts. A tame rule that
replaces a node is for one of a few operations, and adds two nodes over the operands of the node
which no rule replaces again. Lowering a node by a book of such rules fails only where the book has
no rule for the node (`RuleBook.Tame.lower_cases`).
-/

namespace Retarget

open List

/-- Whether nodes of an operation may be replaced. -/
def Operation.isReplaced : Operation → Bool
  | .division | .minimum | .maximum => true
  | _ => false

/-- A leaf with a value, or a value over given operands, which is not replaced. -/
structure Node.Over (given : NodeId → Prop) (node : Node) : Prop where
  unreplaced : node.operation.isReplaced = false
  role : node.operation.role = .value ∨ (node.operation.role = .leaf ∧ node.payload ≠ .none)
  operands : ∀ operand ∈ node.operands, given operand

/-- Two nodes are added for one that is to be replaced: the first over its operands, and the second,
which takes its place, over its operands and the first. -/
structure Graph.Builds (graph : Graph) (id : NodeId) (first second : Node) : Prop where
  inner : first.Over (· ∈ (graph.node id).operands)
  outer : second.Over fun operand => operand ∈ (graph.node id).operands ∨ operand = graph.size
  few : first.operands.length + second.operands.length ≤ 5

/-- The replacement builds two nodes over the operands of any node with two of them. -/
def Replacement.Builds (replacement : Replacement) : Prop :=
  ∀ graph id, (graph.node id).operands.length = 2 →
    ∃ first second, replacement graph id = .ok ((graph.add first).1.add second) ∧
      graph.Builds id first second

namespace Replacement

theorem timesReciprocal_builds : timesReciprocal.Builds := by
  intro graph id two
  obtain ⟨dividend, divisor, same⟩ := length_eq_two.mp two
  refine ⟨_, _, rfl, ⟨rfl, .inr ⟨rfl, ?_⟩, ?_⟩, ⟨rfl, .inl rfl, ?_⟩, ?_⟩
  · simp
  · simp
  · simp [operandOf, same]
  · simp

theorem chooseBy_builds (predicate : Specifier) : (chooseBy predicate).Builds := by
  intro graph id two
  obtain ⟨left, right, same⟩ := length_eq_two.mp two
  refine ⟨_, _, rfl, ⟨rfl, .inl rfl, ?_⟩, ⟨rfl, .inl rfl, ?_⟩, ?_⟩
  · simp [operandOf, same]
  · simp [operandOf, same]
  · simp

end Replacement

/-- Whether a rule for an operation has a template that fits, or replaces nodes with two
operands. -/
def Rule.isTame (operation : Operation) (rule : Rule) : Bool :=
  match rule.action with
  | .template template =>
    template.fits rule.signature.operands.length template.form.writesResult
  | .replace _ => operation.isReplaced && rule.signature.operands.length = 2

/-- The book has no rule for a node. -/
def Fault.IsUnmatched : Fault → Prop
  | .unsupported _ _ _ | .noMatchingRule _ _ _ _ _ => True
  | _ => False

namespace RuleBook

variable {book : RuleBook}

/-- All rules of a book are tame. -/
structure Tame (book : RuleBook) : Prop where
  rules : ∀ entry ∈ book.groups, ∀ rule ∈ entry.2.rules, rule.isTame entry.1.operation = true
  builds : ∀ replacement, .replace replacement ∈ book.actions → replacement.Builds

theorem Tame.layeredOn {base : RuleBook} (own : book.Tame) (inherited : base.Tame) :
    (book.layeredOn base).Tame where
  rules entry member := by
    rcases mem_append.mp member with mine | others
    · exact own.rules entry mine
    · exact inherited.rules entry others
  builds replacement member := by
    rw [actions_layeredOn] at member
    rcases mem_append.mp member with mine | others
    · exact own.builds replacement mine
    · exact inherited.builds replacement others

/-- A book is tame by its list of replacements and a look at its rules. -/
theorem Tame.of_replacements {replacements : List Replacement}
    (all : book.actions.filterMap Action.replacement? = replacements)
    (builds : ∀ replacement ∈ replacements, replacement.Builds)
    (rules : (book.groups.all fun entry => entry.2.rules.all (Rule.isTame entry.1.operation)) =
      true) : book.Tame where
  rules entry member rule known :=
    all_eq_true.mp (all_eq_true.mp rules entry member) rule known
  builds replacement member := by
    apply builds
    rw [← all]
    exact mem_filterMap.mpr ⟨_, member, rfl⟩

theorem select_eq_error {graph : Graph} {id : NodeId} {fault : Fault}
    (failed : book.select graph id = .error fault) : fault.IsUnmatched := by
  unfold select at failed
  dsimp only at failed
  split at failed
  · cases failed
    trivial
  split at failed
  · cases failed
    trivial
  split at failed
  · cases failed
  · cases failed
    trivial

theorem length_of_accepts {signature : Signature} {graph : Graph} {id : NodeId}
    (accepted : signature.accepts (graph.node id).format (graph.operandFormats id) = true) :
    (graph.node id).operands.length = signature.operands.length := by
  unfold Signature.accepts at accepted
  rw [Bool.and_assoc, Bool.and_eq_true] at accepted
  have same : signature.operands.length = (graph.operandFormats id).length :=
    of_decide_eq_true accepted.1
  rw [same, Graph.operandFormats, length_map]

/-- A rule that replaces nodes, in a group that applies to a node, adds two nodes for it. -/
def Makes (book : RuleBook) (graph : Graph) (id : NodeId) (first second : Node) : Prop :=
  ∃ entry ∈ book.groups, entry.2.applies graph id = true ∧
    ∃ rule ∈ entry.2.rules, ∃ replacement, rule.action = .replace replacement ∧
      replacement graph id = .ok ((graph.add first).1.add second)

/-- How a book of tame rules lowers a node. -/
inductive LowersTo (book : RuleBook) (graph : Graph) (id : NodeId) : Prop where
  | unmatched {fault : Fault} (lowered : book.lower graph id = .error fault)
      (known : fault.IsUnmatched) (refused : book.select graph id = .error fault)
  | written {template : Template} (lowered : book.lower graph id = .ok (.template template))
      (fits : template.fits (graph.node id).operands.length template.form.writesResult = true)
  | replaced {first second : Node}
      (lowered : book.lower graph id =
        .ok (.replaced (((graph.add first).1.add second).1.shareTag id (graph.size + 1))
          (graph.size + 1)))
      (isReplaced : (graph.node id).operation.isReplaced = true)
      (builds : graph.Builds id first second) (makes : book.Makes graph id first second)

theorem Tame.lower_cases (tame : book.Tame) (graph : Graph) (id : NodeId) :
    book.LowersTo graph id := by
  cases selected : book.select graph id with
  | error fault =>
    have lowered : book.lower graph id = .error fault := by
      rw [lower, selected]
      rfl
    exact .unmatched lowered (select_eq_error selected) selected
  | ok action =>
    obtain ⟨entry, member, operation, applies, rule, known, same, accepted⟩ :=
      select_eq_ok selected
    have checked := tame.rules entry member rule known
    have length := length_of_accepts accepted
    unfold Rule.isTame at checked
    rw [same, ← length, operation] at checked
    cases action with
    | template template =>
      have lowered : book.lower graph id = .ok (.template template) := by
        rw [lower, selected]
        rfl
      exact .written lowered checked
    | replace replacement =>
      rw [Bool.and_eq_true] at checked
      have two : (graph.node id).operands.length = 2 := of_decide_eq_true checked.2
      obtain ⟨first, second, made, builds⟩ :=
        tame.builds replacement (mem_actions_of_select selected) graph id two
      -- A node with operands is in the graph, and the one that takes its place is new.
      have apart : graph.size + 1 ≠ id := by
        intro outside
        rw [Graph.node_of_size_le (by omega)] at two
        cases two
      have place : ((graph.add first).1.add second).2 = graph.size + 1 :=
        Graph.size_add graph first
      have lowered : book.lower graph id =
          .ok (.replaced (((graph.add first).1.add second).1.shareTag id (graph.size + 1))
            (graph.size + 1)) := by
        rw [lower, selected]
        change (replacement graph id >>= fun result => _) = _
        rw [made]
        change (if ((graph.add first).1.add second).2 = id then _ else
          pure (Lowering.replaced (((graph.add first).1.add second).1.shareTag id
            ((graph.add first).1.add second).2) ((graph.add first).1.add second).2)) = _
        rw [place, if_neg apart]
        rfl
      exact .replaced lowered checked.1 builds
        ⟨entry, member, applies, rule, known, replacement, same, made⟩

/-- The graph and the node that tame rules put in the place of a node. -/
inductive Replaces (book : RuleBook) (graph : Graph) (id : NodeId) : Graph → NodeId → Prop where
  | intro {first second : Node} (isReplaced : (graph.node id).operation.isReplaced = true)
      (builds : graph.Builds id first second) (makes : book.Makes graph id first second) :
      Replaces book graph id (((graph.add first).1.add second).1.shareTag id (graph.size + 1))
        (graph.size + 1)

theorem Tame.replaces (tame : book.Tame) {graph later : Graph} {id new : NodeId}
    (lowered : book.lower graph id = .ok (.replaced later new)) :
    book.Replaces graph id later new := by
  cases tame.lower_cases graph id with
  | unmatched failed _ _ => cases failed.symm.trans lowered
  | written other _ => cases other.symm.trans lowered
  | replaced same isReplaced builds makes =>
    cases same.symm.trans lowered
    exact ⟨isReplaced, builds, makes⟩

theorem Tame.unmatched_of_lower (tame : book.Tame) {graph : Graph} {id : NodeId} {fault : Fault}
    (failed : book.lower graph id = .error fault) :
    fault.IsUnmatched ∧ book.select graph id = .error fault := by
  cases tame.lower_cases graph id with
  | unmatched other known refused =>
    cases other.symm.trans failed
    exact ⟨known, refused⟩
  | written other _ => cases other.symm.trans failed
  | replaced other _ _ _ => cases other.symm.trans failed

end RuleBook

end Retarget
