import Mathlib.Order.Defs.Unbundled
import Retarget.Rule.Replacement
import Retarget.Rule.Selection

/-!
# Orderly rules

A replacement that only appends nodes leaves those that exist as they are (`Replacement.Appends`).
Lowering by a book of such rules gives nodes tags and nothing else (`Graph.Grows`). A template that
stores its own result is direct where it takes the operands of its node as they are. A book is
orderly where its replacements only append and its templates are direct.
-/

namespace Retarget

open List

/-- Every node keeps all but its tag, and new nodes may follow. -/
structure Graph.Grows (before after : Graph) : Prop where
  size : before.size ≤ after.size
  node : ∀ id, id < before.size →
    ∃ tag, after.node id = { before.node id with tag }

namespace Graph.Grows

theorem refl (graph : Graph) : Grows graph graph :=
  ⟨Nat.le_refl _, fun _ _ => ⟨_, rfl⟩⟩

theorem trans {first second third : Graph} (left : Grows first second)
    (right : Grows second third) : Grows first third where
  size := Nat.le_trans left.size right.size
  node id inside := by
    obtain ⟨tag, same⟩ := left.node id inside
    obtain ⟨last, same'⟩ := right.node id (Nat.lt_of_lt_of_le inside left.size)
    exact ⟨last, by rw [same', same]⟩

section

variable {graph larger : Graph} {id : NodeId}

section

variable (grows : graph.Grows larger) (inside : id < graph.size)

include grows inside

theorem payload_eq : (larger.node id).payload = (graph.node id).payload := by
  obtain ⟨tag, same⟩ := grows.node id inside
  rw [same]

theorem operands_eq : (larger.node id).operands = (graph.node id).operands := by
  obtain ⟨tag, same⟩ := grows.node id inside
  rw [same]

theorem format_eq : (larger.node id).format = (graph.node id).format := by
  obtain ⟨tag, same⟩ := grows.node id inside
  rw [same]

end

end

theorem shareTag (graph : Graph) (source destination : NodeId) :
    Grows graph (graph.shareTag source destination) := by
  unfold Graph.shareTag
  by_cases same : source = destination
  · simp only [same, ↓reduceIte]
    exact .refl graph
  · simp only [same, ↓reduceIte]
    refine ⟨Nat.le_of_eq (size_modify _ _ _).symm, fun id inside => ?_⟩
    rw [node_modify]
    split
    · exact ⟨_, rfl⟩
    · exact ⟨_, rfl⟩

end Graph.Grows

/-- A replacement leaves all nodes that exist as they are. -/
def Replacement.Appends (replacement : Replacement) : Prop :=
  ∀ graph id larger new, replacement graph id = .ok (larger, new) →
    graph.size ≤ larger.size ∧ ∀ node, node < graph.size → larger.node node = graph.node node

theorem Graph.node_add_of_lt {graph : Graph} {id : NodeId} (inside : id < graph.size)
    (new : Node) : (graph.add new).1.node id = graph.node id := by
  rw [node_add, if_neg (Nat.ne_of_lt inside)]

namespace Replacement

theorem appends_add_add (first second : Graph → NodeId → Node) :
    Replacement.Appends fun graph id =>
      .ok ((graph.add (first graph id)).1.add (second graph id)) := by
  intro graph id larger new made
  have same : ((graph.add (first graph id)).1.add (second graph id)).1 = larger :=
    congrArg Prod.fst (Except.ok.inj made)
  have inFirst : graph.size ≤ (graph.add (first graph id)).1.size := by
    rw [Graph.size_add]
    exact Nat.le_succ _
  rw [← same]
  refine ⟨?_, fun node inside => ?_⟩
  · rw [Graph.size_add]
    exact Nat.le_succ_of_le inFirst
  · rw [Graph.node_add_of_lt (Nat.lt_of_lt_of_le inside inFirst), Graph.node_add_of_lt inside]

end Replacement

/-- A template that stores its own result takes the operands of its node as they are. -/
def Template.isDirect : Template → Bool
  | .plain _ => true
  | .applied form _ => !form.writesResult

namespace Action

/-- The replacement that a rule makes. -/
def replacement? : Action → Option Replacement
  | .template _ => none
  | .replace replacement => some replacement

/-- Whether a rule that writes code writes it by a direct template. -/
def isDirect : Action → Bool
  | .template written => written.isDirect
  | .replace _ => true

end Action

namespace RuleBook

variable {book : RuleBook} {graph : Graph} {id : NodeId}

/-- What the rules of a book do. -/
def actions (book : RuleBook) : List Action :=
  book.groups.flatMap fun entry => entry.2.rules.map Rule.action

theorem actions_layeredOn (book base : RuleBook) :
    (book.layeredOn base).actions = book.actions ++ base.actions :=
  flatMap_append

/-- A selected action is that of a rule for the node's operation, in a group that applies to the node
and with a signature that accepts its formats. -/
theorem select_eq_ok {action : Action} (selected : book.select graph id = .ok action) :
    ∃ entry ∈ book.groups, entry.1.operation = (graph.node id).operation ∧
      entry.2.applies graph id = true ∧ ∃ rule ∈ entry.2.rules, rule.action = action ∧
        rule.signature.accepts (graph.node id).format (graph.operandFormats id) = true := by
  unfold select at selected
  dsimp only at selected
  split at selected
  · cases selected
  split at selected
  · cases selected
  split at selected
  · rename_i rule found
    cases selected
    obtain ⟨group, known, chosen⟩ := exists_of_findSome?_eq_some found
    obtain ⟨entry, member, keyed⟩ := mem_filterMap.mp known
    split at keyed
    · rename_i key
      cases keyed
      split at chosen
      · rename_i applies
        have accepted := find?_some chosen
        exact ⟨entry, member, congrArg RuleKey.operation key, applies, rule,
          mem_of_find?_eq_some chosen, rfl, accepted⟩
      · cases chosen
    · cases keyed
  · cases selected

theorem mem_actions_of_select {action : Action} (selected : book.select graph id = .ok action) :
    action ∈ book.actions := by
  obtain ⟨entry, member, _, _, rule, inGroup, rfl, _⟩ := select_eq_ok selected
  exact mem_flatMap.mpr ⟨entry, member, mem_map.mpr ⟨rule, inGroup, rfl⟩⟩

/-- All replacements of a book only append nodes. -/
def Appends (book : RuleBook) : Prop :=
  ∀ replacement, .replace replacement ∈ book.actions → replacement.Appends

/-- The replacements of a book only append nodes, and its templates are direct. -/
structure Orderly (book : RuleBook) : Prop where
  appends : book.Appends
  direct : ∀ action ∈ book.actions, action.isDirect

theorem Orderly.layeredOn {base : RuleBook} (own : book.Orderly) (inherited : base.Orderly) :
    (book.layeredOn base).Orderly where
  appends replacement member := by
    rw [actions_layeredOn] at member
    rcases mem_append.mp member with mine | others
    · exact own.appends replacement mine
    · exact inherited.appends replacement others
  direct action member := by
    rw [actions_layeredOn] at member
    rcases mem_append.mp member with mine | others
    · exact own.direct action mine
    · exact inherited.direct action others

/-- A book is orderly by its list of replacements and a look at its templates. -/
theorem Orderly.of_replacements {replacements : List Replacement}
    (all : book.actions.filterMap Action.replacement? = replacements)
    (appends : ∀ replacement ∈ replacements, replacement.Appends)
    (direct : book.actions.all Action.isDirect) : book.Orderly where
  appends replacement member := by
    apply appends
    rw [← all]
    exact mem_filterMap.mpr ⟨_, member, rfl⟩
  direct := all_eq_true.mp direct

/-- What a node is lowered to is the template that is selected for it, or what the selected
replacement adds, which shares its tag. -/
inductive Chosen (book : RuleBook) (graph : Graph) (id : NodeId) : Lowering → Prop
  | template {template : Template} (selected : book.select graph id = .ok (.template template)) :
      Chosen book graph id (.template template)
  | replaced {replacement : Replacement} {added : Graph} {new : NodeId}
      (selected : book.select graph id = .ok (.replace replacement))
      (made : replacement graph id = .ok (added, new)) :
      Chosen book graph id (.replaced (added.shareTag id new) new)

theorem chosen_of_lower {lowering : Lowering} (lowered : book.lower graph id = .ok lowering) :
    book.Chosen graph id lowering := by
  unfold lower at lowered
  cases selected : book.select graph id with
  | error fault =>
    rw [selected] at lowered
    cases lowered
  | ok action =>
    rw [selected] at lowered
    cases action with
    | template chosen =>
      cases lowered
      exact .template selected
    | replace replacement =>
      change (replacement graph id >>= fun result => _) = _ at lowered
      cases made : replacement graph id with
      | error fault =>
        rw [made] at lowered
        cases lowered
      | ok result =>
        rw [made] at lowered
        change (if result.2 = id then _ else _) = _ at lowered
        split at lowered
        · cases lowered
        · cases lowered
          exact .replaced selected made

/-- A node that is replaced was selected for it, and what took its place shares its tag. -/
theorem lower_replaced {later : Graph} {new : NodeId}
    (lowered : book.lower graph id = .ok (.replaced later new)) :
    ∃ replacement added, book.select graph id = .ok (.replace replacement) ∧
      replacement graph id = .ok (added, new) ∧ later = added.shareTag id new := by
  cases chosen_of_lower lowered with
  | replaced selected made => exact ⟨_, _, selected, made, rfl⟩

/-- Lowering by a book that only appends changes nothing but tags. -/
theorem Appends.grows (appends : book.Appends) {larger : Graph} {new : NodeId}
    (lowered : book.lower graph id = .ok (.replaced larger new)) : graph.Grows larger := by
  obtain ⟨replacement, added, selected, made, rfl⟩ := lower_replaced lowered
  obtain ⟨size, same⟩ := appends _ (mem_actions_of_select selected) _ _ _ _ made
  have added_grows : graph.Grows added :=
    ⟨size, fun node inside => ⟨(graph.node node).tag, same node inside⟩⟩
  exact added_grows.trans (.shareTag added id _)

end RuleBook

end Retarget
