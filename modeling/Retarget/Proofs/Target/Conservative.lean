import Retarget.Proofs.Rule.Parts
import Retarget.Proofs.Target.Orderly

/-!
# Replacements that keep values

What takes the place of a node is added behind the graph, over nodes before it, and no rule replaces
it again. Graphs have a meaning over the integers as far as their operations do
(`Graph.Evaluates`), and every evaluation of a graph goes on to the nodes that are added. There the
choice in the place of a minimum or a maximum has the value of the minimum or the maximum.
-/

namespace Retarget

open List

/-- Whether a predicate holds of two integers. -/
def Specifier.holds? (left right : Int) : Specifier → Option Bool
  | .less => some (left < right)
  | .lessOrEqual => some (left ≤ right)
  | .equal => some (left = right)
  | .notEqual => some (left ≠ right)
  | .greater => some (left > right)
  | .greaterOrEqual => some (left ≥ right)
  | _ => none

/-- What a node makes of the integers of its operands. Variables stand for any integer, and so do
operations that have no meaning for integers. -/
def Node.onIntegers? (node : Node) (values : List Int) : Option Int :=
  match node.operation, values with
  | .constant, [] =>
    match node.payload with
    | .constant (.int value) => some value.toInt
    | .constant (.bool value) => some value.toNat
    | _ => none
  | .negation, [value] => some (-value)
  | .absolute, [value] => some |value|
  | .addition, [left, right] => some (left + right)
  | .subtraction, [left, right] => some (left - right)
  | .multiplication, [left, right] => some (left * right)
  | .minimum, [left, right] => some (min left right)
  | .maximum, [left, right] => some (max left right)
  | .comparison, [left, right] => (node.specifier.holds? left right).map fun holds => holds.toNat
  | .select, [condition, left, right] => some (if condition = 0 then right else left)
  | _, _ => none

namespace Graph

/-- The integer that a node has by those of its operands. -/
def integer? (graph : Graph) (values : NodeId → Int) (id : NodeId) : Option Int :=
  (graph.node id).onIntegers? ((graph.node id).operands.map values)

/-- Integers for the nodes of a graph that agree with its operations. -/
def Evaluates (graph : Graph) (values : NodeId → Int) : Prop :=
  ∀ id < graph.size, ∀ value ∈ graph.integer? values id, values id = value

/-- The operands of all nodes are in the graph. -/
def Closed (graph : Graph) : Prop :=
  ∀ id < graph.size, ∀ operand ∈ (graph.node id).operands, operand < graph.size

theorem integer?_congr {graph other : Graph} {values others : NodeId → Int} {id : NodeId}
    (same : other.node id = graph.node id)
    (agree : ∀ operand ∈ (graph.node id).operands, others operand = values operand) :
    other.integer? others id = graph.integer? values id := by
  rw [integer?, integer?, same, map_congr_left agree]

/-- An evaluation goes on, node by node, where each new node is over nodes before it. -/
theorem Evaluates.extend {graph after : Graph} {values : NodeId → Int} (closed : graph.Closed)
    (evaluates : graph.Evaluates values)
    (kept : ∀ place < graph.size, after.node place = graph.node place)
    (above : ∀ place, graph.size ≤ place → ∀ operand ∈ (after.node place).operands, operand < place)
    (count : Nat) :
    ∃ larger : NodeId → Int, (∀ place < graph.size, larger place = values place) ∧
      ∀ place < graph.size + count, ∀ value ∈ after.integer? larger place,
        larger place = value := by
  have below {place operand : NodeId} {bound : Nat} (inside : place < bound)
      (beyond : graph.size ≤ bound) (uses : operand ∈ (after.node place).operands) :
      operand < bound := by
    by_cases old : place < graph.size
    · rw [kept place old] at uses
      exact Nat.lt_of_lt_of_le (closed place old operand uses) beyond
    · exact Nat.lt_trans (above place (Nat.le_of_not_lt old) operand uses) inside
  induction count with
  | zero =>
    refine ⟨values, fun _ _ => rfl, fun place inside => ?_⟩
    rw [integer?_congr (kept place inside) fun _ _ => rfl]
    exact evaluates place inside
  | succ count ih =>
    obtain ⟨larger, same, evaluates⟩ := ih
    let last := graph.size + count
    let next := Function.update larger last ((after.integer? larger last).getD 0)
    have old {place : NodeId} (inside : place < last) : next place = larger place :=
      Function.update_of_ne (Nat.ne_of_lt inside) _ _
    have operands {place : NodeId} (inside : place ≤ last) :
        after.integer? next place = after.integer? larger place := by
      refine integer?_congr rfl fun operand uses => old ?_
      rcases Nat.lt_or_eq_of_le inside with before | rfl
      · exact below before (Nat.le_add_right _ _) uses
      · exact above last (Nat.le_add_right _ _) operand uses
    refine ⟨next, fun place inside => ?_, fun place inside value found => ?_⟩
    · exact (old (Nat.lt_add_right count inside)).trans (same place inside)
    · have upTo : place ≤ last := Nat.le_of_lt_succ inside
      rw [operands upTo] at found
      rcases Nat.lt_or_eq_of_le upTo with before | rfl
      · exact (old before).trans (evaluates place before value found)
      · exact (Function.update_self _ _ _).trans (found ▸ rfl)

/-- A node that takes the place of another one gets its tag, and all others are as they were
added. -/
theorem node_shareTag_add {graph : Graph} {id : NodeId} (inside : id < graph.size)
    (first second : Node) (place : NodeId) :
    (((graph.add first).1.add second).1.shareTag id (graph.size + 1)).node place =
      if place = graph.size + 1 then
        { second with tag := second.tag.or (graph.node id).tag }
      else if place = graph.size then first else graph.node place := by
  have apart : id ≠ graph.size + 1 := Nat.ne_of_lt (Nat.lt_succ_of_lt inside)
  have old : ((graph.add first).1.add second).1.node id = graph.node id := by
    rw [node_add, size_add, if_neg apart, node_add, if_neg (Nat.ne_of_lt inside)]
  unfold shareTag
  rw [if_neg apart, node_modify, old, node_add, size_add, size_add]
  by_cases last : place = graph.size + 1
  · rw [if_pos ⟨last, last ▸ Nat.lt_succ_self _⟩, if_pos last, if_pos last]
  · rw [if_neg fun both => last both.1, if_neg last, if_neg last, node_add]

namespace Rebuilt

variable {graph : Graph} {id : NodeId} {replacement : Replacement} {first second : Node}
  (rebuilt : graph.Rebuilt id replacement first second)

include rebuilt

/-- What is rebuilt is in the graph, and so are its operands. -/
theorem lt_size : id < graph.size ∧ ∀ operand ∈ (graph.node id).operands, operand < graph.size := by
  obtain ⟨family, ranked, members⟩ : ∃ family ∈ [Format.Family.float, .integer],
      ∀ place ∈ id :: (graph.node id).operands, family.contains (graph.node place).format = true := by
    cases rebuilt with
    | product operands _ numbers => exact ⟨.float, by simp, operands ▸ numbers⟩
    | choice operands _ ranked members => exact ⟨_, ranked, operands ▸ members⟩
  have inside {place : NodeId} (member : place ∈ id :: (graph.node id).operands) :=
    lt_size_of_contains ranked (members place member)
  exact ⟨inside mem_cons_self, fun operand uses => inside (mem_cons_of_mem _ uses)⟩

/-- The first new node is over operands of the node, and the second one over them and the first. -/
theorem operands_subset : first.operands ⊆ (graph.node id).operands ∧
    second.operands ⊆ graph.size :: (graph.node id).operands := by
  cases rebuilt with
  | product operands | choice operands =>
    rw [operands]
    constructor <;> simp

/-- An evaluation of the new nodes gives the least or the greatest of the operands. -/
theorem value_of_evaluates {after : Graph} (size : after.size = graph.size + 2)
    (inner : after.node graph.size = first) {tag : Option String}
    (outer : after.node (graph.size + 1) = { second with tag }) {values : NodeId → Int}
    (evaluates : after.Evaluates values) {left right : NodeId}
    (operands : (graph.node id).operands = [left, right]) :
    ((graph.node id).operation = .minimum →
      values (graph.size + 1) = min (values left) (values right)) ∧
    ((graph.node id).operation = .maximum →
      values (graph.size + 1) = max (values left) (values right)) := by
  cases rebuilt with
  | product _ _ _ quotient =>
    rw [quotient]
    exact ⟨nofun, nofun⟩
  | @choice _ _ predicate _ same ordered =>
    cases operands.symm.trans same
    have chosen : values (graph.size + 1) =
        if values graph.size = 0 then values right else values left := by
      refine evaluates _ (size ▸ Nat.lt_succ_self _) _ ?_
      rw [integer?, outer]
      rfl
    have compared (holds : Bool)
        (known : predicate.holds? (values left) (values right) = some holds) :
        values graph.size = holds.toNat := by
      refine evaluates _ (size ▸ Nat.lt_add_of_pos_right Nat.two_pos) _ ?_
      rw [integer?, inner]
      change (predicate.holds? _ _).map _ = _
      rw [known]
      rfl
    rw [chosen]
    simp only [mem_cons, not_mem_nil, or_false, Prod.mk.injEq] at ordered
    rcases ordered with ⟨operation, rfl⟩ | ⟨operation, rfl⟩
    · rw [operation, compared _ rfl]
      refine ⟨fun _ => ?_, nofun⟩
      by_cases less : values left < values right
      · simp [less, less.le]
      · simp [less, not_lt.mp less]
    · rw [operation, compared _ rfl]
      refine ⟨nofun, fun _ => ?_⟩
      by_cases less : values right < values left
      · simp [less, less.le]
      · simp [less, not_lt.mp less]

end Rebuilt

end Graph

namespace Catalog

/-- Where a target for C code replaces a node, all nodes of the graph are as they were, and the new
ones are over nodes before them and are not replaced again. The one that takes the place has the
format and the tag of the node. An evaluation of the graph goes on to the new nodes, and any that
does gives the place of a minimum or a maximum the least or the greatest of the operands. -/
theorem builtin_replaced_conservative {name : String} {target : Target}
    (found : builtin.target name = .ok target) {book : RuleBook}
    (known : target.books.get? .c = some book) {graph after : Graph} {id new : NodeId}
    (lowered : book.lower graph id = .ok (.replaced after new)) :
    (∀ place < graph.size, after.node place = graph.node place) ∧
    (∀ place, graph.size ≤ place → place < after.size →
      (∀ operand ∈ (after.node place).operands, operand < place) ∧
      ∀ later last, book.lower after place ≠ .ok (.replaced later last)) ∧
    (graph.size ≤ new ∧ new < after.size) ∧
    (after.node new).format = (graph.node id).format ∧
    (after.node new).tag = (graph.node id).tag ∧
    ∀ values, graph.Closed → graph.Evaluates values →
      (∃ larger, (∀ place < graph.size, larger place = values place) ∧ after.Evaluates larger) ∧
      ∀ larger, (∀ place < graph.size, larger place = values place) → after.Evaluates larger →
        ∀ left right, (graph.node id).operands = [left, right] →
          ((graph.node id).operation = .minimum → larger new = min (values left) (values right)) ∧
          ((graph.node id).operation = .maximum →
            larger new = max (values left) (values right)) := by
  have tame := builtin_tame found .c book known
  obtain ⟨replacement, added, selected, made, rfl⟩ := RuleBook.lower_replaced lowered
  obtain ⟨first, second, rebuilt⟩ :=
    (builtin_extendsPortable found known).rebuilt_of_select selected
  obtain ⟨inside, operandsInside⟩ := rebuilt.lt_size
  obtain ⟨innerOperands, outerOperands⟩ := rebuilt.operands_subset
  obtain ⟨_, last⟩ := Graph.joins_of_made made rebuilt.made
  have whole := congrArg Prod.fst (Except.ok.inj (made.symm.trans rebuilt.made))
  subst last whole
  have joins := graph.joins_shareTag first second id
  have nodes := Graph.node_shareTag_add inside first second
  have size := joins.size
  generalize ((graph.add first).1.add second).1.shareTag id (graph.size + 1) = after
    at joins size nodes ⊢
  have kept (place : NodeId) (old : place < graph.size) : after.node place = graph.node place := by
    rw [nodes, if_neg (Nat.ne_of_lt (Nat.lt_succ_of_lt old)), if_neg (Nat.ne_of_lt old)]
  have inner : after.node graph.size = first := by
    rw [nodes, if_neg (Nat.ne_of_lt (Nat.lt_succ_self _)), if_pos rfl]
  have outer := (nodes (graph.size + 1)).trans (if_pos rfl)
  obtain ⟨plainInner, plainOuter, format, untagged⟩ : first.operation.isReplaced = false ∧
      second.operation.isReplaced = false ∧ second.format = (graph.node id).format ∧
      second.tag = none := by
    cases rebuilt <;> exact ⟨rfl, rfl, rfl, rfl⟩
  have above (place : NodeId) (beyond : graph.size ≤ place) (operand : NodeId)
      (uses : operand ∈ (after.node place).operands) : operand < place := by
    rcases joins.eq_of_size_le beyond (Graph.Operand.lt_size uses) with rfl | rfl
    · rw [inner] at uses
      exact operandsInside operand (innerOperands uses)
    · rw [outer] at uses
      rcases mem_cons.mp (outerOperands uses) with rfl | old
      · exact Nat.lt_succ_self _
      · exact Nat.lt_succ_of_lt (operandsInside operand old)
  refine ⟨kept, fun place beyond within => ⟨above place beyond, tame.ne_replaced ?_⟩,
    ⟨Nat.le_succ _, size ▸ Nat.lt_succ_self _⟩, ?_, ?_, ?_⟩
  · rcases joins.eq_of_size_le beyond within with rfl | rfl
    · rw [inner]
      exact plainInner
    · rw [outer]
      exact plainOuter
  · rw [outer]
    exact format
  · rw [outer, untagged]
    rfl
  · intro values closed evaluates
    refine ⟨?_, fun larger same evaluates left right operands => ?_⟩
    · obtain ⟨larger, same, next⟩ := evaluates.extend closed kept above 2
      exact ⟨larger, same, fun place within => next place (size ▸ within)⟩
    · have old : ∀ place ∈ [left, right], larger place = values place := fun place member =>
        same place (operandsInside place (operands ▸ member))
      rw [← old left (by simp), ← old right (by simp)]
      exact rebuilt.value_of_evaluates size inner outer evaluates operands

/-- The lesser of two integers, under a tag. -/
def lesser : Graph :=
  ⟨#[{ operation := .variable, format := .int32, payload := .variable "x" },
    { operation := .variable, format := .int32, payload := .variable "y" },
    { operation := .minimum, operands := [0, 1], format := .int32, tag := some "least" }]⟩

/-- With three and two for the variables, the choice in the place of the lesser is two. -/
theorem lesser_replaced_conservative :
    ∃ after new, Portable.book.lower lesser 2 = .ok (.replaced after new) ∧
      (after.node new).tag = some "least" ∧
      ∃ larger, after.Evaluates larger ∧ larger new = 2 := by
  have found : builtin.target "generic" = .ok Portable.target := rfl
  obtain ⟨after, new, lowered⟩ : ∃ after new,
      Portable.book.lower lesser 2 = .ok (.replaced after new) := ⟨_, _, rfl⟩
  obtain ⟨_, _, _, _, tag, values⟩ := builtin_replaced_conservative found rfl lowered
  obtain ⟨⟨larger, same, evaluates⟩, least⟩ := values (fun id => if id = 0 then 3 else 2)
    (by unfold Graph.Closed; decide) (by unfold Graph.Evaluates; decide)
  exact ⟨after, new, lowered, tag, larger, evaluates,
    (least larger same evaluates 0 1 rfl).1 rfl⟩

end Catalog

end Retarget
