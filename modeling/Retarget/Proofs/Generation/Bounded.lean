import Retarget.Proofs.Generation.Recursion
import Retarget.Proofs.Graph.Reachability
import Retarget.Proofs.Rule.Tame

/-!
# The number of steps of lowering

Lowering by a book of tame rules takes no more steps than are allowed for it, in every graph, with
cycles or without. A node is opened at most once: from then on it is on the way, and afterwards its
code is known. What is left to do is bounded by the weight of the nodes that are neither, together
with the length of the stack; a replacement makes two new nodes, which weigh less than the one that
they replace.
-/

namespace Retarget

open List

/-- A bound on the work that opening a node brings, the nodes that replace it included. -/
def Node.weight (node : Node) : Nat :=
  node.operands.length + 1 + if node.operation.isReplaced then 10 else 0

theorem Node.weight_of_unreplaced {node : Node} (unreplaced : node.operation.isReplaced = false) :
    node.weight = node.operands.length + 1 := by
  rw [weight, unreplaced]
  rfl

namespace Graph

variable {graph : Graph} {id : NodeId} {closed later : NodeId → Bool}

/-- The weight of all nodes that are not closed. -/
def openWeight (graph : Graph) (closed : NodeId → Bool) : Nat :=
  ∑ id ∈ Finset.range graph.size, if closed id then 0 else (graph.node id).weight

theorem weight_anti (more : closed id = true → later id = true) (weight : Nat) :
    (if later id then 0 else weight) ≤ if closed id then 0 else weight := by
  by_cases known : closed id = true
  · rw [if_pos known, if_pos (more known)]
  · rw [if_neg known]
    split
    · exact Nat.zero_le _
    · exact Nat.le_refl _

/-- Closing a node takes its weight away. -/
theorem openWeight_close (inside : id < graph.size) (opened : closed id = false)
    (closing : later id = true) (more : ∀ id, closed id = true → later id = true) :
    graph.openWeight later + (graph.node id).weight ≤ graph.openWeight closed := by
  have member : id ∈ Finset.range graph.size := Finset.mem_range.mpr inside
  unfold openWeight
  rw [← Finset.add_sum_erase _ _ member, ← Finset.add_sum_erase _ _ member, if_pos closing,
    if_neg (Bool.not_eq_true _ ▸ opened), Nat.zero_add, Nat.add_comm]
  exact Nat.add_le_add_left (Finset.sum_le_sum fun other _ => weight_anti (more other) _) _

theorem openWeight_add (graph : Graph) (new : Node) (closed : NodeId → Bool) :
    (graph.add new).1.openWeight closed ≤ graph.openWeight closed + new.weight := by
  unfold openWeight
  rw [size_add, Finset.sum_range_succ]
  refine Nat.add_le_add (Nat.le_of_eq (Finset.sum_congr rfl fun id member => ?_)) ?_
  · rw [node_add_of_lt (Finset.mem_range.mp member)]
  · rw [node_add, if_pos rfl]
    split
    · exact Nat.zero_le _
    · exact Nat.le_refl _

theorem openWeight_shareTag (graph : Graph) (source destination : NodeId)
    (closed : NodeId → Bool) :
    (graph.shareTag source destination).openWeight closed = graph.openWeight closed := by
  have size : (graph.shareTag source destination).size = graph.size := by
    unfold shareTag
    split
    · rfl
    · exact size_modify _ _ _
  unfold openWeight
  rw [size]
  refine Finset.sum_congr rfl fun id member => ?_
  obtain ⟨tag, same⟩ :=
    (Grows.shareTag graph source destination).node id (Finset.mem_range.mp member)
  rw [same]
  rfl

/-- All nodes together weigh less than the steps allowed for one expression. -/
theorem openWeight_le (graph : Graph) (closed : NodeId → Bool) :
    graph.openWeight closed ≤ graph.operandCount + 11 * graph.size := by
  have total : graph.operandCount + 11 * graph.size =
      ∑ id ∈ Finset.range graph.size, ((graph.node id).operands.length + 11) := by
    rw [Finset.sum_add_distrib, Finset.sum_const_nat fun _ _ => rfl, Finset.card_range,
      ← unexpandedPlaces_nil, unexpandedPlaces, Nat.mul_comm]
    simp only [not_mem_nil, ↓reduceIte]
  rw [total]
  refine Finset.sum_le_sum fun id _ => ?_
  unfold Node.weight
  split
  · exact Nat.zero_le _
  · split <;> omega

end Graph

namespace Generator

/-- The node is on the way or has code. -/
def isClosed (generator : Generator) (path : List NodeId) (id : NodeId) : Bool :=
  (generator.code? id).isSome || decide (id ∈ path)

/-- The weight of the nodes that are not on the way and have no code. -/
def remaining (generator : Generator) (path : List NodeId) : Nat :=
  generator.graph.openWeight (generator.isClosed path)

section

variable {job : Job} {before middle after : Generator} {path onward : List NodeId} {id : NodeId}

theorem isClosed_cons (generator : Generator) (other : NodeId)
    (closed : generator.isClosed path other = true) :
    generator.isClosed (id :: path) other = true := by
  simp only [isClosed, Bool.or_eq_true, decide_eq_true_eq, mem_cons] at closed ⊢
  tauto

/-- A node that gets its code may leave the way. -/
theorem remaining_remember (same : SameCodes before middle) (code : String)
    (stays : ∀ other ∈ path, other = id ∨ other ∈ onward) :
    (finalState (remember id code middle)).remaining onward ≤ before.remaining path := by
  have graph : (finalState (remember id code middle)).graph = before.graph := same.graph
  unfold remaining
  rw [graph]
  refine Finset.sum_le_sum fun other _ => Graph.weight_anti (fun closed => ?_) _
  simp only [isClosed, Bool.or_eq_true, decide_eq_true_eq] at closed ⊢
  rw [code?_remember, same.code?]
  by_cases own : id = other
  · exact .inl (by rw [if_pos own]; rfl)
  · rw [if_neg own]
    rcases closed with known | visited
    · exact .inl known
    · rcases stays other visited with rfl | there
      · exact absurd rfl own
      · exact .inr there

theorem mem_erase_or (path : List NodeId) (id : NodeId) :
    ∀ other ∈ path, other = id ∨ other ∈ path.erase id := by
  intro other member
  by_cases same : other = id
  · exact .inl same
  · exact .inr ((mem_erase_of_ne same).mpr member)

/-- Opening a node puts it on the way. -/
theorem remaining_open (unknown : before.code? id = none) (fresh : id ∉ path)
    (inside : id < before.graph.size) :
    before.remaining (id :: path) + (before.graph.node id).weight ≤ before.remaining path := by
  refine Graph.openWeight_close inside ?_ ?_ before.isClosed_cons
  · simp [isClosed, unknown, fresh]
  · simp [isClosed]

/-- A replacement weighs less than what it replaces. -/
theorem openWeight_builds {graph : Graph} {first second : Node}
    (builds : graph.Builds id first second) (closed : NodeId → Bool) :
    (((graph.add first).1.add second).1.shareTag id (graph.size + 1)).openWeight closed ≤
      graph.openWeight closed + 7 := by
  have inner := graph.openWeight_add first closed
  have outer := (graph.add first).1.openWeight_add second closed
  rw [Node.weight_of_unreplaced builds.inner.unreplaced] at inner
  rw [Node.weight_of_unreplaced builds.outer.unreplaced] at outer
  have few := builds.few
  rw [Graph.openWeight_shareTag]
  omega

theorem emit_sameCodes (options : Options) (id : NodeId) (template : Template) :
    Changes SameCodes (emit options id template) :=
  .get_bind fun generator => Changes.bind (.liftExcept _)
    (fun codes => emitOver_sameCodes options id template codes) generator

section

variable (tame : job.book.Tame)

include tame

theorem replace_remaining {later : Graph} {new : NodeId} (unknown : before.code? id = none)
    (idle : id ∉ path) (role : (before.graph.node id).operation.role = .value)
    (lowered : job.book.lower before.graph id = .ok (.replaced later new)) :
    (finalState (replace later id new before)).remaining (id :: path) + 2 ≤
      before.remaining path := by
  have opening := remaining_open unknown idle (Graph.lt_size_of_value role)
  obtain ⟨isReplaced, builds, _⟩ := tame.replaces lowered
  have built := openWeight_builds builds (before.isClosed (id :: path))
  unfold Node.weight at opening
  rw [isReplaced] at opening
  refine (Nat.add_le_add_right built 2).trans ?_
  unfold remaining at opening ⊢
  simp only [↓reduceIte] at opening
  omega

/-- No step leaves more to do, beyond what it takes off the stack. -/
theorem step_remaining {next : Work} {more : List Work}
    (stepped : step job path next before = .ok (onward, more) after) :
    after.remaining onward + more.length ≤ before.remaining path := by
  cases outcome_of_eq stepped with
  | skip _ => exact Nat.le_refl _
  | leaf _ _ _ same => exact remaining_remember same _ fun _ member => .inr member
  | await unknown idle role _ =>
    have opening := remaining_open unknown idle (Graph.lt_size_of_value role)
    unfold Node.weight at opening
    simp only [length_append, length_map, length_singleton]
    omega
  | replace unknown idle role lowered => exact replace_remaining tame unknown idle role lowered
  | @emit id template code middle emitted =>
    exact remaining_remember ((emit_sameCodes job.options id template).of_eq_ok emitted) code
      (mem_erase_or path id)
  | @share id _ code _ =>
    exact remaining_remember (Std.Refl.refl before) code (mem_erase_or path id)

/-- A stack is worked off in as many steps as it has work and weight left. -/
theorem work_ended {steps : Nat} {stack : List Work}
    (enough : before.remaining path + stack.length ≤ steps) :
    Ended (work job steps path stack before) := by
  induction steps generalizing path stack before with
  | zero =>
    cases stack with
    | nil => exact fun _ impossible => by cases impossible
    | cons next rest => simp at enough
  | succ steps ih =>
    cases stack with
    | nil => exact fun _ impossible => by cases impossible
    | cons next rest =>
      cases stepped : step job path next before with
      | error fault middle =>
        rw [work_of_step_error stepped]
        exact fun _ impossible => by cases impossible
      | ok result middle =>
        obtain ⟨onward, more⟩ := result
        rw [work_of_step_ok stepped]
        apply ih
        have fewer := step_remaining tame stepped
        simp only [length_append, length_cons] at enough ⊢
        omega

/-- The steps allowed for one expression are always enough. -/
theorem work_stepLimit_ended (root : NodeId) (generator : Generator) :
    Ended (work job (stepLimit generator.graph) [] [.visit root] generator) := by
  apply work_ended tame
  have bound := generator.graph.openWeight_le (generator.isClosed [])
  unfold remaining stepLimit
  simp only [length_singleton]
  omega

end

end

end Generator

end Retarget
