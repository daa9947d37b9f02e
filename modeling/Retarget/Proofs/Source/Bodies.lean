import Retarget.Proofs.Graph.Bodies
import Retarget.Proofs.Source.WellFormed

/-!
# What is read

The values of a program that is read are trees of operations over leaves, and the body of every
function of it is a statement of its graph.
-/

namespace Retarget

namespace Graph

/-- A statement of a graph. Where it is a conditional, the graph has one. -/
abbrev Stated (graph : Graph) (id : NodeId) : Prop :=
  graph.Statement graph.Branches id

variable {graph larger : Graph} {id : NodeId}

theorem Formed.value (formed : graph.Formed) (value : graph.ValueFrom 0 id) : graph.Value id := by
  induction id using Nat.strongRecOn with
  | ind id ih =>
    obtain ⟨_, inside, role⟩ := value
    have made := formed id inside
    generalize node : graph.node id = new at made role
    cases made with
    | constant scalar format tag =>
      apply Value.leaf <;> rw [node]
      · rfl
      · exact Payload.noConfusion
    | «variable» name format tag =>
      apply Value.leaf <;> rw [node]
      · rfl
      · exact Payload.noConfusion
    | table some storage tag =>
      apply Value.leaf <;> rw [node]
      · rfl
      · exact Payload.noConfusion
    | computed kind known arity specifier format tag =>
      apply Value.computed <;> rw [node]
      · exact kind
      · exact fun operand uses => ih operand (known operand uses).1 (known operand uses).2
    | result => exact absurd rfl role
    | condition => exact absurd rfl role
    | sequence => exact absurd rfl role

theorem Formed.stated (formed : graph.Formed) (statement : graph.StatementFrom 0 id) :
    graph.Stated id := by
  induction id using Nat.strongRecOn with
  | ind id ih =>
    obtain ⟨_, inside, role⟩ := statement
    have made := formed id inside
    generalize node : graph.node id = new at made role
    cases made with
    | constant => cases role
    | «variable» => cases role
    | table => cases role
    | computed kind =>
      rw [kind] at role
      cases role
    | result isValue =>
      apply Statement.result
      · rw [node]
      · rw [node]
      · exact formed.value isValue.2
    | condition isValue few parts =>
      apply Statement.condition ⟨id, by rw [node]⟩ _ _ few (formed.value isValue.2)
      · exact fun side member => (parts side member).1
      · exact fun side member => ih side (parts side member).1 (parts side member).2
      · rw [node]
      · rw [node]
    | sequence notOne all =>
      apply Statement.sequence _ inside <;> rw [node]
      · exact fun part member => (all part member).1
      · exact fun part member => ih part (all part member).1 (all part member).2

end Graph

/-- The body of every function that is read is a statement. -/
theorem Source.read_stated (text : String) :
    Yields (read text) fun program =>
      ∀ function ∈ program.functions, program.graph.Stated function.body := by
  intro program done function member
  have formed := read_formed text program done
  exact formed.graph.stated (formed.bodies function member)

end Retarget
