import Retarget.Proofs.Graph.Reachability

/-!
# Uses that move to a replacement

The uses of a node that is replaced move to the node that takes its place. The count of every other
node goes down by the places that the old node held it in, and up by those that the two new nodes
hold it in (`le_tally_moveUses`). All bounds are from below: a count that is too high only keeps a
value in a temporary that needs none.
-/

namespace Retarget.Graph

open List

variable {graph : Graph} {uses : Uses} {waiting operands : List NodeId} {inner other : NodeId}

/-! ## Taking uses away -/

theorem tally_dropUse (uses : Uses) (id other : NodeId) :
    tally (dropUse uses id) other = tally uses other - if id = other then 1 else 0 := by
  unfold dropUse
  cases present : uses.get? id with
  | none =>
    by_cases same : id = other
    · have nothing : tally uses other = 0 := by rw [tally, ← same, present, Option.getD_none]
      simp only [nothing, Nat.zero_sub]
    · rw [if_neg same, Nat.sub_zero]
  | some count =>
    rw [tally_insert]
    by_cases same : id = other
    · have counted : tally uses other = count := by rw [tally, ← same, present, Option.getD_some]
      rw [if_pos same, if_pos same, counted]
    · rw [if_neg same, if_neg same, Nat.sub_zero]

section

variable (operands : List NodeId) (uses : Uses) (other : NodeId)

theorem tally_foldl_dropUse :
    tally (operands.foldl dropUse uses) other = tally uses other - operands.count other := by
  induction operands generalizing uses with
  | nil => rfl
  | cons operand rest ih =>
    rw [foldl_cons, ih, tally_dropUse, count_cons]
    simp only [beq_iff_eq]
    omega

theorem mem_keys_foldl_dropUse :
    other ∈ (operands.foldl dropUse uses).keys ↔ other ∈ uses.keys := by
  induction operands generalizing uses with
  | nil => rfl
  | cons operand rest ih =>
    rw [foldl_cons, ih]
    unfold dropUse
    split
    · rename_i present
      have known : operand ∈ uses.keys := by rw [OrderedMap.mem_keys, present]; rfl
      rw [OrderedMap.mem_keys_insert]
      constructor
      · rintro (member | rfl)
        · exact member
        · exact known
      · exact Or.inl
    · rfl

end

/-! ## Counting the uses of new nodes -/

theorem contains_iff_mem_keys (uses : Uses) (id : NodeId) :
    uses.contains id = true ↔ id ∈ uses.keys := by
  rw [OrderedMap.mem_keys]
  rfl

theorem foldl_countFirstUse_fst (operands : List NodeId) (uses : Uses) (waiting : List NodeId) :
    (operands.foldl countFirstUse (uses, waiting)).1 = operands.foldl countUse uses := by
  induction operands generalizing uses waiting with
  | nil => rfl
  | cons operand rest ih => exact ih _ _

theorem countOperands_cons (graph : Graph) (steps : Nat) (id : NodeId) (waiting : List NodeId)
    (uses : Uses) :
    graph.countOperands (steps + 1) (id :: waiting) uses =
      graph.countOperands steps ((graph.node id).operands.foldl countFirstUse (uses, waiting)).2
        ((graph.node id).operands.foldl countUse uses) := by
  rw [← foldl_countFirstUse_fst _ _ waiting]
  rfl

/-- Nodes that are in use do not wait. -/
theorem foldl_countFirstUse_of_known (known : ∀ operand ∈ operands, operand ∈ uses.keys) :
    (operands.foldl countFirstUse (uses, waiting)).2 = waiting := by
  induction operands generalizing uses with
  | nil => rfl
  | cons operand rest ih =>
    obtain ⟨here, later⟩ := forall_mem_cons.mp known
    rw [foldl_cons, countFirstUse, if_pos ((contains_iff_mem_keys _ _).mpr here)]
    apply ih
    intro other member
    exact (mem_keys_countUse _ _ _).mpr (.inl (later other member))

/-- The one node that is not in use waits from its first use on. -/
theorem foldl_countFirstUse_of_new (new : inner ∉ uses.keys) (member : inner ∈ operands)
    (known : ∀ operand ∈ operands, operand = inner ∨ operand ∈ uses.keys) :
    (operands.foldl countFirstUse (uses, waiting)).2 = inner :: waiting := by
  induction operands generalizing uses with
  | nil => cases member
  | cons operand rest ih =>
    obtain ⟨here, later⟩ := forall_mem_cons.mp known
    rw [foldl_cons, countFirstUse]
    by_cases same : operand = inner
    · subst same
      have absent : ¬ uses.contains operand = true := fun found =>
        new ((contains_iff_mem_keys _ _).mp found)
      rw [if_neg absent]
      apply foldl_countFirstUse_of_known
      intro other used
      rw [mem_keys_countUse]
      exact (later other used).symm
    · have present := here.resolve_left same
      rw [if_pos ((contains_iff_mem_keys _ _).mpr present)]
      apply ih
      · rw [mem_keys_countUse]
        exact fun found => found.elim new (Ne.symm same)
      · exact (mem_cons.mp member).resolve_left (Ne.symm same)
      · intro other used
        rw [mem_keys_countUse]
        exact (later other used).imp_right .inl

/-- Counting takes no use away. -/
theorem le_tally_countOperands (graph : Graph) (steps : Nat) (waiting : List NodeId) (uses : Uses)
    (other : NodeId) : tally uses other ≤ tally (graph.countOperands steps waiting uses) other := by
  induction steps generalizing waiting uses with
  | zero => exact Nat.le_refl _
  | succ steps ih =>
    cases waiting with
    | nil => exact Nat.le_refl _
    | cons id waiting =>
      rw [countOperands_cons]
      apply Nat.le_trans _ (ih _ _)
      rw [tally_foldl_countUse]
      exact Nat.le_add_right _ _

theorem mem_keys_countOperands {steps : Nat} (member : other ∈ uses.keys) :
    other ∈ (graph.countOperands steps waiting uses).keys := by
  induction steps generalizing waiting uses with
  | zero => exact member
  | succ steps ih =>
    cases waiting with
    | nil => exact member
    | cons id waiting =>
      rw [countOperands_cons]
      apply ih
      exact (mem_keys_foldl_countUse _ _ _).mpr (.inl member)

theorem mem_foldl_countFirstUse {id : NodeId}
    (member : id ∈ (operands.foldl countFirstUse (uses, waiting)).2) :
    id ∈ operands ∨ id ∈ waiting := by
  induction operands generalizing uses waiting with
  | nil => exact .inr member
  | cons operand rest ih =>
    rcases ih member with later | front
    · exact .inl (mem_cons_of_mem _ later)
    · simp only [countFirstUse] at front
      split at front
      · exact .inr front
      · rcases mem_cons.mp front with rfl | old
        · exact .inl mem_cons_self
        · exact .inr old

/-- What holds of all nodes in use and passes on to operands holds after counting. -/
theorem forall_mem_keys_countOperands {holds : NodeId → Prop}
    (closed : ∀ id, holds id → ∀ operand ∈ (graph.node id).operands, holds operand) {steps : Nat}
    (waits : ∀ id ∈ waiting, holds id) (before : ∀ id ∈ uses.keys, holds id) :
    ∀ id ∈ (graph.countOperands steps waiting uses).keys, holds id := by
  induction steps generalizing waiting uses with
  | zero => exact before
  | succ steps ih =>
    cases waiting with
    | nil => exact before
    | cons first waiting =>
      obtain ⟨here, later⟩ := forall_mem_cons.mp waits
      rw [countOperands_cons]
      apply ih
      · intro id member
        rcases mem_foldl_countFirstUse member with operand | old
        · exact closed first here id operand
        · exact later id old
      · intro id member
        rw [mem_keys_foldl_countUse] at member
        rcases member with old | operand
        · exact before id old
        · exact closed first here id operand

/-! ## Moving uses -/

section

variable {old new : NodeId} (fresh : new ∉ uses.keys)

include fresh in
theorem moveUses_of_fresh :
    graph.moveUses uses old new =
      graph.countOperands (graph.operandCount + 2) [new]
        (((graph.node old).operands.foldl dropUse uses).insert new ((uses.get? old).getD 1)) := by
  have absent : ((graph.node old).operands.foldl dropUse uses).get? new = none := by
    rw [← Option.not_isSome_iff_eq_none, ← OrderedMap.mem_keys, mem_keys_foldl_dropUse]
    exact fresh
  unfold moveUses
  simp only [absent, Option.isSome_none, Bool.false_eq_true, if_false, Option.getD_none,
    Nat.zero_add]

include fresh in
/-- The node that takes the place of another has at least its uses. -/
theorem tally_le_tally_moveUses : tally uses old ≤ tally (graph.moveUses uses old new) new := by
  rw [moveUses_of_fresh fresh]
  apply Nat.le_trans _ (le_tally_countOperands _ _ _ _ _)
  rw [tally_insert, if_pos rfl, tally]
  cases uses.get? old with
  | none => exact Nat.zero_le _
  | some count => exact Nat.le_refl _

include fresh in
/-- Of two new nodes, the second takes the place of another node and uses the first. Every other node
gets the uses by both of them in exchange for those by the old node. -/
theorem le_tally_moveUses (innerFresh : inner ∉ uses.keys) (apart : inner ≠ new)
    (member : inner ∈ (graph.node new).operands)
    (known : ∀ operand ∈ (graph.node new).operands, operand = inner ∨ operand ∈ uses.keys)
    (notNew : other ≠ new) :
    tally uses other - (graph.node old).operands.count other +
        ((graph.node inner).operands.count other + (graph.node new).operands.count other) ≤
      tally (graph.moveUses uses old new) other := by
  rw [moveUses_of_fresh fresh]
  generalize moved : ((graph.node old).operands.foldl dropUse uses).insert new
    ((uses.get? old).getD 1) = start
  have keys (id : NodeId) : id ∈ start.keys ↔ id ∈ uses.keys ∨ id = new := by
    rw [← moved, OrderedMap.mem_keys_insert, mem_keys_foldl_dropUse]
  have begins : tally start other = tally uses other - (graph.node old).operands.count other := by
    rw [← moved, tally_insert, if_neg (Ne.symm notNew), tally_foldl_dropUse]
  have waits : ((graph.node new).operands.foldl countFirstUse (start, [])).2 = [inner] := by
    apply foldl_countFirstUse_of_new
    · rw [keys]
      exact fun found => found.elim innerFresh apart
    · exact member
    · intro operand used
      rw [keys]
      exact (known operand used).imp_right .inl
  rw [countOperands_cons, waits, countOperands_cons]
  apply Nat.le_trans _ (le_tally_countOperands _ _ _ _ _)
  rw [tally_foldl_countUse, tally_foldl_countUse, begins]
  omega

include fresh in
theorem mem_keys_moveUses (used : other ∈ uses.keys) : other ∈ (graph.moveUses uses old new).keys := by
  rw [moveUses_of_fresh fresh]
  apply mem_keys_countOperands
  rw [OrderedMap.mem_keys_insert, mem_keys_foldl_dropUse]
  exact .inl used

include fresh in
theorem forall_mem_keys_moveUses {holds : NodeId → Prop}
    (closed : ∀ id, holds id → ∀ operand ∈ (graph.node id).operands, holds operand)
    (isNew : holds new) (before : ∀ id ∈ uses.keys, holds id) :
    ∀ id ∈ (graph.moveUses uses old new).keys, holds id := by
  rw [moveUses_of_fresh fresh]
  apply forall_mem_keys_countOperands closed
  · exact forall_mem_singleton.mpr isNew
  · intro id member
    rw [OrderedMap.mem_keys_insert, mem_keys_foldl_dropUse] at member
    rcases member with old | rfl
    · exact before id old
    · exact isNew

end

end Retarget.Graph
