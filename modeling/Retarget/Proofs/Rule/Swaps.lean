import Retarget.Proofs.Graph.Bodies
import Retarget.Proofs.Graph.Counting
import Retarget.Proofs.Rule.Conserving

/-!
# Replaced nodes

While a function is generated, its graph grows by pairs of nodes, each of which takes the place of a
value that the body needs (`Graph.Patched`). The counts of uses are moved along, and never fall below
what they were for the body, nor below the places in any of the pairs (`Graph.Counted`). So a value
that is counted once is used in one place (`Graph.Counted.lone`).
-/

namespace Retarget

open List

/-- A node that was replaced, and the first of the two nodes that were added for it. -/
structure Swap where
  old : NodeId
  inner : NodeId

namespace Swap

/-- The second of the two nodes, which takes the place of the replaced one. -/
def outer (swap : Swap) : NodeId :=
  swap.inner + 1

/-- A node is one of the two. -/
def Has (swap : Swap) (id : NodeId) : Prop :=
  id = swap.inner ∨ id = swap.outer

/-- How often the two nodes use another one. -/
def places (swap : Swap) (graph : Graph) (id : NodeId) : Nat :=
  (graph.node swap.inner).operands.count id + (graph.node swap.outer).operands.count id

end Swap

namespace Graph

/-- Nodes were added only in pairs, each in place of a value that the body needs. -/
structure Patched (base : Graph) (body : NodeId) (graph : Graph) (swaps : List Swap) : Prop where
  grows : base.Grows graph
  bare : graph.Bare
  covered : ∀ id, base.size ≤ id → id < graph.size → ∃ swap ∈ swaps, swap.Has id
  replaced : ∀ swap ∈ swaps,
    base.Reaches body swap.old ∧ (base.node swap.old).operation.role = .value
  added : ∀ swap ∈ swaps, base.size ≤ swap.inner ∧ swap.outer < graph.size
  inner : ∀ swap ∈ swaps, ∀ operand ∈ (graph.node swap.inner).operands,
    operand ∈ (base.node swap.old).operands
  outer : ∀ swap ∈ swaps, ∀ operand ∈ (graph.node swap.outer).operands,
    operand ∈ (base.node swap.old).operands ∨ operand = swap.inner
  once : ∀ swap ∈ swaps, (graph.node swap.outer).operands.count swap.inner = 1
  unreplaced : ∀ swap ∈ swaps, ∀ id, swap.Has id →
    (graph.node id).operation.isReplaced = false
  apart : ∀ first ∈ swaps, ∀ second ∈ swaps, ∀ id, first.Has id → second.Has id → first = second

/-- A node that the body needs, or one of a pair. -/
def Needed (base : Graph) (body : NodeId) (swaps : List Swap) (id : NodeId) : Prop :=
  base.Reaches body id ∨ ∃ swap ∈ swaps, swap.Has id

/-- The node that another one was made for: itself, or the one that its pair took the place of. -/
def Owns (swaps : List Swap) (owner id : NodeId) : Prop :=
  owner = id ∨ ∃ swap ∈ swaps, swap.Has id ∧ swap.old = owner

section

variable {base graph larger : Graph} {body id operand : NodeId} {swaps : List Swap}

theorem Patched.start (bare : base.Bare) : Patched base body base [] where
  grows := .refl base
  bare := bare
  covered _ beyond inside := absurd inside (Nat.not_lt_of_le beyond)
  replaced := forall_mem_nil _
  added := forall_mem_nil _
  inner := forall_mem_nil _
  outer := forall_mem_nil _
  once := forall_mem_nil _
  unreplaced := forall_mem_nil _
  apart := forall_mem_nil _

namespace Patched

variable (patched : Patched base body graph swaps)
include patched

theorem lt_size_of_has {swap : Swap} (member : swap ∈ swaps) (has : swap.Has id) :
    base.size ≤ id ∧ id < graph.size := by
  obtain ⟨beyond, inside⟩ := patched.added swap member
  unfold Swap.outer at inside
  rcases has with rfl | rfl
  · exact ⟨beyond, Nat.lt_of_succ_lt inside⟩
  · exact ⟨Nat.le_succ_of_le beyond, inside⟩

/-- A node that is replaced is no node of a pair. -/
theorem reaches_of_isReplaced (needed : Needed base body swaps id)
    (isReplaced : (graph.node id).operation.isReplaced = true) : base.Reaches body id := by
  rcases needed with reached | ⟨swap, member, has⟩
  · exact reached
  · rw [patched.unreplaced swap member id has] at isReplaced
    cases isReplaced

theorem places_grows (grows : graph.Grows larger) {swap : Swap} (member : swap ∈ swaps)
    (id : NodeId) : swap.places larger id = swap.places graph id := by
  unfold Swap.places
  rw [grows.operands_eq (patched.lt_size_of_has member (.inl rfl)).2,
    grows.operands_eq (patched.lt_size_of_has member (.inr rfl)).2]

variable (grounded : ∀ id, base.Reaches body id → id < base.size)
include grounded

theorem lt_size (needed : Needed base body swaps id) : id < graph.size := by
  rcases needed with reached | ⟨swap, member, has⟩
  · exact Nat.lt_of_lt_of_le (grounded id reached) patched.grows.size
  · exact (patched.lt_size_of_has member has).2

theorem operands_eq (reached : base.Reaches body id) :
    (graph.node id).operands = (base.node id).operands :=
  patched.grows.operands_eq (grounded id reached)

section

variable (needed : Needed base body swaps id) (uses : operand ∈ (graph.node id).operands)

include needed uses

/-- An operand is the first node of the pair that the user is in, or an operand of the node that
the user was made for. -/
theorem user :
    (∃ swap ∈ swaps, id = swap.outer ∧ operand = swap.inner) ∨
      ∃ owner, Owns swaps owner id ∧ base.Reaches body owner ∧
        operand ∈ (base.node owner).operands := by
  rcases needed with reached | ⟨swap, member, rfl | rfl⟩
  · rw [patched.operands_eq grounded reached] at uses
    exact .inr ⟨id, .inl rfl, reached, uses⟩
  · exact .inr ⟨swap.old, .inr ⟨swap, member, .inl rfl, rfl⟩, (patched.replaced swap member).1,
      patched.inner swap member operand uses⟩
  · rcases patched.outer swap member operand uses with known | rfl
    · exact .inr ⟨swap.old, .inr ⟨swap, member, .inr rfl, rfl⟩, (patched.replaced swap member).1,
        known⟩
    · exact .inl ⟨swap, member, rfl, rfl⟩

theorem needed_operand : Needed base body swaps operand := by
  rcases patched.user grounded needed uses with ⟨swap, member, _, rfl⟩ | ⟨owner, _, reached, known⟩
  · exact .inr ⟨swap, member, .inl rfl⟩
  · exact .inl (reached.tail known)

end

/-- Another pair takes the place of a value. -/
theorem join {first second : Node} (reached : base.Reaches body id)
    (role : (graph.node id).operation.role = .value) (builds : graph.Builds id first second)
    (conserves : graph.Conserves id first second) (joins : graph.Joins larger first second) :
    Patched base body larger (⟨id, graph.size⟩ :: swaps) := by
  have same := patched.operands_eq grounded reached
  obtain ⟨_, innerNode⟩ := joins.inner
  obtain ⟨_, outerNode⟩ := joins.outer
  have inside {swap : Swap} (member : swap ∈ swaps) {place : NodeId} (has : swap.Has place) :=
    (patched.lt_size_of_has member has).2
  have kept {swap : Swap} (member : swap ∈ swaps) {place : NodeId} (has : swap.Has place) :
      (larger.node place).operands = (graph.node place).operands :=
    joins.grows.operands_eq (inside member has)
  have newPlace {place : NodeId} (has : Swap.Has ⟨id, graph.size⟩ place) : graph.size ≤ place := by
    rcases has with rfl | rfl
    · exact Nat.le_refl _
    · exact Nat.le_succ _
  constructor
  case grows => exact patched.grows.trans joins.grows
  case bare =>
    intro place isValue
    obtain ⟨bareFirst, bareSecond⟩ := forall_mem_cons.mp conserves.bare
    rcases Nat.lt_or_ge place graph.size with before | beyond
    · rw [joins.grows.operation_eq before] at isValue
      rw [joins.grows.payload_eq before]
      exact patched.bare place isValue
    rcases joins.eq_of_size_le beyond (lt_size_of_value isValue) with rfl | rfl
    · rw [innerNode] at isValue ⊢
      exact bareFirst isValue
    · rw [outerNode] at isValue ⊢
      exact forall_mem_singleton.mp bareSecond isValue
  case covered =>
    intro place beyond inside
    rcases Nat.lt_or_ge place graph.size with before | after
    · obtain ⟨swap, member, has⟩ := patched.covered place beyond before
      exact ⟨swap, mem_cons_of_mem _ member, has⟩
    · exact ⟨_, mem_cons_self, joins.eq_of_size_le after inside⟩
  case replaced =>
    refine forall_mem_cons.mpr ⟨⟨reached, ?_⟩, patched.replaced⟩
    rw [← patched.grows.operation_eq (grounded id reached)]
    exact role
  case added =>
    refine forall_mem_cons.mpr ⟨⟨patched.grows.size, ?_⟩, fun swap member => ?_⟩
    · rw [joins.size]
      exact Nat.lt_succ_self _
    · exact ⟨(patched.added swap member).1,
        Nat.lt_of_lt_of_le (patched.added swap member).2 joins.grows.size⟩
  case inner =>
    refine forall_mem_cons.mpr ⟨?_, fun swap member => ?_⟩
    · rw [innerNode, ← same]
      exact builds.inner.operands
    · rw [kept member (.inl rfl)]
      exact patched.inner swap member
  case outer =>
    refine forall_mem_cons.mpr ⟨?_, fun swap member => ?_⟩
    · rw [show Swap.outer ⟨id, graph.size⟩ = graph.size + 1 from rfl, outerNode, ← same]
      exact builds.outer.operands
    · rw [kept member (.inr rfl)]
      exact patched.outer swap member
  case once =>
    refine forall_mem_cons.mpr ⟨?_, fun swap member => ?_⟩
    · rw [show Swap.outer ⟨id, graph.size⟩ = graph.size + 1 from rfl, outerNode]
      exact conserves.once
    · rw [kept member (.inr rfl)]
      exact patched.once swap member
  case unreplaced =>
    refine forall_mem_cons.mpr ⟨?_, fun swap member place has => ?_⟩
    · rintro place (rfl | rfl)
      · rw [innerNode]
        exact builds.inner.unreplaced
      · rw [show Swap.outer ⟨id, graph.size⟩ = graph.size + 1 from rfl, outerNode]
        exact builds.outer.unreplaced
    · rw [joins.grows.operation_eq (inside member has)]
      exact patched.unreplaced swap member place has
  case apart =>
    intro left leftMember right rightMember place hasLeft hasRight
    rcases mem_cons.mp leftMember with rfl | leftKnown <;>
      rcases mem_cons.mp rightMember with rfl | rightKnown
    · rfl
    · exact absurd (inside rightKnown hasRight) (Nat.not_lt_of_le (newPlace hasLeft))
    · exact absurd (inside leftKnown hasLeft) (Nat.not_lt_of_le (newPlace hasRight))
    · exact patched.apart left leftKnown right rightKnown place hasLeft hasRight

end Patched

/-! ## Counts of uses -/

/-- The counts of uses along pairs of nodes. -/
structure Counted (base : Graph) (body : NodeId) (graph : Graph) (swaps : List Swap)
    (uses : Uses) : Prop where
  reached : ∀ id, base.Reaches body id → id ∈ uses.keys
  needed : ∀ id ∈ uses.keys, Needed base body swaps id
  kept : ∀ id, (base.node id).operation.role = .value →
    tally (base.uses body) id ≤ tally uses id
  places : ∀ swap ∈ swaps, ∀ id, (base.node id).operation.role = .value →
    swap.places graph id ≤ tally uses id

/-- A value is used in one place at most, in the body and in each pair. -/
def Lone (base : Graph) (body : NodeId) (graph : Graph) (swaps : List Swap) (id : NodeId) : Prop :=
  tally (base.uses body) id ≤ 1 ∧ ∀ swap ∈ swaps, swap.places graph id ≤ 1

theorem Counted.start : Counted base body base [] (base.uses body) where
  reached id := (base.mem_keys_uses body id).mpr
  needed id member := .inl ((base.mem_keys_uses body id).mp member)
  kept _ _ := Nat.le_refl _
  places := forall_mem_nil _

theorem Counted.lone {uses : Uses} (counted : Counted base body graph swaps uses)
    (role : (base.node id).operation.role = .value) (once : tally uses id ≤ 1) :
    Lone base body graph swaps id :=
  ⟨Nat.le_trans (counted.kept id role) once,
    fun swap member => Nat.le_trans (counted.places swap member id role) once⟩

/-- A value stays lone where a pair is added for a node that does not use it. -/
theorem Lone.join (lone : Lone base body graph swaps id) (patched : Patched base body graph swaps)
    {swap : Swap} (joined : Patched base body larger (swap :: swaps))
    (grows : graph.Grows larger) (apart : id ≠ swap.inner)
    (unused : id ∉ (base.node swap.old).operands) : Lone base body larger (swap :: swaps) id := by
  refine ⟨lone.1, forall_mem_cons.mpr ⟨?_, fun other member => ?_⟩⟩
  · have notInner : id ∉ (larger.node swap.inner).operands := fun uses =>
      unused (joined.inner swap mem_cons_self id uses)
    have notOuter : id ∉ (larger.node swap.outer).operands := fun uses =>
      (joined.outer swap mem_cons_self id uses).elim unused apart
    rw [Swap.places, count_eq_zero.mpr notInner, count_eq_zero.mpr notOuter]
    exact Nat.zero_le _
  · rw [patched.places_grows grows member]
    exact lone.2 other member

/-- A value with one place is used by one node of the body. -/
theorem Lone.user_unique (lone : Lone base body graph swaps id) {first second : NodeId}
    (reachedFirst : base.Reaches body first) (reachedSecond : base.Reaches body second)
    (usesFirst : id ∈ (base.node first).operands) (usesSecond : id ∈ (base.node second).operands) :
    first = second := by
  by_contra apart
  have both := count_add_count_le reachedFirst reachedSecond apart id
  have atFirst := count_pos_iff.mpr usesFirst
  have atSecond := count_pos_iff.mpr usesSecond
  have single := lone.1
  omega

section Join

variable {uses : Uses} {first second : Node} (patched : Patched base body graph swaps)
  (counted : Counted base body graph swaps uses)
  (grounded : ∀ id, base.Reaches body id → id < base.size) (reached : base.Reaches body id)
  (role : (graph.node id).operation.role = .value) (builds : graph.Builds id first second)
  (conserves : graph.Conserves id first second) (joins : graph.Joins larger first second)

include patched counted grounded

theorem Counted.notMem_keys (beyond : graph.size ≤ id) : id ∉ uses.keys :=
  fun member => absurd (patched.lt_size grounded (counted.needed id member)) (Nat.not_lt_of_le beyond)

include reached builds conserves joins

/-- The uses by a pair are counted in exchange for those by the node that it took the place of. -/
theorem Counted.le_tally_join {other : NodeId} (apart : other ≠ graph.size + 1) :
    tally uses other - (base.node id).operands.count other +
        Swap.places ⟨id, graph.size⟩ larger other ≤
      tally (larger.moveUses uses id (graph.size + 1)) other := by
  obtain ⟨_, outerNode⟩ := joins.outer
  have same : (larger.node id).operands = (base.node id).operands := by
    rw [joins.grows.operands_eq (patched.lt_size grounded (.inl reached)),
      patched.operands_eq grounded reached]
  rw [← same]
  apply le_tally_moveUses _ _ _ _ _ apart
  · exact counted.notMem_keys patched grounded (Nat.le_succ _)
  · exact counted.notMem_keys patched grounded (Nat.le_refl _)
  · exact Nat.ne_of_lt (Nat.lt_succ_self _)
  · rw [outerNode]
    exact count_pos_iff.mp (Nat.lt_of_lt_of_eq Nat.zero_lt_one conserves.once.symm)
  · intro operand member
    rw [outerNode] at member
    rcases builds.outer.operands operand member with known | new
    · rw [patched.operands_eq grounded reached] at known
      exact .inr (counted.reached operand (reached.tail known))
    · exact .inl new

/-- No value that was there before is counted less. -/
theorem Counted.tally_le_tally_join {other : NodeId} (inside : other < graph.size)
    (isValue : other < base.size → (base.node other).operation.role = .value) :
    tally uses other ≤ tally (larger.moveUses uses id (graph.size + 1)) other := by
  have moved := counted.le_tally_join patched grounded reached builds conserves joins
    (Nat.ne_of_lt (Nat.lt_succ_of_lt inside))
  have enough : (base.node id).operands.count other ≤
      Swap.places ⟨id, graph.size⟩ larger other := by
    rcases Nat.lt_or_ge other base.size with before | beyond
    · obtain ⟨_, innerNode⟩ := joins.inner
      obtain ⟨_, outerNode⟩ := joins.outer
      rw [← patched.operands_eq grounded reached, Swap.places, innerNode,
        show Swap.outer ⟨id, graph.size⟩ = graph.size + 1 from rfl, outerNode]
      apply conserves.kept
      rw [patched.grows.operation_eq before]
      exact isValue before
    · have unused : other ∉ (base.node id).operands := fun member =>
        absurd (grounded other (reached.tail member)) (Nat.not_lt_of_le beyond)
      rw [count_eq_zero.mpr unused]
      exact Nat.zero_le _
  omega

include role in
/-- The counts after a pair took the place of a value. -/
theorem Counted.join :
    Counted base body larger (⟨id, graph.size⟩ :: swaps)
      (larger.moveUses uses id (graph.size + 1)) := by
  have fresh : graph.size + 1 ∉ uses.keys := counted.notMem_keys patched grounded (Nat.le_succ _)
  have joined := patched.join grounded reached role builds conserves joins
  have older {other : NodeId} (needed : Needed base body swaps other) :
      Needed base body (⟨id, graph.size⟩ :: swaps) other :=
    needed.imp_right fun ⟨swap, member, has⟩ => ⟨swap, mem_cons_of_mem _ member, has⟩
  have grown {other : NodeId} (isValue : (base.node other).operation.role = .value) :
      tally uses other ≤ tally (larger.moveUses uses id (graph.size + 1)) other := by
    apply counted.tally_le_tally_join patched grounded reached builds conserves joins
    · exact Nat.lt_of_lt_of_le (lt_size_of_value isValue) patched.grows.size
    · exact fun _ => isValue
  constructor
  case reached =>
    exact fun other known => mem_keys_moveUses fresh (counted.reached other known)
  case needed =>
    refine forall_mem_keys_moveUses fresh ?_ ?_ ?_
    · exact fun other needed operand member => joined.needed_operand grounded needed member
    · exact .inr ⟨_, mem_cons_self, .inr rfl⟩
    · exact fun other member => older (counted.needed other member)
  case kept => exact fun other isValue => Nat.le_trans (counted.kept other isValue) (grown isValue)
  case places =>
    refine forall_mem_cons.mpr ⟨fun other isValue => ?_, fun swap member other isValue => ?_⟩
    · have inside := Nat.lt_of_lt_of_le (lt_size_of_value isValue) patched.grows.size
      have moved := counted.le_tally_join patched grounded reached builds conserves joins
        (Nat.ne_of_lt (Nat.lt_succ_of_lt inside))
      exact Nat.le_trans (Nat.le_add_left _ _) moved
    · apply Nat.le_trans _ (grown isValue)
      apply Nat.le_trans _ (counted.places swap member other isValue)
      rw [patched.places_grows joins.grows member]


end Join

end

end Graph

end Retarget
