import Retarget.Proofs.Data.Pairing
import Retarget.Proofs.Graph.Bodies
import Retarget.Proofs.Graph.Counting

/-!
# Graphs that mirror each other

Two graphs mirror each other where nodes at paired places are the same but for the places of their
operands. Counts of uses are the same in both: how many steps a count may take depends on the whole
graph, but the steps allowed are enough in either one.
-/

namespace Retarget

open List

/-- Two nodes that differ in the places of their operands only. -/
structure Node.Resembles (related : NodeId → NodeId → Prop) (node other : Node) : Prop where
  operation : node.operation = other.operation
  specifier : node.specifier = other.specifier
  format : node.format = other.format
  tag : node.tag = other.tag
  payload : node.payload = other.payload
  operands : List.Forall₂ related node.operands other.operands

/-- Two nodes over operands at paired places, which carry no table. -/
structure Node.Mirrors (pairing : Pairing) (node other : Node) : Prop
    extends Node.Resembles pairing.Pairs node other where
  tableless : ∀ values, node.payload ≠ .table values

theorem Node.Mirrors.nothing (pairing : Pairing) : Node.nothing.Mirrors pairing Node.nothing :=
  ⟨⟨rfl, rfl, rfl, rfl, rfl, .nil⟩, nofun⟩

namespace Graph

/-- Two graphs with the same nodes at paired places, which went beyond the bounds equally far. -/
structure Mirrors (pairing : Pairing) (graph other : Graph) : Prop where
  size : pairing.Beyond graph.size other.size
  node : ∀ {id partner}, pairing.Pairs id partner →
    (graph.node id).Mirrors pairing (other.node partner)

section

variable {pairing : Pairing} {graph other : Graph} {id partner : NodeId} {node node' : Node}

section

variable (mirrors : graph.Mirrors pairing other)

include mirrors

theorem Mirrors.operandFormats_eq (pairs : pairing.Pairs id partner) :
    graph.operandFormats id = other.operandFormats partner := by
  have operands := (mirrors.node pairs).operands
  unfold operandFormats
  generalize (graph.node id).operands = places at operands
  generalize (other.node partner).operands = partners at operands
  induction operands with
  | nil => rfl
  | cons here _ ih => rw [map_cons, map_cons, ih, (mirrors.node here).format]

/-- The same node is added to both. -/
theorem Mirrors.add (same : node.Mirrors pairing node') :
    (graph.add node).1.Mirrors pairing (other.add node').1 := by
  refine ⟨?_, fun {id partner} pairs => ?_⟩
  · rw [size_add, size_add]
    exact mirrors.size.add 1
  · have last : id = graph.size ↔ partner = other.size := pairs.eq_iff (.inr mirrors.size)
    rw [node_add, node_add]
    by_cases here : id = graph.size
    · rw [if_pos here, if_pos (last.mp here)]
      exact same
    · rw [if_neg here, if_neg (mt last.mpr here)]
      exact mirrors.node pairs

/-- Paired nodes are changed in the same way. -/
theorem Mirrors.modify (pairs : pairing.Pairs id partner) {change change' : Node → Node}
    (same : (change (graph.node id)).Mirrors pairing (change' (other.node partner))) :
    (graph.modify id change).Mirrors pairing (other.modify partner change') := by
  refine ⟨?_, fun {place partner'} pairs' => ?_⟩
  · rw [size_modify, size_modify]
    exact mirrors.size
  · have inside : place < graph.size ↔ partner' < other.size := pairs'.lt_iff (.inr mirrors.size)
    rw [node_modify, node_modify]
    by_cases here : place = id
    · subst here
      cases (pairs'.eq_iff pairs).mp rfl
      by_cases within : place < graph.size
      · rw [if_pos ⟨rfl, within⟩, if_pos ⟨rfl, inside.mp within⟩]
        exact same
      · rw [if_neg fun both => within both.2, if_neg fun both => within (inside.mpr both.2)]
        exact mirrors.node pairs
    · have apart := mt (pairs'.eq_iff pairs).mpr here
      rw [if_neg fun both => here both.1, if_neg fun both => apart both.1]
      exact mirrors.node pairs'

theorem Mirrors.shareTag (pairs : pairing.Pairs id partner) {new new' : NodeId}
    (also : pairing.Pairs new new') :
    (graph.shareTag id new).Mirrors pairing (other.shareTag partner new') := by
  unfold Graph.shareTag
  by_cases same : id = new
  · rw [if_pos same, if_pos ((pairs.eq_iff also).mp same)]
    exact mirrors
  · rw [if_neg same, if_neg (mt (pairs.eq_iff also).mpr same)]
    refine mirrors.modify also { mirrors.node also with tag := ?_ }
    dsimp only
    rw [(mirrors.node also).tag, (mirrors.node pairs).tag]

/-- Whatever one root reaches has a partner that the other root reaches. -/
theorem Mirrors.reaches {root root' : NodeId} (roots : pairing.Pairs root root')
    (reached : graph.Reaches root id) :
    ∃ partner, pairing.Pairs id partner ∧ other.Reaches root' partner := by
  induction reached with
  | refl => exact ⟨root', roots, .refl⟩
  | tail _ uses ih =>
    obtain ⟨user, pairs, reached⟩ := ih
    obtain ⟨operand, uses, pairs⟩ :=
      exists_of_mem_forall₂ (mirrors.node pairs).operands.flip uses
    exact ⟨operand, pairs, reached.tail uses⟩

theorem Mirrors.reaches_right {root root' : NodeId} (roots : pairing.Pairs root root')
    (reached : other.Reaches root' partner) :
    ∃ id, pairing.Pairs id partner ∧ graph.Reaches root id := by
  induction reached with
  | refl => exact ⟨root, roots, .refl⟩
  | tail _ uses ih =>
    obtain ⟨user, pairs, reached⟩ := ih
    obtain ⟨operand, uses, pairs⟩ :=
      exists_of_mem_forall₂ (mirrors.node pairs).operands uses
    exact ⟨operand, pairs, reached.tail uses⟩

end

end

/-! ## Counts of uses -/

section

variable {settled : List NodeId} {pairing : Pairing} {graph other : Graph} {uses uses' : Uses}
  {waiting waiting' operands operands' : List NodeId}

section

variable (mirrors : uses.Mirrors pairing (· = ·) uses')
  (listed : List.Forall₂ pairing.Pairs operands operands')

include mirrors listed

theorem foldl_countUse_mirrors :
    (operands.foldl countUse uses).Mirrors pairing (· = ·) (operands'.foldl countUse uses') := by
  induction listed generalizing uses uses' with
  | nil => exact mirrors
  | cons here _ ih =>
    apply ih
    refine mirrors.insert here ?_
    rw [mirrors.get?_eq here]

theorem foldl_dropUse_mirrors :
    (operands.foldl dropUse uses).Mirrors pairing (· = ·) (operands'.foldl dropUse uses') := by
  induction listed generalizing uses uses' with
  | nil => exact mirrors
  | @cons operand operand' _ _ here _ ih =>
    apply ih
    unfold dropUse
    rw [mirrors.get?_eq here]
    cases uses'.get? operand' with
    | none => exact mirrors
    | some count => exact mirrors.insert here rfl

end

/-- Uses are counted in the same order, with steps enough in both graphs. -/
theorem Mirrors.expandUses (mirrors : graph.Mirrors pairing other) {steps steps' : Nat}
    {expanded expanded' : List NodeId} (counts : uses.Mirrors pairing (· = ·) uses')
    (waits : List.Forall₂ pairing.Pairs waiting waiting')
    (known : List.Forall₂ pairing.Pairs expanded expanded')
    (enough : waiting.length + graph.unexpandedPlaces expanded ≤ steps)
    (enough' : waiting'.length + other.unexpandedPlaces expanded' ≤ steps') :
    (graph.expandUses steps waiting expanded uses).Mirrors pairing (· = ·)
      (other.expandUses steps' waiting' expanded' uses') := by
  induction steps generalizing steps' waiting waiting' expanded expanded' uses uses' with
  | zero =>
    cases waits with
    | nil => cases steps' <;> exact counts
    | cons => exact absurd enough (by simp)
  | succ steps ih =>
    cases waits with
    | nil => cases steps' <;> exact counts
    | @cons id partner rest rest' here others =>
      cases steps' with
      | zero => exact absurd enough' (by simp)
      | succ steps' =>
        rw [length_cons] at enough enough'
        have again := pairing.mem_iff known here
        by_cases before : id ∈ expanded
        · simp only [Graph.expandUses, before, again.mp before, ↓reduceIte]
          exact ih counts others known (by omega) (by omega)
        · have fresh := mt again.mpr before
          have places := unexpandedPlaces_cons graph before
          have places' := unexpandedPlaces_cons other fresh
          have operands := (mirrors.node here).operands
          simp only [Graph.expandUses, before, fresh, ↓reduceIte]
          refine ih (foldl_countUse_mirrors counts operands)
            (rel_append (rel_reverse operands) others) (.cons here known) ?_ ?_
          · rw [length_append, length_reverse]
            omega
          · rw [length_append, length_reverse]
            omega

/-- Nodes that stand for each other are used equally often. -/
theorem Mirrors.uses_mirrors (mirrors : graph.Mirrors pairing other) {root root' : NodeId}
    (roots : pairing.Pairs root root') :
    (graph.uses root).Mirrors pairing (· = ·) (other.uses root') := by
  unfold Graph.uses
  refine mirrors.expandUses (.insert .empty roots rfl) (.cons roots .nil) .nil ?_ ?_
  · rw [length_singleton, unexpandedPlaces_nil]
    omega
  · rw [length_singleton, unexpandedPlaces_nil]
    omega

/-- Nodes that wait to be counted are in use, none of them twice, and none that was counted. -/
structure Queued (uses : Uses) (waiting settled : List NodeId) : Prop where
  distinct : waiting.Nodup
  waiting : ∀ id ∈ waiting, id ∈ uses.keys ∧ id ∉ settled
  settled : ∀ id ∈ settled, id ∈ uses.keys

theorem Queued.countFirstUse (queued : Queued uses waiting settled) (operands : List NodeId) :
    Queued (operands.foldl Graph.countFirstUse (uses, waiting)).1
        (operands.foldl Graph.countFirstUse (uses, waiting)).2 settled ∧
      (operands.foldl Graph.countFirstUse (uses, waiting)).2.length ≤
        waiting.length + operands.length := by
  induction operands generalizing uses waiting with
  | nil => exact ⟨queued, Nat.le_refl _⟩
  | cons operand rest ih =>
    have kept {id : NodeId} (member : id ∈ uses.keys) : id ∈ (countUse uses operand).keys :=
      (mem_keys_countUse _ _ _).mpr (.inl member)
    have next : Queued (Graph.countFirstUse (uses, waiting) operand).1
        (Graph.countFirstUse (uses, waiting) operand).2 settled := by
      unfold Graph.countFirstUse
      by_cases known : operand ∈ uses.keys
      · rw [if_pos ((contains_iff_mem_keys _ _).mpr known)]
        exact ⟨queued.distinct, fun id member => ⟨kept (queued.waiting id member).1,
          (queued.waiting id member).2⟩, fun id member => kept (queued.settled id member)⟩
      · rw [if_neg (mt (contains_iff_mem_keys _ _).mp known)]
        refine ⟨nodup_cons.mpr ⟨fun waits => known (queued.waiting _ waits).1,
          queued.distinct⟩, forall_mem_cons.mpr ⟨⟨?_, ?_⟩, fun id member => ?_⟩, ?_⟩
        · exact (mem_keys_countUse _ _ _).mpr (.inr rfl)
        · exact fun settled => known (queued.settled _ settled)
        · exact ⟨kept (queued.waiting id member).1, (queued.waiting id member).2⟩
        · exact fun id member => kept (queued.settled id member)
    have length : (Graph.countFirstUse (uses, waiting) operand).2.length ≤ waiting.length + 1 := by
      unfold Graph.countFirstUse
      split
      · exact Nat.le_succ _
      · exact Nat.le_refl _
    obtain ⟨later, bound⟩ := ih next
    refine ⟨later, Nat.le_trans bound ?_⟩
    rw [length_cons]
    omega

/-- The first node that waits is settled. -/
theorem Queued.settle {id : NodeId} (queued : Queued uses (id :: waiting) settled) :
    Queued uses waiting (id :: settled) := by
  obtain ⟨fresh, distinct⟩ := nodup_cons.mp queued.distinct
  obtain ⟨here, others⟩ := forall_mem_cons.mp queued.waiting
  refine ⟨distinct, fun other member => ⟨(others other member).1, fun known => ?_⟩,
    forall_mem_cons.mpr ⟨here.1, queued.settled⟩⟩
  rcases mem_cons.mp known with rfl | before
  · exact fresh member
  · exact (others other member).2 before

theorem foldl_countFirstUse_mirrors (counts : uses.Mirrors pairing (· = ·) uses')
    (waits : List.Forall₂ pairing.Pairs waiting waiting')
    (listed : List.Forall₂ pairing.Pairs operands operands') :
    (operands.foldl countFirstUse (uses, waiting)).1.Mirrors pairing (· = ·)
        (operands'.foldl countFirstUse (uses', waiting')).1 ∧
      List.Forall₂ pairing.Pairs (operands.foldl countFirstUse (uses, waiting)).2
        (operands'.foldl countFirstUse (uses', waiting')).2 := by
  induction listed generalizing uses uses' waiting waiting' with
  | nil => exact ⟨counts, waits⟩
  | @cons operand operand' _ _ here _ ih =>
    have counted : (countUse uses operand).Mirrors pairing (· = ·) (countUse uses' operand') :=
      foldl_countUse_mirrors counts (.cons here .nil)
    refine ih counted ?_
    unfold OrderedMap.contains
    rw [counts.get?_eq here]
    split
    · exact waits
    · exact .cons here waits

section

variable (mirrors : graph.Mirrors pairing other) (counts : uses.Mirrors pairing (· = ·) uses')

include mirrors counts

theorem Mirrors.countOperands {steps steps' : Nat} {settled' : List NodeId}
    (waits : List.Forall₂ pairing.Pairs waiting waiting') (queued : Queued uses waiting settled)
    (queued' : Queued uses' waiting' settled')
    (enough : waiting.length + graph.unexpandedPlaces settled ≤ steps)
    (enough' : waiting'.length + other.unexpandedPlaces settled' ≤ steps') :
    (graph.countOperands steps waiting uses).Mirrors pairing (· = ·)
      (other.countOperands steps' waiting' uses') := by
  induction steps generalizing steps' waiting waiting' settled settled' uses uses' with
  | zero =>
    cases waits with
    | nil => cases steps' <;> exact counts
    | cons => exact absurd enough (by simp)
  | succ steps ih =>
    cases waits with
    | nil => cases steps' <;> exact counts
    | @cons id partner rest rest' here others =>
      cases steps' with
      | zero => exact absurd enough' (by simp)
      | succ steps' =>
        have places := unexpandedPlaces_cons graph (queued.waiting id mem_cons_self).2
        have places' :=
          unexpandedPlaces_cons other (queued'.waiting partner mem_cons_self).2
        obtain ⟨next, length⟩ := queued.settle.countFirstUse (graph.node id).operands
        obtain ⟨next', length'⟩ := queued'.settle.countFirstUse (other.node partner).operands
        obtain ⟨counts, waits⟩ :=
          foldl_countFirstUse_mirrors counts others (mirrors.node here).operands
        rw [length_cons] at enough enough'
        have onward := ih counts waits next next' (by omega) (show _ ≤ steps' by omega)
        exact onward

/-- The uses of a node move to the one that takes its place, in both graphs. -/
theorem Mirrors.moveUses {old old' new new' : NodeId} (olds : pairing.Pairs old old')
    (news : pairing.Pairs new new') :
    (graph.moveUses uses old new).Mirrors pairing (· = ·) (other.moveUses uses' old' new') := by
  have dropped := foldl_dropUse_mirrors counts (mirrors.node olds).operands
  have known := dropped.get?_eq news
  have moved := dropped.insert news (congrArg (fun place => Option.getD place 0 +
    (uses'.get? old').getD 1) known)
  have queued (counted : Uses) (id : NodeId) (count : Nat) :
      Queued (counted.insert id count) [id] [] := by
    refine ⟨nodup_singleton _, forall_mem_singleton.mpr ⟨?_, nofun⟩, nofun⟩
    exact (OrderedMap.mem_keys_insert _ _ _ _).mpr (.inr rfl)
  unfold Graph.moveUses
  dsimp only
  rw [counts.get?_eq olds, known]
  rw [known] at moved
  split
  · exact moved
  · refine mirrors.countOperands moved (.cons news .nil) (queued _ _ _) (queued _ _ _) ?_ ?_
    · rw [length_singleton, unexpandedPlaces_nil]
      omega
    · rw [length_singleton, unexpandedPlaces_nil]
      omega

end

end

end Graph

end Retarget
