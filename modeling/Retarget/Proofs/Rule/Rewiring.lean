import Mathlib.Data.List.Forall2
import Mathlib.Data.Set.Insert
import Retarget.Rule.Promotion

/-!
# Rewiring under promotion

Promotion rewires the reachable nodes one after the other while it adds conversions to the graph it
walks. Its invariant (`Rewiring`) relates every intermediate graph to the original one: original
nodes keep everything but their operands, a rewired node uses for each operand what stands in for
it, and every added node is the one load or the one store of its source.
-/

namespace Retarget

open List

/-- A conversion of a node to a format. -/
def Node.conversionOf (source : NodeId) (format : Format) : Node :=
  { operation := .conversion, operands := [source], format }

namespace Promoting

variable {done : Set NodeId} {state : Promoting} {id source : NodeId} (before : Graph)
  (promotions : Promotions) (promoted : List NodeId)

/-- What a user takes in place of an operand: a load where a promoted user meets a format that has a
register, a store where another user meets a promoted node, and the operand itself elsewhere. -/
def Replaces (state : Promoting) (inside : Bool) (operand new : NodeId) : Prop :=
  if inside && operand ∉ promoted then
    match promotions.get? (before.node operand).format with
    | some _ => state.loads.get? operand = some new
    | none => new = operand
  else if !inside && operand ∈ promoted then state.stores.get? operand = some new
  else new = operand

/-- No conversion is forgotten or exchanged. -/
structure Extends (old new : Promoting) : Prop where
  loads : ∀ source id, old.loads.get? source = some id → new.loads.get? source = some id
  stores : ∀ source id, old.stores.get? source = some id → new.stores.get? source = some id

theorem Extends.refl (state : Promoting) : Extends state state :=
  ⟨fun _ _ => id, fun _ _ => id⟩

theorem Extends.trans {first second third : Promoting} (left : Extends first second)
    (right : Extends second third) : Extends first third where
  loads source id found := right.loads source id (left.loads source id found)
  stores source id found := right.stores source id (left.stores source id found)

/-- What stands in for an operand still does after more conversions were added. -/
theorem Replaces.extend {old new : Promoting} (extends_ : Extends old new) {inside : Bool}
    {operand replacement : NodeId}
    (replaces : Replaces before promotions promoted old inside operand replacement) :
    Replaces before promotions promoted new inside operand replacement := by
  unfold Replaces at replaces ⊢
  split_ifs at replaces ⊢
  · split at replaces
    · exact extends_.loads _ _ replaces
    · exact replaces
  · exact extends_.stores _ _ replaces
  · exact replaces

/-- The graph under promotion after the nodes of a set were rewired. -/
structure Rewiring (done : Set NodeId) (state : Promoting) : Prop where
  size_le : before.size ≤ state.graph.size
  kept : ∀ id < before.size,
    state.graph.node id = { before.node id with operands := (state.graph.node id).operands }
  untouched : ∀ id < before.size, id ∉ done →
    (state.graph.node id).operands = (before.node id).operands
  original : ∀ id ∈ done, id < before.size
  rewired : ∀ id ∈ done,
    List.Forall₂ (Replaces before promotions promoted state (id ∈ promoted))
      (before.node id).operands (state.graph.node id).operands
  load : ∀ source id, state.loads.get? source = some id →
    before.size ≤ id ∧ id < state.graph.size ∧ source < before.size ∧ source ∉ promoted ∧
      ∃ register, promotions.get? (before.node source).format = some register ∧
        state.graph.node id = .conversionOf source register
  store : ∀ source id, state.stores.get? source = some id →
    before.size ≤ id ∧ id < state.graph.size ∧ source < before.size ∧ source ∈ promoted ∧
      state.graph.node id = .conversionOf source (before.node source).format
  added : ∀ id, before.size ≤ id → id < state.graph.size →
    ∃ source, state.loads.get? source = some id ∨ state.stores.get? source = some id

variable {before promotions promoted}

theorem Rewiring.start : Rewiring before promotions promoted ∅ { graph := before } where
  size_le := Nat.le_refl _
  kept _ _ := rfl
  untouched _ _ _ := rfl
  original _ impossible := absurd impossible (Set.notMem_empty _)
  rewired _ impossible := absurd impossible (Set.notMem_empty _)
  load _ _ impossible := by cases impossible
  store _ _ impossible := by cases impossible
  added id inside outside := absurd outside (Nat.not_lt_of_le inside)

theorem Rewiring.format_eq (rewiring : Rewiring before promotions promoted done state)
    (inside : id < before.size) : (state.graph.node id).format = (before.node id).format := by
  rw [rewiring.kept id inside]

section

variable (rewiring : Rewiring before promotions promoted done state) (inside : source < before.size)

include rewiring inside

/-- Adding the conversion that a source lacks keeps the invariant, whichever way it converts. -/
theorem Rewiring.addConversion {next : Promoting} {format : Format}
    (graph_eq : next.graph = (state.graph.addOperation .conversion .plain [source] format).1)
    (extends_ : Extends state next)
    (loads : ∀ other id, next.loads.get? other = some id →
      (other = source ∧ id = state.graph.size ∧ source ∉ promoted ∧
        promotions.get? (before.node source).format = some format) ∨
        state.loads.get? other = some id)
    (stores : ∀ other id, next.stores.get? other = some id →
      (other = source ∧ id = state.graph.size ∧ source ∈ promoted ∧
        format = (before.node source).format) ∨ state.stores.get? other = some id)
    (entered : next.loads.get? source = some state.graph.size ∨
      next.stores.get? source = some state.graph.size) :
    Rewiring before promotions promoted done next := by
  have below := rewiring.size_le
  have grown : next.graph.size = state.graph.size + 1 := by
    rw [graph_eq]
    exact Graph.size_add _ _
  have larger : state.graph.size < next.graph.size := by omega
  have same : ∀ id < state.graph.size, next.graph.node id = state.graph.node id := by
    intro id earlier
    rw [graph_eq, Graph.addOperation, Graph.node_add, if_neg (Nat.ne_of_lt earlier)]
  have last : next.graph.node state.graph.size = .conversionOf source format := by
    rw [graph_eq, Graph.addOperation, Graph.node_add, if_pos rfl]
    rfl
  constructor
  case size_le => omega
  case kept =>
    intro id original
    rw [same id (by omega)]
    exact rewiring.kept id original
  case untouched =>
    intro id original waiting
    rw [same id (by omega)]
    exact rewiring.untouched id original waiting
  case original => exact rewiring.original
  case rewired =>
    intro id member
    rw [same id (Nat.lt_of_lt_of_le (rewiring.original id member) below)]
    exact (rewiring.rewired id member).imp fun _ _ => Replaces.extend _ _ _ extends_
  case load =>
    intro other id found
    rcases loads other id found with ⟨rfl, rfl, outside, mapped⟩ | earlier
    · exact ⟨below, larger, inside, outside, format, mapped, last⟩
    · obtain ⟨above, under, original, outside, register, mapped, node⟩ :=
        rewiring.load other id earlier
      exact ⟨above, Nat.lt_trans under larger, original, outside, register, mapped,
        by rw [same id under, node]⟩
  case store =>
    intro other id found
    rcases stores other id found with ⟨rfl, rfl, member, rfl⟩ | earlier
    · exact ⟨below, larger, inside, member, last⟩
    · obtain ⟨above, under, original, member, node⟩ := rewiring.store other id earlier
      exact ⟨above, Nat.lt_trans under larger, original, member, by rw [same id under, node]⟩
  case added =>
    intro id above under
    by_cases earlier : id < state.graph.size
    · obtain ⟨other, found⟩ := rewiring.added id above earlier
      exact ⟨other, found.imp (extends_.loads other id) (extends_.stores other id)⟩
    · have latest : id = state.graph.size := by omega
      subst latest
      exact ⟨source, entered⟩

theorem Rewiring.load_spec {register : Format} (outside : source ∉ promoted)
    (mapped : promotions.get? (before.node source).format = some register) :
    Rewiring before promotions promoted done (state.load source register).1 ∧
      Extends state (state.load source register).1 ∧
      (state.load source register).1.loads.get? source = some (state.load source register).2 := by
  unfold Promoting.load
  cases known : state.loads.get? source with
  | some id => exact ⟨rewiring, .refl state, known⟩
  | none =>
    let next : Promoting :=
      { state with
        graph := (state.graph.addOperation .conversion .plain [source] register).1
        loads := state.loads.insert source state.graph.size }
    have extends_ : Extends state next :=
      ⟨fun _ _ => OrderedMap.get?_insert_of_get? known, fun _ _ => id⟩
    have entered : next.loads.get? source = some state.graph.size := by
      rw [OrderedMap.get?_insert, if_pos rfl]
    refine ⟨rewiring.addConversion inside rfl extends_ ?_ (fun _ _ => .inr) (.inl entered),
      extends_, entered⟩
    intro other id found
    rcases OrderedMap.eq_or_get?_of_get?_insert found with ⟨rfl, rfl⟩ | earlier
    · exact .inl ⟨rfl, rfl, outside, mapped⟩
    · exact .inr earlier

theorem Rewiring.store_spec (member : source ∈ promoted) :
    let format := (before.node source).format
    Rewiring before promotions promoted done (state.store source format).1 ∧
      Extends state (state.store source format).1 ∧
      (state.store source format).1.stores.get? source = some (state.store source format).2 := by
  intro format
  unfold Promoting.store
  cases known : state.stores.get? source with
  | some id => exact ⟨rewiring, .refl state, known⟩
  | none =>
    let next : Promoting :=
      { state with
        graph := (state.graph.addOperation .conversion .plain [source] format).1
        stores := state.stores.insert source state.graph.size }
    have extends_ : Extends state next :=
      ⟨fun _ _ => id, fun _ _ => OrderedMap.get?_insert_of_get? known⟩
    have entered : next.stores.get? source = some state.graph.size := by
      rw [OrderedMap.get?_insert, if_pos rfl]
    refine ⟨rewiring.addConversion inside rfl extends_ (fun _ _ => .inr) ?_ (.inr entered),
      extends_, entered⟩
    intro other id found
    rcases OrderedMap.eq_or_get?_of_get?_insert found with ⟨rfl, rfl⟩ | earlier
    · exact .inl ⟨rfl, rfl, member, rfl⟩
    · exact .inr earlier

end

/-- One operand: the conversion it needs is there afterwards. -/
theorem Rewiring.convert_spec (inside : Bool) {operand : NodeId}
    (rewiring : Rewiring before promotions promoted done state) (original : operand < before.size) :
    let result := convert promotions promoted inside state operand
    Rewiring before promotions promoted done result.1 ∧ Extends state result.1 ∧
      Replaces before promotions promoted result.1 inside operand result.2 := by
  unfold convert Replaces
  rw [rewiring.format_eq original]
  by_cases entering : inside && operand ∉ promoted
  · simp only [entering, ↓reduceIte]
    cases mapped : promotions.get? (before.node operand).format with
    | some register =>
      rw [Bool.and_eq_true, decide_eq_true_eq] at entering
      exact rewiring.load_spec original entering.2 mapped
    | none => exact ⟨rewiring, .refl state, rfl⟩
  · simp only [entering, Bool.false_eq_true, ↓reduceIte]
    by_cases leaving : !inside && operand ∈ promoted
    · simp only [leaving, ↓reduceIte]
      rw [Bool.and_eq_true, decide_eq_true_eq] at leaving
      exact rewiring.store_spec original leaving.2
    · simp only [leaving, Bool.false_eq_true, ↓reduceIte]
      exact ⟨rewiring, .refl state, trivial⟩

/-- All operands of a user. -/
theorem Rewiring.convertAll_spec (inside : Bool) (operands : List NodeId)
    (rewiring : Rewiring before promotions promoted done state)
    (original : ∀ operand ∈ operands, operand < before.size) :
    let result := convertAll promotions promoted inside state operands
    Rewiring before promotions promoted done result.1 ∧ Extends state result.1 ∧
      List.Forall₂ (Replaces before promotions promoted result.1 inside) operands result.2 := by
  induction operands generalizing state with
  | nil => exact ⟨rewiring, .refl state, .nil⟩
  | cons operand rest ih =>
    obtain ⟨first, extendsFirst, replaces⟩ :=
      rewiring.convert_spec inside (original operand mem_cons_self)
    obtain ⟨all, extendsRest, replacesRest⟩ :=
      ih first fun other member => original other (mem_cons_of_mem operand member)
    exact ⟨all, extendsFirst.trans extendsRest,
      .cons (replaces.extend _ _ _ extendsRest) replacesRest⟩

/-- One user: it is rewired afterwards. -/
theorem Rewiring.rewire_spec (rewiring : Rewiring before promotions promoted done state)
    (inside : id < before.size) (waiting : id ∉ done)
    (operands : ∀ operand ∈ (before.node id).operands, operand < before.size) :
    Rewiring before promotions promoted (insert id done)
      (rewire promotions promoted state id) := by
  have current : (state.graph.node id).operands = (before.node id).operands :=
    rewiring.untouched id inside waiting
  unfold rewire
  rw [current]
  obtain ⟨converted, extends_, replaces⟩ :=
    rewiring.convertAll_spec (id ∈ promoted) (before.node id).operands operands
  generalize convertAll promotions promoted (id ∈ promoted) state (before.node id).operands =
    result at converted extends_ replaces
  obtain ⟨after, new⟩ := result
  have below : before.size ≤ after.graph.size := converted.size_le
  have size : (after.graph.setOperands id new).size = after.graph.size := Graph.size_modify _ _ _
  have here : (after.graph.setOperands id new).node id =
      { after.graph.node id with operands := new } := by
    rw [Graph.setOperands, Graph.node_modify, if_pos ⟨rfl, Nat.lt_of_lt_of_le inside below⟩]
  have elsewhere : ∀ other, other ≠ id →
      (after.graph.setOperands id new).node other = after.graph.node other := by
    intro other apart
    rw [Graph.setOperands, Graph.node_modify, if_neg fun both => apart both.1]
  constructor
  case size_le =>
    rw [size]
    exact below
  case kept =>
    intro other original
    by_cases same : other = id
    · subst same
      rw [here, converted.kept other original]
    · rw [elsewhere other same]
      exact converted.kept other original
  case untouched =>
    intro other original outside
    rw [Set.mem_insert_iff, not_or] at outside
    rw [elsewhere other outside.1]
    exact converted.untouched other original outside.2
  case original =>
    rintro other (rfl | member)
    · exact inside
    · exact converted.original other member
  case rewired =>
    rintro other (rfl | member)
    · rw [here]
      exact replaces
    · have apart : other ≠ id := fun same => waiting (same ▸ member)
      rw [elsewhere other apart]
      exact converted.rewired other member
  case load =>
    intro source added found
    obtain ⟨above, under, original, outside, register, mapped, node⟩ :=
      converted.load source added found
    refine ⟨above, by rw [size]; exact under, original, outside, register, mapped, ?_⟩
    rw [elsewhere added (Nat.ne_of_gt (Nat.lt_of_lt_of_le inside above)), node]
  case store =>
    intro source added found
    obtain ⟨above, under, original, member, node⟩ := converted.store source added found
    refine ⟨above, by rw [size]; exact under, original, member, ?_⟩
    rw [elsewhere added (Nat.ne_of_gt (Nat.lt_of_lt_of_le inside above)), node]
  case added =>
    intro added above under
    rw [size] at under
    exact converted.added added above under

/-- A whole walk: all its nodes are rewired afterwards. -/
theorem Rewiring.foldl_rewire (walk : List NodeId)
    (rewiring : Rewiring before promotions promoted done state) (distinct : walk.Nodup)
    (waiting : ∀ id ∈ walk, id ∉ done) (inside : ∀ id ∈ walk, id < before.size)
    (operands : ∀ id ∈ walk, ∀ operand ∈ (before.node id).operands, operand < before.size) :
    Rewiring before promotions promoted (done ∪ {id | id ∈ walk})
      (walk.foldl (rewire promotions promoted) state) := by
  induction walk generalizing done state with
  | nil => simpa using rewiring
  | cons id rest ih =>
    rw [nodup_cons] at distinct
    have first := rewiring.rewire_spec (inside id mem_cons_self)
      (waiting id mem_cons_self) (operands id mem_cons_self)
    have others := ih first distinct.2
      (by
        rintro other member (rfl | known)
        · exact distinct.1 member
        · exact waiting other (mem_cons_of_mem id member) known)
      (fun other member => inside other (mem_cons_of_mem id member))
      (fun other member => operands other (mem_cons_of_mem id member))
    have whole :
        done ∪ {other | other ∈ id :: rest} = insert id done ∪ {other | other ∈ rest} := by
      ext other
      simp only [Set.mem_union, Set.mem_ofPred_eq, mem_cons, Set.mem_insert_iff]
      tauto
    rw [whole]
    exact others

end Promoting

end Retarget
