import Retarget.Proofs.Graph.Mirroring
import Retarget.Proofs.Source.WellFormed
import Retarget.Proofs.Target.Portable

/-!
# Rules in graphs that mirror each other

Rules look at a node and at the formats and leaves that it sees, so in graphs that mirror each other
the same rule is chosen, and what it adds is mirrored as well (`RuleBook.ExtendsPortable.lower_mirrors`).
Promotion visits nodes in the order of their places, which pairs keep, so it makes the same
conversions in both (`Graph.Mirrors.promote`).
-/

namespace Retarget

open List

variable {pairing : Pairing} {graph other : Graph} {id partner : NodeId}

/-- Operands at the same position stand for each other. -/
theorem getElem?_forall₂ {α β : Type} {related : α → β → Prop} {values : List α} {others : List β}
    (listed : List.Forall₂ related values others) (index : Nat) :
    Option.Rel related values[index]? others[index]? := by
  induction listed generalizing index with
  | nil => exact .none
  | cons here _ ih =>
    cases index with
    | zero => exact .some here
    | succ index =>
      rw [getElem?_cons_succ, getElem?_cons_succ]
      exact ih index

namespace RuleBook

theorem powerOfTwoDivisor_eq (mirrors : graph.Mirrors pairing other)
    (pairs : pairing.Pairs id partner) :
    Guard.powerOfTwoDivisor graph id = Guard.powerOfTwoDivisor other partner := by
  have second := getElem?_forall₂ (mirrors.node pairs).operands 1
  unfold Guard.powerOfTwoDivisor
  match (graph.node id).operands[1]?, (other.node partner).operands[1]?, second with
  | _, _, .none => rfl
  | _, _, .some divisor =>
    dsimp only
    rw [(mirrors.node divisor).payload]

section

variable {book : RuleBook} (guarded : book.Guarded) (mirrors : graph.Mirrors pairing other)
  (pairs : pairing.Pairs id partner)

include guarded mirrors pairs

theorem Guarded.select_eq : book.select graph id = book.select other partner := by
  have same := mirrors.node pairs
  unfold select
  dsimp only
  rw [same.operation, same.specifier, same.tag, same.format, mirrors.operandFormats_eq pairs,
    find?_eq_of_divisor (fun _ known => guarded.group known) (powerOfTwoDivisor_eq mirrors pairs)]

theorem Guarded.isPromoted_eq (promotions : Promotions) :
    graph.isPromoted promotions book id = other.isPromoted promotions book partner := by
  have same := mirrors.node pairs
  unfold Graph.isPromoted lowers
  dsimp only
  rw [same.operation, same.specifier, same.format, mirrors.operandFormats_eq pairs]
  cases promotions.get? (other.node partner).format with
  | none => rfl
  | some register =>
    dsimp only
    rw [find?_eq_of_divisor (fun _ known => guarded.group known)
      (powerOfTwoDivisor_eq mirrors pairs)]

end

end RuleBook

/-! ## Replacements -/

/-- Two nodes are lowered in the same way: by one template, or by nodes that stand for each other. -/
inductive Lowering.Mirrors (pairing : Pairing) : Lowering → Lowering → Prop where
  | template (template : Template) : Mirrors pairing (.template template) (.template template)
  | replaced {graph other : Graph} {new new' : NodeId} (mirrors : graph.Mirrors pairing other)
      (pairs : pairing.Pairs new new') : Mirrors pairing (.replaced graph new) (.replaced other new')

/-- Two nodes are added to both graphs, the second over the first. -/
theorem Graph.Mirrors.add_add (mirrors : graph.Mirrors pairing other) {first first' : Node}
    {second second' : Node} (inner : first.Mirrors pairing first')
    (outer : pairing.Pairs graph.size other.size → second.Mirrors pairing second') :
    ((graph.add first).1.add second).1.Mirrors pairing ((other.add first').1.add second').1 ∧
      pairing.Pairs ((graph.add first).1.add second).2 ((other.add first').1.add second').2 := by
  have added := mirrors.add inner
  exact ⟨added.add (outer (.inr mirrors.size)), .inr added.size⟩

namespace Replacement

variable {left right left' right' : NodeId} (mirrors : graph.Mirrors pairing other)
  (pairs : pairing.Pairs id partner) (operands : (graph.node id).operands = [left, right])
  (operands' : (other.node partner).operands = [left', right'])

include mirrors pairs operands operands'

theorem pairs_of_operands : pairing.Pairs left left' ∧ pairing.Pairs right right' := by
  have listed := (mirrors.node pairs).operands
  rw [operands, operands'] at listed
  obtain ⟨first, rest⟩ := forall₂_cons.mp listed
  exact ⟨first, (forall₂_cons.mp rest).1⟩

theorem timesReciprocal_mirrors {added added' : Graph} {new new' : NodeId}
    (made : timesReciprocal graph id = .ok (added, new))
    (made' : timesReciprocal other partner = .ok (added', new')) :
    added.Mirrors pairing added' ∧ pairing.Pairs new new' := by
  obtain ⟨first, second⟩ := pairs_of_operands mirrors pairs operands operands'
  rw [timesReciprocal_eq operands] at made
  rw [timesReciprocal_eq operands'] at made'
  cases made
  cases made'
  have divisor := mirrors.node second
  refine mirrors.add_add ?_ fun last => ?_
  · rw [divisor.format, divisor.payload]
    exact ⟨⟨rfl, rfl, rfl, rfl, rfl, .nil⟩, nofun⟩
  · exact ⟨⟨rfl, rfl, (mirrors.node pairs).format, rfl, rfl, .cons first (.cons last .nil)⟩, nofun⟩

theorem chooseBy_mirrors (predicate : Specifier) {added added' : Graph} {new new' : NodeId}
    (made : chooseBy predicate graph id = .ok (added, new))
    (made' : chooseBy predicate other partner = .ok (added', new')) :
    added.Mirrors pairing added' ∧ pairing.Pairs new new' := by
  obtain ⟨first, second⟩ := pairs_of_operands mirrors pairs operands operands'
  rw [chooseBy_eq operands] at made
  rw [chooseBy_eq operands'] at made'
  cases made
  cases made'
  refine mirrors.add_add ?_ fun last => ?_
  · exact ⟨⟨rfl, rfl, rfl, rfl, rfl, .cons first (.cons second .nil)⟩, nofun⟩
  · exact ⟨⟨rfl, rfl, (mirrors.node pairs).format, rfl, rfl,
      .cons last (.cons first (.cons second .nil))⟩, nofun⟩

end Replacement

namespace RuleBook

/-- Paired nodes are lowered in the same way. -/
theorem ExtendsPortable.lower_mirrors {book : RuleBook} (extended : book.ExtendsPortable)
    (mirrors : graph.Mirrors pairing other) (pairs : pairing.Pairs id partner)
    {lowering lowering' : Lowering} (lowered : book.lower graph id = .ok lowering)
    (lowered' : book.lower other partner = .ok lowering') : lowering.Mirrors pairing lowering' := by
  have agree := extended.guarded.select_eq mirrors pairs
  cases chosen_of_lower lowered with
  | @template template selected =>
    cases chosen_of_lower lowered' with
    | template selected' =>
      cases selected.symm.trans (agree.trans selected')
      exact .template template
    | replaced selected' _ => cases selected.symm.trans (agree.trans selected')
  | @replaced replacement added new selected made =>
    cases chosen_of_lower lowered' with
    | template selected' => cases selected.symm.trans (agree.trans selected')
    | @replaced _ added' new' selected' made' =>
      cases selected.symm.trans (agree.trans selected')
      have same : added.Mirrors pairing added' ∧ pairing.Pairs new new' := by
        obtain ⟨_, _, rebuilt⟩ := extended.rebuilt_of_select selected
        obtain ⟨_, _, rebuilt'⟩ := extended.rebuilt_of_select selected'
        obtain ⟨left', right', operands'⟩ := rebuilt'.operands
        cases rebuilt with
        | product operands =>
          exact Replacement.timesReciprocal_mirrors mirrors pairs operands operands' made made'
        | choice operands =>
          exact Replacement.chooseBy_mirrors mirrors pairs operands operands' _ made made'
      exact .replaced (same.1.shareTag pairs same.2) same.2

/-- What takes the place of a node is new, so no node is changed. -/
theorem Tame.lower_extends {book : RuleBook} (tame : book.Tame) {later : Graph} {new : NodeId}
    (lowered : book.lower graph id = .ok (.replaced later new)) : graph.Extends later := by
  cases tame.replaces lowered with
  | @intro first second _ _ _ =>
    have added := (Graph.Extends.add graph first).trans (Graph.Extends.add _ second)
    refine ⟨Nat.le_trans added.size (Graph.Grows.shareTag _ _ _).size, fun place inside => ?_⟩
    have old : place ≠ graph.size + 1 := Nat.ne_of_lt (Nat.lt_succ_of_lt inside)
    unfold Graph.shareTag
    split
    · exact added.node place inside
    · rw [Graph.node_modify, if_neg fun both => old both.1]
      exact added.node place inside

end RuleBook

/-! ## Promotion -/

namespace Promoting

/-- Graphs under promotion that mirror each other, with the same conversions so far. -/
structure Mirrors (pairing : Pairing) (state other : Promoting) : Prop where
  graph : state.graph.Mirrors pairing other.graph
  loads : state.loads.Mirrors pairing pairing.Pairs other.loads
  stores : state.stores.Mirrors pairing pairing.Pairs other.stores

/-- Two steps leave mirrored states and give places that stand for each other. -/
def Results (pairing : Pairing) (result result' : Promoting × NodeId) : Prop :=
  result.1.Mirrors pairing result'.1 ∧ pairing.Pairs result.2 result'.2

variable {state state' : Promoting} {promoted promoted' : List NodeId}

theorem conversion_mirrors (pairs : pairing.Pairs id partner) (format : Format) :
    Node.Mirrors pairing
      { operation := .conversion, specifier := .plain, operands := [id], format }
      { operation := .conversion, specifier := .plain, operands := [partner], format } :=
  ⟨⟨rfl, rfl, rfl, rfl, rfl, .cons pairs .nil⟩, nofun⟩

section

variable (mirrors : state.Mirrors pairing state')

include mirrors

section

variable (pairs : pairing.Pairs id partner)

include pairs

theorem Mirrors.load (register : Format) :
    Results pairing (state.load id register) (state'.load partner register) := by
  have known := mirrors.loads id partner pairs
  have last : pairing.Pairs state.graph.size state'.graph.size := .inr mirrors.graph.size
  unfold Promoting.load
  match state.loads.get? id, state'.loads.get? partner, known with
  | _, _, .some found => exact ⟨mirrors, found⟩
  | _, _, .none =>
    refine ⟨⟨mirrors.graph.add (conversion_mirrors pairs register), ?_, mirrors.stores⟩, last⟩
    exact mirrors.loads.insert pairs last

theorem Mirrors.store (format : Format) :
    Results pairing (state.store id format) (state'.store partner format) := by
  have known := mirrors.stores id partner pairs
  have last : pairing.Pairs state.graph.size state'.graph.size := .inr mirrors.graph.size
  unfold Promoting.store
  match state.stores.get? id, state'.stores.get? partner, known with
  | _, _, .some found => exact ⟨mirrors, found⟩
  | _, _, .none =>
    refine ⟨⟨mirrors.graph.add (conversion_mirrors pairs format), mirrors.loads, ?_⟩, last⟩
    exact mirrors.stores.insert pairs last

theorem Mirrors.convert (chosen : List.Forall₂ pairing.Pairs promoted promoted')
    (promotions : Promotions) (inside : Bool) :
    Results pairing (convert promotions promoted inside state id)
      (convert promotions promoted' inside state' partner) := by
  unfold Promoting.convert
  dsimp only
  rw [(mirrors.graph.node pairs).format]
  simp only [pairing.mem_iff chosen pairs]
  split
  · cases promotions.get? (state'.graph.node partner).format with
    | some register => exact mirrors.load pairs register
    | none => exact ⟨mirrors, pairs⟩
  split
  · exact mirrors.store pairs _
  · exact ⟨mirrors, pairs⟩

end

theorem Mirrors.convertAll (chosen : List.Forall₂ pairing.Pairs promoted promoted')
    (promotions : Promotions) (inside : Bool) {operands operands' : List NodeId}
    (listed : List.Forall₂ pairing.Pairs operands operands') :
    (convertAll promotions promoted inside state operands).1.Mirrors pairing
        (convertAll promotions promoted' inside state' operands').1 ∧
      List.Forall₂ pairing.Pairs (convertAll promotions promoted inside state operands).2
        (convertAll promotions promoted' inside state' operands').2 := by
  induction listed generalizing state state' with
  | nil => exact ⟨mirrors, .nil⟩
  | cons here _ ih =>
    obtain ⟨next, converted⟩ := mirrors.convert here chosen promotions inside
    obtain ⟨last, others⟩ := ih next
    exact ⟨last, .cons converted others⟩

theorem Mirrors.rewire (pairs : pairing.Pairs id partner)
    (chosen : List.Forall₂ pairing.Pairs promoted promoted') (promotions : Promotions) :
    (state.rewire promotions promoted id).Mirrors pairing
      (state'.rewire promotions promoted' partner) := by
  obtain ⟨next, operands⟩ := mirrors.convertAll chosen promotions (decide (id ∈ promoted))
    (mirrors.graph.node pairs).operands
  have inside : decide (id ∈ promoted) = decide (partner ∈ promoted') :=
    decide_eq_decide.mpr (pairing.mem_iff chosen pairs)
  unfold Promoting.rewire
  rw [← inside]
  exact { next with
    graph := next.graph.modify pairs { next.graph.node pairs with operands := operands } }

theorem Mirrors.rewireAll (chosen : List.Forall₂ pairing.Pairs promoted promoted')
    (promotions : Promotions) {places partners : List NodeId}
    (listed : List.Forall₂ pairing.Pairs places partners) :
    (places.foldl (Promoting.rewire promotions promoted) state).Mirrors pairing
      (partners.foldl (Promoting.rewire promotions promoted') state') :=
  rel_foldl (fun _ _ mirrors _ _ here => mirrors.rewire here chosen promotions) mirrors listed

end

end Promoting

namespace Graph.Mirrors

section

variable (mirrors : graph.Mirrors pairing other)

include mirrors

theorem retype (pairs : pairing.Pairs id partner) (promotions : Promotions) :
    (graph.retype promotions id).Mirrors pairing (other.retype promotions partner) :=
  mirrors.modify pairs
    { mirrors.node pairs with format := congrArg promotions.apply (mirrors.node pairs).format }

theorem retypeAll (promotions : Promotions) {places partners : List NodeId}
    (listed : List.Forall₂ pairing.Pairs places partners) :
    (places.foldl (Graph.retype promotions) graph).Mirrors pairing
      (partners.foldl (Graph.retype promotions) other) :=
  rel_foldl (fun _ _ mirrors _ _ here => mirrors.retype here promotions) mirrors listed

/-- What two paired roots reach stands for each other, in the order of places. -/
theorem reachable {root root' : NodeId} (roots : pairing.Pairs root root') :
    List.Forall₂ pairing.Pairs (graph.reachable root) (other.reachable root') := by
  have ascending (graph : Graph) (root : NodeId) : (graph.reachable root).Pairwise (· < ·) := by
    have sorted : (graph.reachable root).Pairwise (· ≤ ·) := pairwise_mergeSort' (· ≤ ·) _
    exact (sorted.and (graph.nodup_reachable root)).imp fun both => Nat.lt_of_le_of_ne both.1 both.2
  refine pairing.forall₂_of_ascending (ascending _ _) (ascending _ _) ?_ ?_
  · intro id member
    obtain ⟨partner, pairs, reached⟩ := mirrors.reaches roots ((mem_reachable _ _ _).mp member)
    exact ⟨partner, (mem_reachable _ _ _).mpr reached, pairs⟩
  · intro partner member
    obtain ⟨id, pairs, reached⟩ := mirrors.reaches_right roots ((mem_reachable _ _ _).mp member)
    exact ⟨id, (mem_reachable _ _ _).mpr reached, pairs⟩

/-- The same nodes are promoted in both graphs, over the same conversions. -/
theorem promote {book : RuleBook} (guarded : book.Guarded) (promotions : Promotions)
    {root root' : NodeId} (roots : pairing.Pairs root root') :
    (graph.promote root promotions book).1.Mirrors pairing
      (other.promote root' promotions book).1 := by
  have reached := mirrors.reachable roots
  have chosen : List.Forall₂ pairing.Pairs
      ((graph.reachable root).filter (graph.isPromoted promotions book))
      ((other.reachable root').filter (other.isPromoted promotions book)) :=
    rel_filter (fun _ _ pairs => by simp only [guarded.isPromoted_eq mirrors pairs]) reached
  have started : Promoting.Mirrors pairing { graph } { graph := other } :=
    ⟨mirrors, .empty, .empty⟩
  have rewired := started.rewireAll chosen promotions reached
  have retyped := rewired.graph.retypeAll promotions chosen
  have same := chosen.length_eq
  unfold Graph.promote
  split
  · exact mirrors
  · dsimp only
    simp only [isEmpty_iff_length_eq_zero, same]
    split
    · exact mirrors
    · exact retyped

end

end Graph.Mirrors

end Retarget
