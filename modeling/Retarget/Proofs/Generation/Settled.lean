import Retarget.Proofs.Generation.Ledger
import Retarget.Proofs.Rule.Swaps

/-!
# Codes that are settled

What holds of the codes known in one scope while a function is generated: an inline expression
stands for a value with one place, and if it was used, then by a node with a code in the same scope
or by a statement that is written (`Scene.Settled`). So whatever is about to use it for the first time
finds it unused (`Scene.Settled.operand`, `Scene.Settled.replacement` and `Scene.Settled.value`).
-/

namespace Retarget

open List Graph
open Generator (Work)

/-- The node that gets its code by a piece of pending work. -/
def Generator.Work.opened? : Work → Option NodeId
  | .visit _ => none
  | .emit id _ | .share id _ => some id

/-- The nodes that get their codes by pending work. -/
def Generator.pending (stack : List Work) : List NodeId :=
  stack.filterMap Work.opened?

/-- The node that a piece of pending work is about. -/
def Generator.Work.subject : Work → NodeId
  | .visit id | .emit id _ | .share id _ => id

/-- A function under generation: the graph that it began with and its body, the graph as it is and
the pairs of nodes that were added, and the statements that have used their values. -/
structure Scene where
  base : Graph
  body : NodeId
  graph : Graph
  swaps : List Swap
  written : List NodeId

namespace Scene

/-- A node that the body needs. -/
def Reached (scene : Scene) (id : NodeId) : Prop :=
  scene.base.Reaches scene.body id

/-- A node that the body needs, or one that was added. -/
def Needed (scene : Scene) (id : NodeId) : Prop :=
  scene.base.Needed scene.body scene.swaps id

/-- A value with one place at most. -/
def Lone (scene : Scene) (id : NodeId) : Prop :=
  scene.base.Lone scene.body scene.graph scene.swaps id

/-- Nodes were added in pairs, and statements of the body were written. -/
structure Sane (scene : Scene) : Prop where
  grounded : ∀ id, scene.Reached id → id < scene.base.size
  patched : scene.base.Patched scene.body scene.graph scene.swaps
  written : ∀ statement ∈ scene.written, scene.Reached statement ∧
    (scene.base.node statement).operation.role = .statement

/-- A value of the body uses another one. -/
structure Client (scene : Scene) (user id : NodeId) : Prop where
  reached : scene.Reached user
  role : (scene.base.node user).operation.role ≠ .statement
  uses : id ∈ (scene.base.node user).operands

/-- A value has one place at most, in a node that has its code or is about to get it. -/
structure Lonely (scene : Scene) (stack : List Work) (level : Holdings) (id : NodeId) : Prop where
  lone : scene.Lone id
  clients : ∀ user, scene.Client user id →
    user ∈ level.map Prod.fst ∨ user ∈ Generator.pending stack

/-- A node with a code in the scope uses another one, or a statement that is written, or the node
that it took the place of has its code. -/
inductive Used (scene : Scene) (level : Holdings) (id : NodeId) : Prop where
  | operand {user : NodeId} (held : user ∈ level.map Prod.fst)
      (uses : id ∈ (scene.graph.node user).operands)
  | value {statement : NodeId} (done : statement ∈ scene.written)
      (uses : id ∈ (scene.base.node statement).operands)
  | replacement {swap : Swap} (member : swap ∈ scene.swaps) (same : swap.outer = id)
      (held : swap.old ∈ level.map Prod.fst)

/-- What holds of the codes in one scope. -/
structure Settled (scene : Scene) (spent : List NodeId) (stack : List Work) (level : Holdings) :
    Prop where
  needed : ∀ id ∈ level.map Prod.fst, scene.Needed id ∧
    (scene.graph.node id).operation.role ≠ .statement
  parts : ∀ swap ∈ scene.swaps, ∀ id ∈ level.map Prod.fst, swap.Has id →
    swap.old ∈ level.map Prod.fst ∨ .share swap.old swap.outer ∈ stack
  lone : ∀ id, (id, true) ∈ level → id < scene.base.size → scene.Lonely stack level id
  handed : ∀ swap ∈ scene.swaps, (swap.outer, true) ∈ level → scene.Lonely stack level swap.old
  used : ∀ id, (id, true) ∈ level → id ∈ spent → scene.Used level id

variable {scene : Scene} {spent : List NodeId} {stack : List Work} {level : Holdings}
  {id user : NodeId}

/-! ## Who uses a value -/

/-- Two nodes of a pair do not both use a value with one place. -/
theorem Lone.not_both (lone : scene.Lone id) {swap : Swap} (member : swap ∈ scene.swaps)
    {first second : NodeId} (hasFirst : swap.Has first) (hasSecond : swap.Has second)
    (apart : first ≠ second) (usesFirst : id ∈ (scene.graph.node first).operands)
    (usesSecond : id ∈ (scene.graph.node second).operands) : False := by
  have single := lone.2 swap member
  unfold Swap.places at single
  have atFirst := count_pos_iff.mpr usesFirst
  have atSecond := count_pos_iff.mpr usesSecond
  rcases hasFirst with rfl | rfl <;> rcases hasSecond with rfl | rfl
  · exact apart rfl
  · omega
  · omega
  · exact apart rfl

section

variable (sane : scene.Sane)
include sane

theorem Sane.lt_size (needed : scene.Needed id) : id < scene.graph.size :=
  sane.patched.lt_size sane.grounded needed

/-- An operand from the body is used by the node of the body that its user was made for. -/
theorem Sane.client (needed : scene.Needed user)
    (role : (scene.graph.node user).operation.role ≠ .statement)
    (uses : id ∈ (scene.graph.node user).operands) (inside : id < scene.base.size) :
    ∃ owner, Owns scene.swaps owner user ∧ scene.Client owner id := by
  rcases sane.patched.user sane.grounded needed uses with
    ⟨swap, member, _, rfl⟩ | ⟨owner, owns, reached, known⟩
  · exact absurd inside (Nat.not_lt_of_le (sane.patched.added swap member).1)
  refine ⟨owner, owns, reached, ?_, known⟩
  rcases owns with rfl | ⟨swap, member, _, rfl⟩
  · rw [← sane.patched.grows.operation_eq (sane.grounded owner reached)]
    exact role
  · rw [(sane.patched.replaced swap member).2]
    decide

/-- A node that was added is used by no node but the second one of its pair. -/
theorem Sane.user_of_size_le (needed : scene.Needed user)
    (uses : id ∈ (scene.graph.node user).operands) (beyond : scene.base.size ≤ id) :
    ∃ swap ∈ scene.swaps, user = swap.outer ∧ id = swap.inner := by
  rcases sane.patched.user sane.grounded needed uses with found | ⟨owner, _, reached, known⟩
  · exact found
  · exact absurd (sane.grounded id (reached.tail known)) (Nat.not_lt_of_le beyond)

theorem Sane.lt_size_of_written {statement : NodeId} (done : statement ∈ scene.written)
    (uses : id ∈ (scene.base.node statement).operands) : id < scene.base.size :=
  sane.grounded id ((sane.written statement done).1.tail uses)

end

namespace Settled

variable (settled : scene.Settled spent stack level) (sane : scene.Sane)
include settled sane

/-- An inline expression that a statement is about to use was not used before. -/
theorem value {statement : NodeId} (reached : scene.Reached statement)
    (role : (scene.base.node statement).operation.role = .statement)
    (fresh : statement ∉ scene.written) (uses : id ∈ (scene.base.node statement).operands)
    (inlined : (id, true) ∈ level) : id ∉ spent := by
  have inside := sane.grounded id (reached.tail uses)
  have lone := (settled.lone id inlined inside).lone
  intro member
  cases settled.used id inlined member with
  | operand held usesOther =>
    obtain ⟨needed, isValue⟩ := settled.needed _ held
    obtain ⟨owner, _, client⟩ := sane.client needed isValue usesOther inside
    obtain rfl := lone.user_unique reached client.reached uses client.uses
    exact client.role role
  | value done usesOther =>
    obtain rfl := lone.user_unique reached (sane.written _ done).1 uses usesOther
    exact fresh done
  | replacement known same _ =>
    have beyond := (sane.patched.lt_size_of_has known (.inr same.symm)).1
    exact absurd inside (Nat.not_lt_of_le beyond)

/-- The inline expression of a node that took the place of another one is there to be handed
over. -/
theorem replacement {swap : Swap} (member : swap ∈ scene.swaps)
    (unheld : swap.old ∉ level.map Prod.fst) (inlined : (swap.outer, true) ∈ level) :
    stack ≠ [] ∧ swap.outer ∉ spent := by
  have held : swap.outer ∈ level.map Prod.fst := mem_map_of_mem inlined
  have beyond := (sane.patched.lt_size_of_has member (.inr rfl)).1
  constructor
  · rcases settled.parts swap member _ held (.inr rfl) with old | waiting
    · exact absurd old unheld
    · exact ne_nil_of_mem waiting
  intro spent
  cases settled.used _ inlined spent with
  | operand other uses =>
    obtain ⟨another, known, _, same⟩ :=
      sane.user_of_size_le (settled.needed _ other).1 uses beyond
    obtain rfl := sane.patched.apart swap member another known _ (.inr rfl) (.inl same)
    exact absurd same (Nat.succ_ne_self _)
  | value done uses =>
    exact absurd (sane.lt_size_of_written done uses) (Nat.not_lt_of_le beyond)
  | replacement known same old =>
    obtain rfl := sane.patched.apart swap member _ known _ (.inr rfl) (.inr same.symm)
    exact unheld old

/-- An inline expression that a node is about to use is there to be used, by one operand place. No
node that the user was made for has a code, and it was made for the one that waits for its pair. -/
theorem operand (needed : scene.Needed user)
    (role : (scene.graph.node user).operation.role ≠ .statement)
    (unheld : ∀ owner, Owns scene.swaps owner user → owner ∉ level.map Prod.fst)
    (own : ∀ swap ∈ scene.swaps, .share swap.old swap.outer ∈ stack →
      Owns scene.swaps swap.old user → swap.Has user)
    (uses : id ∈ (scene.graph.node user).operands) (inlined : (id, true) ∈ level) :
    stack ≠ [] ∧ (scene.graph.node user).operands.count id ≤ 1 ∧ id ∉ spent := by
  have held : id ∈ level.map Prod.fst := mem_map_of_mem inlined
  rcases Nat.lt_or_ge id scene.base.size with inside | beyond
  · obtain ⟨owner, owns, client⟩ := sane.client needed role uses inside
    obtain ⟨lone, clients⟩ := settled.lone id inlined inside
    refine ⟨?_, ?_, fun spent => ?_⟩
    · rcases clients owner client with old | waiting
      · exact absurd old (unheld owner owns)
      · rintro rfl
        cases waiting
    · rcases owns with rfl | ⟨swap, member, has, _⟩
      · rw [sane.patched.operands_eq sane.grounded client.reached]
        exact Nat.le_trans (count_le_tally client.reached id) lone.1
      · apply Nat.le_trans _ (lone.2 swap member)
        unfold Swap.places
        rcases has with rfl | rfl
        · exact Nat.le_add_right _ _
        · exact Nat.le_add_left _ _
    cases settled.used id inlined spent with
    | @operand other otherHeld usesOther =>
      obtain ⟨otherNeeded, isValue⟩ := settled.needed _ otherHeld
      obtain ⟨another, ownsOther, otherClient⟩ :=
        sane.client otherNeeded isValue usesOther inside
      obtain rfl := lone.user_unique client.reached otherClient.reached client.uses
        otherClient.uses
      rcases ownsOther with rfl | ⟨swap, member, has, rfl⟩
      · exact unheld owner owns otherHeld
      rcases settled.parts swap member other otherHeld has with old | waiting
      · exact unheld swap.old owns old
      · refine lone.not_both member has (own swap member waiting owns) ?_ usesOther uses
        rintro rfl
        exact unheld other (.inl rfl) otherHeld
    | value done usesOther =>
      obtain rfl := lone.user_unique client.reached (sane.written _ done).1 client.uses usesOther
      exact client.role (sane.written _ done).2
    | replacement known same _ =>
      have beyond := (sane.patched.lt_size_of_has known (.inr same.symm)).1
      exact absurd inside (Nat.not_lt_of_le beyond)
  · obtain ⟨swap, member, rfl, rfl⟩ := sane.user_of_size_le needed uses beyond
    have owns : Owns scene.swaps swap.old swap.outer := .inr ⟨swap, member, .inr rfl, rfl⟩
    refine ⟨?_, Nat.le_of_eq (sane.patched.once swap member), fun spent => ?_⟩
    · rcases settled.parts swap member _ held (.inl rfl) with old | waiting
      · exact absurd old (unheld _ owns)
      · exact ne_nil_of_mem waiting
    cases settled.used _ inlined spent with
    | operand otherHeld usesOther =>
      obtain ⟨another, known, rfl, same⟩ :=
        sane.user_of_size_le (settled.needed _ otherHeld).1 usesOther beyond
      obtain rfl := sane.patched.apart swap member another known _ (.inl rfl) (.inl same)
      exact unheld _ (.inl rfl) otherHeld
    | value done usesOther =>
      exact absurd (sane.lt_size_of_written done usesOther) (Nat.not_lt_of_le beyond)
    | replacement known same _ =>
      obtain rfl := sane.patched.apart swap member _ known _ (.inl rfl) (.inr same.symm)
      exact absurd same (Nat.succ_ne_self _)

end Settled

/-! ## More codes and more nodes -/

section

variable {rest : List Work} {next : Work} {flag : Bool} {later : List NodeId}

theorem Lonely.hold (lonely : scene.Lonely (next :: rest) level id) :
    scene.Lonely rest ((next.subject, flag) :: level) id := by
  refine ⟨lonely.lone, fun user client => ?_⟩
  rw [map_cons, mem_cons]
  rcases lonely.clients user client with held | waiting
  · exact .inl (.inr held)
  · cases next with
    | visit _ => exact .inr waiting
    | emit _ _ =>
      rcases mem_cons.mp waiting with same | below
      · exact .inl (.inl same)
      · exact .inr below
    | share _ _ =>
      rcases mem_cons.mp waiting with same | below
      · exact .inl (.inl same)
      · exact .inr below

theorem Used.hold (used : scene.Used level id) (entry : NodeId × Bool) :
    scene.Used (entry :: level) id := by
  cases used with
  | operand held uses => exact .operand (mem_cons_of_mem _ held) uses
  | value done uses => exact .value done uses
  | replacement member same held => exact .replacement member same (mem_cons_of_mem _ held)

namespace Settled

/-- Inline expressions that were used since are accounted for. -/
theorem respend (settled : scene.Settled spent stack level)
    (accounted : ∀ id, (id, true) ∈ level → id ∈ later → id ∈ spent ∨ scene.Used level id) :
    scene.Settled later stack level where
  needed := settled.needed
  parts := settled.parts
  lone := settled.lone
  handed := settled.handed
  used id inlined member := (accounted id inlined member).elim (settled.used id inlined) fun used => used

/-- Codes stay settled while more work is put on top. -/
theorem mono {more : List Work} (settled : scene.Settled spent stack level)
    (pending : Generator.pending stack ⊆ Generator.pending more)
    (shares : ∀ old new, .share old new ∈ stack → .share old new ∈ more) :
    scene.Settled spent more level := by
  have lonely {id : NodeId} (before : scene.Lonely stack level id) : scene.Lonely more level id :=
    ⟨before.lone, fun user client => (before.clients user client).imp_right fun waiting =>
      pending waiting⟩
  constructor
  case needed => exact settled.needed
  case parts =>
    exact fun swap member id held has =>
      (settled.parts swap member id held has).imp_right (shares _ _)
  case lone => exact fun id inlined inside => lonely (settled.lone id inlined inside)
  case handed => exact fun swap member inlined => lonely (settled.handed swap member inlined)
  case used => exact settled.used

/-- The node that the next piece of work is about gets its code. -/
theorem hold (settled : scene.Settled spent (next :: rest) level)
    (needed : scene.Needed next.subject ∧
      (scene.graph.node next.subject).operation.role ≠ .statement)
    (parts : ∀ swap ∈ scene.swaps, swap.Has next.subject → .share swap.old swap.outer ∈ rest)
    (lone : flag = true → next.subject < scene.base.size →
      scene.Lonely (next :: rest) level next.subject)
    (handed : flag = true → ∀ swap ∈ scene.swaps, swap.outer = next.subject →
      scene.Lonely (next :: rest) level swap.old)
    (fresh : next.subject ∉ later)
    (accounted : ∀ id, (id, true) ∈ level → id ∈ later →
      id ∈ spent ∨ scene.Used ((next.subject, flag) :: level) id) :
    scene.Settled later rest ((next.subject, flag) :: level) where
  needed := forall_mem_cons.mpr ⟨needed, settled.needed⟩
  parts swap member id held has := by
    rcases mem_cons.mp held with rfl | known
    · exact .inr (parts swap member has)
    rw [map_cons, mem_cons]
    rcases settled.parts swap member id known has with old | waiting
    · exact .inl (.inr old)
    · rcases mem_cons.mp waiting with same | below
      · rw [← same]
        exact .inl (.inl rfl)
      · exact .inr below
  lone id inlined inside := by
    rcases mem_cons.mp inlined with same | known
    · cases same
      exact (lone rfl inside).hold
    · exact (settled.lone id known inside).hold
  handed swap member inlined := by
    rcases mem_cons.mp inlined with same | known
    · obtain ⟨here, rfl⟩ := Prod.mk.inj same
      exact (handed rfl swap member here).hold
    · exact (settled.handed swap member known).hold
  used id inlined member := by
    rcases mem_cons.mp inlined with same | known
    · cases same
      exact absurd member fresh
    · rcases accounted id known member with old | used
      · exact (settled.used id known old).hold _
      · exact used

end Settled

end

/-- The scene after a pair of nodes was added. -/
def join (scene : Scene) (larger : Graph) (swap : Swap) : Scene :=
  { scene with graph := larger, swaps := swap :: scene.swaps }

section Join

variable {larger : Graph} {swap : Swap} {next : List Work} (sane : scene.Sane)
  (joined : (scene.join larger swap).Sane) (grows : scene.graph.Grows larger)
  (role : (scene.base.node swap.old).operation.role ≠ .statement)

theorem Needed.join (needed : scene.Needed id) : (scene.join larger swap).Needed id :=
  needed.imp_right fun ⟨other, member, has⟩ => ⟨other, mem_cons_of_mem _ member, has⟩

include sane joined grows role

/-- A value stays lonely where no node that uses it is replaced. -/
theorem Lonely.join (lonely : scene.Lonely stack level id) (inside : id < scene.base.size)
    (unheld : swap.old ∉ level.map Prod.fst) (idle : swap.old ∉ Generator.pending stack)
    (more : Generator.pending stack ⊆ Generator.pending next) :
    (scene.join larger swap).Lonely next level id where
  lone := by
    have here : swap ∈ (scene.join larger swap).swaps := mem_cons_self
    refine Graph.Lone.join lonely.lone sane.patched joined.patched grows ?_ fun uses => ?_
    · exact Nat.ne_of_lt (Nat.lt_of_lt_of_le inside (joined.patched.added swap here).1)
    · have client : scene.Client swap.old id := ⟨(joined.patched.replaced swap here).1, role, uses⟩
      exact (lonely.clients swap.old client).elim unheld idle
  clients user client :=
    (lonely.clients user ⟨client.reached, client.role, client.uses⟩).imp_right fun waiting =>
      more waiting

/-- Codes stay settled when a node without a code is replaced. -/
theorem Settled.join (settled : scene.Settled spent stack level)
    (beyond : scene.graph.size ≤ swap.inner)
    (unheld : swap.old ∉ level.map Prod.fst) (idle : swap.old ∉ Generator.pending stack)
    (more : Generator.pending stack ⊆ Generator.pending next)
    (shares : ∀ old new, .share old new ∈ stack → .share old new ∈ next) :
    (scene.join larger swap).Settled spent next level where
  needed id held := by
    obtain ⟨needed, isValue⟩ := settled.needed id held
    refine ⟨needed.join, ?_⟩
    rw [show (scene.join larger swap).graph = larger from rfl,
      grows.operation_eq (sane.lt_size needed)]
    exact isValue
  parts other member id held has := by
    rcases mem_cons.mp member with rfl | known
    · have inside := sane.lt_size (settled.needed id held).1
      rcases has with rfl | rfl
      · exact absurd inside (Nat.not_lt_of_le beyond)
      · exact absurd inside (Nat.not_lt_of_le (Nat.le_succ_of_le beyond))
    · exact (settled.parts other known id held has).imp_right (shares _ _)
  lone id inlined inside :=
    (settled.lone id inlined inside).join sane joined grows role inside unheld idle more
  handed other member inlined := by
    rcases mem_cons.mp member with rfl | known
    · have inside := sane.lt_size (settled.needed _ (mem_map_of_mem inlined)).1
      exact absurd inside (Nat.not_lt_of_le (Nat.le_succ_of_le beyond))
    · have inside := sane.grounded _ (sane.patched.replaced other known).1
      exact (settled.handed other known inlined).join sane joined grows role inside unheld idle more
  used id inlined member := by
    cases settled.used id inlined member with
    | operand held uses =>
      rw [← grows.operands_eq (sane.lt_size (settled.needed _ held).1)] at uses
      exact .operand held uses
    | value done uses => exact .value done uses
    | replacement known same held => exact .replacement (mem_cons_of_mem _ known) same held

end Join

end Scene

end Retarget
