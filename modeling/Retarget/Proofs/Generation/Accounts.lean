import Retarget.Proofs.Generation.Settled

/-!
# Accounts of pending work

A stack of pending work asks for nodes in turn: every piece of it is about the root, an operand of
a node that waits below, or the node that takes the place of one that waits below. With codes that
are settled (`Scene.Account`), the ledger takes in what each piece of work does, and the account holds
after it.
-/

namespace Retarget

open List Graph
open Generator (Work)

namespace Ledger

variable {ledger : Ledger} {id : NodeId}

theorem use_of_unspent (known : ledger.knows id = true)
    (unspent : ledger.inlines id = true → id ∉ ledger.spent) :
    ∃ spent, ledger.use id = some { ledger with spent } ∧
      ∀ other ∈ spent, other ∈ ledger.spent ∨ other = id := by
  unfold use
  rw [if_pos known]
  by_cases inlined : ledger.inlines id = true
  · rw [if_pos inlined, if_neg (unspent inlined)]
    exact ⟨_, rfl, fun other member => (mem_cons.mp member).symm⟩
  · rw [if_neg inlined]
    exact ⟨ledger.spent, rfl, fun _ => .inl⟩

/-- Operands are used where the inline ones were not used before and stand in one place. -/
theorem foldlM_use (ledger : Ledger) {operands : List NodeId}
    (known : ∀ operand ∈ operands, ledger.knows operand = true)
    (unspent : ∀ operand ∈ operands, ledger.inlines operand = true →
      operand ∉ ledger.spent ∧ operands.count operand ≤ 1) :
    ∃ spent, operands.foldlM use ledger = some { ledger with spent } ∧
      ∀ id ∈ spent, id ∈ ledger.spent ∨ id ∈ operands := by
  induction operands generalizing ledger with
  | nil => exact ⟨ledger.spent, rfl, fun _ => .inl⟩
  | cons operand operands ih =>
    obtain ⟨here, others⟩ := forall_mem_cons.mp known
    obtain ⟨first, used, added⟩ :=
      use_of_unspent here fun inlined => (unspent operand mem_cons_self inlined).1
    have unspentLater : ∀ other ∈ operands, ledger.inlines other = true →
        other ∉ first ∧ operands.count other ≤ 1 := by
      intro other member inlined
      obtain ⟨fresh, single⟩ := unspent other (mem_cons_of_mem _ member) inlined
      have place := count_pos_iff.mpr member
      rw [count_cons] at single
      refine ⟨fun used => ?_, by omega⟩
      rcases added other used with old | rfl
      · exact fresh old
      · rw [beq_self_eq_true, if_pos rfl] at single
        omega
    obtain ⟨spent, rest, all⟩ := ih { ledger with spent := first } others unspentLater
    refine ⟨spent, ?_, fun id member => ?_⟩
    · rw [foldlM_cons, used]
      exact rest
    · rw [mem_cons, ← or_assoc]
      exact (all id member).imp_left (added id)

theorem not_knows_cons {other : NodeId} (unknown : ledger.knows other = false)
    (apart : other ≠ id) (inlined : Bool) (spent : List NodeId) :
    knows ⟨(id, inlined) :: ledger.innermost, ledger.outer, spent⟩ other = false := by
  rw [Bool.eq_false_iff, ne_eq, knows_iff]
  rintro ⟨level, open_, held⟩
  rcases mem_cons.mp open_ with rfl | around
  · rcases mem_cons.mp held with same | known
    · exact apart same
    · exact notMem_of_not_knows unknown mem_cons_self known
  · exact notMem_of_not_knows unknown (mem_cons_of_mem _ around) held

end Ledger

namespace Scene

/-- A node is asked for by the root or by the work below: as an operand, or as what takes the place
of a node. A node of a pair is asked for while the pair is to take its place. -/
structure Asked (scene : Scene) (root : NodeId) (below : List Work) (id : NodeId) : Prop where
  needed : scene.Needed id
  origin : id = root ∨ (∃ user template, .emit user template ∈ below ∧
    id ∈ (scene.graph.node user).operands) ∨ ∃ old, .share old id ∈ below
  parts : ∀ swap ∈ scene.swaps, swap.Has id → .share swap.old swap.outer ∈ below

/-- Each piece of work is about a node that is asked for. -/
def Warranted (scene : Scene) (root : NodeId) : List Work → Prop
  | [] => True
  | next :: below => scene.Asked root below next.subject ∧ scene.Warranted root below

/-- What holds of a stack of pending work. -/
structure Stacked (scene : Scene) (uses : Uses) (root : NodeId) (stack : List Work) : Prop where
  rooted : ∃ statement, scene.Reached statement ∧
    (scene.base.node statement).operation.role = .statement ∧
    root ∈ (scene.base.node statement).operands
  warranted : scene.Warranted root stack
  distinct : (Generator.pending stack).Nodup
  values : ∀ id ∈ Generator.pending stack, (scene.graph.node id).operation.role = .value
  shares : ∀ id replacement, .share id replacement ∈ stack →
    ∃ swap ∈ scene.swaps, swap.old = id ∧ swap.outer = replacement ∧
      (tally uses replacement ≤ 1 → scene.Lone id)

/-- The ledger is right about the codes that are known while work is pending. -/
structure Account (scene : Scene) (uses : Uses) (root : NodeId) (stack : List Work)
    (ledger : Ledger) : Prop where
  sane : scene.Sane
  counted : scene.base.Counted scene.body scene.graph scene.swaps uses
  stacked : scene.Stacked uses root stack
  unknown : ∀ id ∈ Generator.pending stack, ledger.knows id = false
  innermost : scene.Settled ledger.spent stack ledger.innermost
  outer : ∀ level ∈ ledger.outer, scene.Settled ledger.spent [] level

variable {scene : Scene} {uses : Uses} {root id : NodeId} {stack below rest : List Work}
  {ledger : Ledger} {next : Work}

theorem Asked.mono (asked : scene.Asked root below id) (more : below ⊆ stack) :
    scene.Asked root stack id where
  needed := asked.needed
  origin := asked.origin.imp_right <| Or.imp
    (fun ⟨user, template, member, uses⟩ => ⟨user, template, more member, uses⟩)
    fun ⟨old, member⟩ => ⟨old, more member⟩
  parts swap member has := more (asked.parts swap member has)

theorem Warranted.asked_of_mem (warranted : scene.Warranted root stack) (member : next ∈ stack) :
    scene.Asked root stack next.subject := by
  induction stack with
  | nil => cases member
  | cons first below ih =>
    rcases mem_cons.mp member with rfl | later
    · exact warranted.1.mono (subset_cons_self _ _)
    · exact (ih warranted.2 later).mono (subset_cons_self _ _)

theorem mem_pending_of_share {old new : NodeId} (member : .share old new ∈ stack) :
    old ∈ Generator.pending stack :=
  mem_filterMap.mpr ⟨_, member, rfl⟩

theorem mem_pending_of_emit {template : Template} (member : .emit id template ∈ stack) :
    id ∈ Generator.pending stack :=
  mem_filterMap.mpr ⟨_, member, rfl⟩

/-- A node waits for one pair. -/
theorem eq_of_share (distinct : (Generator.pending stack).Nodup) {old first second : NodeId}
    (one : .share old first ∈ stack) (other : .share old second ∈ stack) : first = second := by
  induction stack with
  | nil => cases one
  | cons next rest ih =>
    rcases mem_cons.mp one with rfl | below <;>
      rcases mem_cons.mp other with same | below'
    · cases same
      rfl
    · exact absurd (mem_pending_of_share below') (nodup_cons.mp distinct).1
    · subst same
      exact absurd (mem_pending_of_share below) (nodup_cons.mp distinct).1
    · exact ih (distinct.sublist ((sublist_cons_self next rest).filterMap _)) below below'

theorem mem_pending_cons (member : id ∈ Generator.pending rest) :
    id ∈ Generator.pending (next :: rest) :=
  ((sublist_cons_self next rest).filterMap _).mem member

namespace Stacked

theorem tail (stacked : scene.Stacked uses root (next :: rest)) : scene.Stacked uses root rest where
  rooted := stacked.rooted
  warranted := stacked.warranted.2
  distinct := stacked.distinct.sublist ((sublist_cons_self next rest).filterMap _)
  values id member := stacked.values id (mem_pending_cons member)
  shares old new member := stacked.shares old new (mem_cons_of_mem _ member)

section

variable (stacked : scene.Stacked uses root stack) (sane : scene.Sane)
  (asked : scene.Asked root stack id) (inside : id < scene.base.size) (lone : scene.Lone id)

include stacked sane asked inside lone

/-- What uses a lone value that is asked for waits below. -/
theorem clients {user : NodeId} (client : scene.Client user id) :
    user ∈ Generator.pending stack := by
  rcases asked.origin with rfl | ⟨asker, template, member, usesIt⟩ | ⟨old, member⟩
  · obtain ⟨statement, reached, role, known⟩ := stacked.rooted
    obtain rfl := lone.user_unique client.reached reached client.uses known
    exact absurd role client.role
  · have askedFor := stacked.warranted.asked_of_mem member
    have role : (scene.graph.node asker).operation.role ≠ .statement := by
      rw [stacked.values asker (mem_pending_of_emit member)]
      decide
    obtain ⟨owner, owns, other⟩ := sane.client askedFor.needed role usesIt inside
    obtain rfl := lone.user_unique client.reached other.reached client.uses other.uses
    rcases owns with rfl | ⟨swap, known, has, rfl⟩
    · exact mem_pending_of_emit member
    · exact mem_pending_of_share (askedFor.parts swap known has)
  · obtain ⟨swap, known, _, same, _⟩ := stacked.shares old id member
    have beyond := (sane.patched.lt_size_of_has known (.inr same.symm)).1
    exact absurd inside (Nat.not_lt_of_le beyond)

theorem lonely (level : Holdings) : scene.Lonely stack level id :=
  ⟨lone, fun _ client => .inr (stacked.clients sane asked inside lone client)⟩

end

end Stacked

/-! ## Steps -/

theorem pending_visits (ids : List NodeId) (stack : List Work) :
    Generator.pending (ids.map .visit ++ stack) = Generator.pending stack := by
  induction ids with
  | nil => rfl
  | cons id ids ih => exact ih

theorem Warranted.visits {ids : List NodeId} (warranted : scene.Warranted root stack)
    (asked : ∀ id ∈ ids, scene.Asked root stack id) :
    scene.Warranted root (ids.map .visit ++ stack) := by
  induction ids with
  | nil => exact warranted
  | cons id ids ih =>
    obtain ⟨here, others⟩ := forall_mem_cons.mp asked
    exact ⟨here.mono (subset_append_right _ _), ih others⟩

section

variable {larger : Graph} {swap : Swap}

/-- What is asked for is so when a pair of nodes is added. -/
theorem Asked.join (asked : scene.Asked root stack id) (sane : scene.Sane)
    (grows : scene.graph.Grows larger) (beyond : scene.graph.size ≤ swap.inner)
    (emits : ∀ user template, .emit user template ∈ stack → user < scene.graph.size) :
    (scene.join larger swap).Asked root stack id where
  needed := asked.needed.join
  origin := by
    refine asked.origin.imp_right (Or.imp_left ?_)
    rintro ⟨user, template, member, uses⟩
    rw [← grows.operands_eq (emits user template member)] at uses
    exact ⟨user, template, member, uses⟩
  parts other member has := by
    rcases mem_cons.mp member with rfl | known
    · have inside := sane.lt_size asked.needed
      rcases has with rfl | rfl
      · exact absurd inside (Nat.not_lt_of_le beyond)
      · exact absurd inside (Nat.not_lt_of_le (Nat.le_succ_of_le beyond))
    · exact asked.parts other known has

theorem Warranted.join (warranted : scene.Warranted root stack) (sane : scene.Sane)
    (grows : scene.graph.Grows larger) (beyond : scene.graph.size ≤ swap.inner) :
    (scene.join larger swap).Warranted root stack := by
  induction stack with
  | nil => trivial
  | cons next rest ih =>
    refine ⟨warranted.1.join sane grows beyond ?_, ih warranted.2⟩
    exact fun user template member => sane.lt_size (warranted.2.asked_of_mem member).needed

end

namespace Account

/-- A visit to a node with a code does nothing. -/
theorem skip (account : scene.Account uses root (.visit id :: rest) ledger) :
    scene.Account uses root rest ledger where
  sane := account.sane
  counted := account.counted
  stacked := account.stacked.tail
  unknown := account.unknown
  innermost := by
    refine account.innermost.mono (List.Subset.refl (Generator.pending rest)) ?_
    exact fun _ _ member => mem_of_ne_of_mem (by nofun) member
  outer := account.outer

/-- The ledger holds the code of the node that the next piece of work is about. -/
theorem hold (account : scene.Account uses root (next :: rest) ledger)
    (unknown : ledger.knows next.subject = false)
    (idle : next.subject ∉ Generator.pending rest)
    (role : (scene.graph.node next.subject).operation.role ≠ .statement) {inlined : Bool}
    (lone : inlined = true → next.subject < scene.base.size →
      scene.Lonely (next :: rest) ledger.innermost next.subject)
    (handed : inlined = true → ∀ swap ∈ scene.swaps, swap.outer = next.subject →
      scene.Lonely (next :: rest) ledger.innermost swap.old)
    {spent : List NodeId}
    (inner : ∀ other, (other, true) ∈ ledger.innermost → other ∈ spent → other ∈ ledger.spent ∨
      scene.Used ((next.subject, inlined) :: ledger.innermost) other)
    (around : ∀ level ∈ ledger.outer, ∀ other, (other, true) ∈ level → other ∈ spent →
      other ∈ ledger.spent) :
    ∃ after, Ledger.hold { ledger with spent } next.subject inlined = some after ∧
      after.innermost = (next.subject, inlined) :: ledger.innermost ∧
      after.outer = ledger.outer ∧ scene.Account uses root rest after := by
  have absent : Ledger.knows { ledger with spent } next.subject = false := unknown
  rw [Ledger.hold, absent]
  refine ⟨_, rfl, rfl, rfl, ?_⟩
  have asked := account.stacked.warranted.1
  constructor
  case sane => exact account.sane
  case counted => exact account.counted
  case stacked => exact account.stacked.tail
  case unknown =>
    intro other member
    refine Ledger.not_knows_cons (account.unknown other ?_) ?_ inlined _
    · exact mem_pending_cons member
    · rintro rfl
      exact idle member
  case innermost =>
    refine account.innermost.hold ⟨asked.needed, role⟩ asked.parts lone handed ?_ ?_
    · intro member
      exact of_decide_eq_true (mem_filter.mp member).2 rfl
    · exact fun other held member => inner other held (mem_filter.mp member).1
  case outer =>
    intro level member
    apply (account.outer level member).respend
    exact fun other held used => .inl (around level member other held (mem_filter.mp used).1)

/-- No node that a node with pending work was made for has a code. -/
theorem unheld (account : scene.Account uses root (next :: rest) ledger)
    (opens : next.opened? = some next.subject) {owner : NodeId}
    (owns : Owns scene.swaps owner next.subject) : ledger.knows owner = false := by
  apply account.unknown
  rcases owns with rfl | ⟨swap, member, has, rfl⟩
  · exact mem_filterMap.mpr ⟨next, mem_cons_self, opens⟩
  · have waiting := account.stacked.warranted.1.parts swap member has
    exact mem_pending_of_share (mem_cons_of_mem _ waiting)

/-- A leaf gets its code. -/
theorem leaf (account : scene.Account uses root (.visit id :: rest) ledger)
    (unknown : ledger.knows id = false) (idle : id ∉ Generator.pending rest)
    (role : (scene.graph.node id).operation.role = .leaf) :
    ∃ after, ledger.enter (.leaf id) = some after ∧
      after.innermost = (id, false) :: ledger.innermost ∧ after.outer = ledger.outer ∧
      scene.Account uses root rest after := by
  have isValue : (scene.graph.node id).operation.role ≠ .statement := by
    rw [role]
    decide
  refine account.hold unknown idle isValue ?_ ?_ (fun _ _ => .inl) fun _ _ _ _ member => member
  · exact fun impossible => absurd impossible Bool.false_ne_true
  · exact fun impossible => absurd impossible Bool.false_ne_true

section Emit

variable {template : Template} (account : scene.Account uses root (.emit id template :: rest) ledger)
include account

theorem role_ne : (scene.graph.node id).operation.role ≠ .statement := by
  rw [account.stacked.values id (mem_pending_of_emit mem_cons_self)]
  decide

/-- A pair that waits to take the place of what a node was made for is the one that the node is
in. -/
theorem has_of_share {swap : Swap} (waiting : .share swap.old swap.outer ∈ rest)
    (member : swap ∈ scene.swaps) (owns : Owns scene.swaps swap.old id) : swap.Has id := by
  obtain ⟨idle, distinct⟩ := nodup_cons.mp account.stacked.distinct
  rcases owns with same | ⟨other, known, has, same⟩
  · rw [← same] at idle
    exact absurd (mem_pending_of_share waiting) idle
  · have also := account.stacked.warranted.1.parts other known has
    rw [same] at also
    have outer := eq_of_share distinct waiting also
    obtain rfl := account.sane.patched.apart swap member other known _ (.inr rfl) (.inr outer)
    exact has

/-- The inline operands of a node that is about to get its code are known in the innermost scope. -/
theorem not_outer {level : Holdings} (around : level ∈ ledger.outer) {operand : NodeId}
    (uses : operand ∈ (scene.graph.node id).operands) : (operand, true) ∉ level := by
  intro inlined
  have unheld (owner : NodeId) (owns : Owns scene.swaps owner id) : owner ∉ level.map Prod.fst :=
    Ledger.notMem_of_not_knows (account.unheld rfl owns) (mem_cons_of_mem _ around)
  have impossible := (account.outer level around).operand account.sane
    account.stacked.warranted.1.needed account.role_ne unheld nofun uses inlined
  exact impossible.1 rfl

/-- An inline operand of a node that is about to get its code was not used before, and stands in one
place. -/
theorem operand {operand : NodeId} (uses : operand ∈ (scene.graph.node id).operands)
    (inlined : ledger.inlines operand = true) :
    operand ∉ ledger.spent ∧ (scene.graph.node id).operands.count operand ≤ 1 := by
  obtain ⟨level, open_, held⟩ := Ledger.inlines_iff.mp inlined
  rcases mem_cons.mp open_ with rfl | around
  · refine (account.innermost.operand account.sane account.stacked.warranted.1.needed
      account.role_ne ?_ ?_ uses held).2.symm
    · exact fun owner owns =>
        Ledger.notMem_of_not_knows (account.unheld rfl owns) mem_cons_self
    · intro swap member waiting owns
      exact account.has_of_share (mem_of_ne_of_mem (by nofun) waiting) member owns
  · exact absurd held (account.not_outer around uses)

/-- A node gets its code over those of its operands. -/
theorem emit {inlined : Bool}
    (known : ∀ operand ∈ (scene.graph.node id).operands, ledger.knows operand = true)
    (single : inlined = true → tally uses id ≤ 1) :
    ∃ after, ledger.enter (.wrote id (scene.graph.node id).operands inlined) = some after ∧
      after.innermost = (id, inlined) :: ledger.innermost ∧ after.outer = ledger.outer ∧
      scene.Account uses root rest after := by
  have sane := account.sane
  have asked := account.stacked.warranted.1
  have role := account.stacked.values id (mem_pending_of_emit mem_cons_self)
  obtain ⟨spent, used, added⟩ :=
    ledger.foldlM_use known fun operand member isInlined => account.operand member isInlined
  have entered : ledger.enter (.wrote id (scene.graph.node id).operands inlined) =
      Ledger.hold { ledger with spent } id inlined := by
    change ((scene.graph.node id).operands.foldlM Ledger.use ledger).bind _ = _
    rw [used]
    rfl
  rw [entered]
  refine account.hold (account.unheld rfl (.inl rfl))
    (nodup_cons.mp account.stacked.distinct).1 account.role_ne ?_ ?_ ?_ ?_
  · intro isInlined inside
    have isValue : (scene.base.node id).operation.role = .value :=
      (sane.patched.grows.operation_eq inside) ▸ role
    exact account.stacked.lonely sane (asked.mono (subset_cons_self _ _)) inside
      (account.counted.lone isValue (single isInlined)) _
  · intro isInlined swap member same
    have waiting := asked.parts swap member (.inr same.symm)
    obtain ⟨_, _, _, _, lone⟩ := account.stacked.tail.shares _ _ waiting
    have askedOld := account.stacked.warranted.asked_of_mem (mem_cons_of_mem _ waiting)
    rw [same] at lone
    exact account.stacked.lonely sane askedOld
      (sane.grounded _ (sane.patched.replaced swap member).1) (lone (single isInlined)) _
  · intro other held member
    exact (added other member).imp_right fun uses => .operand mem_cons_self uses
  · intro level around other held member
    rcases added other member with old | uses
    · exact old
    · exact absurd held (account.not_outer around uses)

end Emit

/-- A node gets the code of the one that took its place. -/
theorem share {replacement : NodeId}
    (account : scene.Account uses root (.share id replacement :: rest) ledger)
    (known : ledger.knows replacement = true) :
    ∃ after, ledger.enter (.handed id replacement) = some after ∧
      after.innermost = (id, ledger.inlines replacement) :: ledger.innermost ∧
      after.outer = ledger.outer ∧ scene.Account uses root rest after := by
  have sane := account.sane
  obtain ⟨swap, member, rfl, rfl, _⟩ := account.stacked.shares _ _ mem_cons_self
  have unknown : ledger.knows swap.old = false := account.unheld rfl (.inl rfl)
  have role : (scene.graph.node swap.old).operation.role ≠ .statement := by
    rw [account.stacked.values _ (mem_pending_of_share mem_cons_self)]
    decide
  have around (level : Holdings) (open_ : level ∈ ledger.outer) : (swap.outer, true) ∉ level := by
    intro inlined
    have unheld := Ledger.notMem_of_not_knows unknown (mem_cons_of_mem _ open_)
    exact ((account.outer level open_).replacement sane member unheld inlined).1 rfl
  have innermost (inlined : ledger.inlines swap.outer = true) :
      (swap.outer, true) ∈ ledger.innermost := by
    obtain ⟨level, open_, held⟩ := Ledger.inlines_iff.mp inlined
    rcases mem_cons.mp open_ with rfl | outside
    · exact held
    · exact absurd held (around level outside)
  obtain ⟨spent, used, added⟩ := Ledger.use_of_unspent known fun inlined =>
    (account.innermost.replacement sane member
      (Ledger.notMem_of_not_knows unknown mem_cons_self) (innermost inlined)).2
  have entered : ledger.enter (.handed swap.old swap.outer) =
      Ledger.hold { ledger with spent } swap.old (ledger.inlines swap.outer) := by
    change (ledger.use swap.outer).bind _ = _
    rw [used]
    rfl
  rw [entered]
  refine account.hold unknown (nodup_cons.mp account.stacked.distinct).1 role ?_ ?_ ?_ ?_
  · exact fun inlined _ => account.innermost.handed swap member (innermost inlined)
  · intro _ other also same
    have inside := sane.grounded _ (sane.patched.replaced swap member).1
    have beyond := (sane.patched.lt_size_of_has also (.inr same.symm)).1
    exact absurd inside (Nat.not_lt_of_le beyond)
  · intro other held spends
    rcases added other spends with old | rfl
    · exact .inl old
    · exact .inr (.replacement member rfl mem_cons_self)
  · intro level open_ other held spends
    rcases added other spends with old | rfl
    · exact old
    · exact absurd held (around level open_)

section Visit

variable (account : scene.Account uses root (.visit id :: rest) ledger)
  (unknown : ledger.knows id = false) (idle : id ∉ Generator.pending rest)
  (role : (scene.graph.node id).operation.role = .value)
include account unknown idle role

/-- A node waits for its operands. -/
theorem await (template : Template) :
    scene.Account uses root
      ((scene.graph.node id).operands.map .visit ++ .emit id template :: rest) ledger := by
  have sane := account.sane
  obtain ⟨asked, warranted⟩ := account.stacked.warranted
  have pending : Generator.pending
      ((scene.graph.node id).operands.map .visit ++ .emit id template :: rest) =
      id :: Generator.pending rest :=
    pending_visits _ _
  have shares (old new : NodeId) (member : .share old new ∈
      (scene.graph.node id).operands.map Work.visit ++ .emit id template :: rest) :
      .share old new ∈ rest := by
    rcases mem_append.mp member with visit | below
    · obtain ⟨_, _, impossible⟩ := mem_map.mp visit
      cases impossible
    · exact mem_of_ne_of_mem (by nofun) below
  constructor
  case sane => exact sane
  case counted => exact account.counted
  case stacked =>
    constructor
    case rooted => exact account.stacked.rooted
    case warranted =>
      refine Warranted.visits ⟨asked, warranted⟩ fun operand member => ?_
      refine ⟨sane.patched.needed_operand sane.grounded asked.needed member, ?_, ?_⟩
      · exact .inr (.inl ⟨id, template, mem_cons_self, member⟩)
      · intro swap known has
        have beyond := (sane.patched.lt_size_of_has known has).1
        obtain ⟨other, also, second, first⟩ := sane.user_of_size_le asked.needed member beyond
        obtain rfl := sane.patched.apart swap known other also _ has (.inl first)
        exact mem_cons_of_mem _ (asked.parts swap known (.inr second))
    case distinct =>
      rw [pending]
      exact nodup_cons.mpr ⟨idle, account.stacked.tail.distinct⟩
    case values =>
      rw [pending]
      exact forall_mem_cons.mpr ⟨role, account.stacked.tail.values⟩
    case shares =>
      exact fun old new member => account.stacked.tail.shares old new (shares old new member)
  case unknown =>
    rw [pending]
    exact forall_mem_cons.mpr ⟨unknown, account.unknown⟩
  case innermost =>
    apply account.innermost.mono
    · rw [pending]
      exact subset_cons_self _ _
    · intro old new member
      exact mem_append_right _ (mem_cons_of_mem _ (mem_of_ne_of_mem (by nofun) member))
  case outer => exact account.outer

/-- A pair of nodes is added to take the place of a node. -/
theorem join {first second : Node} {larger : Graph}
    (isReplaced : (scene.graph.node id).operation.isReplaced = true)
    (builds : scene.graph.Builds id first second)
    (conserves : scene.graph.Conserves id first second)
    (joins : scene.graph.Joins larger first second) :
    (scene.join larger ⟨id, scene.graph.size⟩).Account
      (larger.moveUses uses id (scene.graph.size + 1)) root
      (.visit (scene.graph.size + 1) :: .share id (scene.graph.size + 1) :: rest) ledger := by
  have sane := account.sane
  have stacked := account.stacked.tail
  obtain ⟨asked, warranted⟩ := account.stacked.warranted
  have reached := sane.patched.reaches_of_isReplaced asked.needed isReplaced
  have inside := sane.grounded id reached
  have isValue : (scene.base.node id).operation.role = .value :=
    (sane.patched.grows.operation_eq inside) ▸ role
  have baseRole : (scene.base.node id).operation.role ≠ .statement := by
    rw [isValue]
    decide
  have patched := sane.patched.join sane.grounded reached role builds conserves joins
  have joined : (scene.join larger ⟨id, scene.graph.size⟩).Sane :=
    ⟨sane.grounded, patched, sane.written⟩
  have beyond : scene.graph.size ≤ Swap.inner ⟨id, scene.graph.size⟩ := Nat.le_refl _
  -- Work that waits keeps the lone values that it asks for lone.
  have lone {other : NodeId} (askedOther : scene.Asked root rest other)
      (before : other < scene.base.size) (single : scene.Lone other) :
      (scene.join larger ⟨id, scene.graph.size⟩).Lone other := by
    have lonely := stacked.lonely sane askedOther before single []
    exact (lonely.join sane joined joins.grows baseRole before not_mem_nil idle
      (List.Subset.refl _)).lone
  constructor
  case sane => exact joined
  case counted =>
    exact account.counted.join sane.patched sane.grounded reached role builds conserves joins
  case stacked =>
    constructor
    case rooted => exact stacked.rooted
    case warranted =>
      have onward : scene.Warranted root (.share id (scene.graph.size + 1) :: rest) :=
        ⟨asked, warranted⟩
      refine ⟨⟨?_, ?_, ?_⟩, onward.join sane joins.grows beyond⟩
      · exact .inr ⟨_, mem_cons_self, .inr rfl⟩
      · exact .inr (.inr ⟨id, mem_cons_self⟩)
      · intro swap member has
        obtain rfl := patched.apart swap member _ mem_cons_self _ has (.inr rfl)
        exact mem_cons_self
    case distinct => exact nodup_cons.mpr ⟨idle, stacked.distinct⟩
    case values =>
      refine forall_mem_cons.mpr ⟨?_, fun other member => ?_⟩
      · exact (joins.grows.operation_eq (sane.lt_size asked.needed)).symm ▸ role
      · have isOther := stacked.values other member
        exact (joins.grows.operation_eq (lt_size_of_value isOther)).symm ▸ isOther
    case shares =>
      intro old new member
      rcases mem_cons.mp (mem_of_ne_of_mem (by nofun) member) with same | below
      · cases same
        refine ⟨_, mem_cons_self, rfl, rfl, fun few => lone asked inside ?_⟩
        have fresh := account.counted.notMem_keys sane.patched sane.grounded (Nat.le_succ _)
        exact account.counted.lone isValue (Nat.le_trans (tally_le_tally_moveUses fresh) few)
      · obtain ⟨swap, known, rfl, rfl, single⟩ := stacked.shares old new below
        obtain ⟨after, before⟩ := sane.patched.lt_size_of_has known (.inr rfl)
        refine ⟨swap, mem_cons_of_mem _ known, rfl, rfl, fun few => ?_⟩
        have moved := account.counted.tally_le_tally_join sane.patched sane.grounded reached builds
          conserves joins before fun impossible => absurd impossible (Nat.not_lt_of_le after)
        exact lone (warranted.asked_of_mem below) (sane.grounded _ (sane.patched.replaced swap known).1)
          (single (Nat.le_trans moved few))
  case unknown => exact forall_mem_cons.mpr ⟨unknown, account.unknown⟩
  case innermost =>
    refine account.innermost.join sane joined joins.grows baseRole beyond
      (Ledger.notMem_of_not_knows unknown mem_cons_self) idle (subset_cons_self _ _) ?_
    intro old new member
    exact mem_cons_of_mem _ (mem_cons_of_mem _ (mem_of_ne_of_mem (by nofun) member))
  case outer =>
    intro level around
    exact (account.outer level around).join sane joined joins.grows baseRole beyond
      (Ledger.notMem_of_not_knows unknown (mem_cons_of_mem _ around)) not_mem_nil
      (List.Subset.refl _) nofun

end Visit

end Account

end Scene

end Retarget
