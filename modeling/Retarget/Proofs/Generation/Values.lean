import Retarget.Proofs.Generation.Bounded
import Retarget.Proofs.Generation.Ready
import Retarget.Proofs.Generation.WorkStack
import Retarget.Proofs.Graph.Bodies

/-!
# Lowering of values

By a book of tame rules, every value of a graph is lowered, unless some part of it has no rule. The
induction is on the value: its parts do not lead back to it, so none of them is on the way, and a
replacement is made of new nodes over the parts of the value that it replaces. Which parts may have
no rule is left open (`Graph.Refuses`).
-/

namespace Retarget

open List

namespace Graph

/-- Wherever the graph grows to, a computed value is lowered or refused by an expected fault. -/
def Refuses (expected : Fault → Prop) (book : RuleBook) (graph : Graph) (id : NodeId) : Prop :=
  ∀ larger : Graph, graph.Grows larger → (larger.node id).operation.role = .value →
    ∀ fault, book.lower larger id = .error fault → expected fault

/-- All that a node reaches, and all that takes the place of it, is lowered or refused by an expected
fault. -/
structure RefusesFrom (expected : Fault → Prop) (book : RuleBook) (graph : Graph) (root : NodeId) :
    Prop where
  own : ∀ id, graph.Reaches root id → graph.Refuses expected book id
  built : ∀ id, graph.Reaches root id → ∀ middle : Graph, graph.Grows middle →
    ∀ later new, book.lower middle id = .ok (.replaced later new) →
      ∀ fresh, middle.size ≤ fresh → fresh < later.size → later.Refuses expected book fresh

variable {expected : Fault → Prop} {book : RuleBook} {graph larger : Graph} {root id : NodeId}

theorem Refuses.grows (refuses : graph.Refuses expected book id) (grows : graph.Grows larger) :
    larger.Refuses expected book id :=
  fun largest later => refuses largest (grows.trans later)

theorem RefusesFrom.of_operand (refuses : graph.RefusesFrom expected book root)
    (uses : id ∈ (graph.node root).operands) : graph.RefusesFrom expected book id :=
  ⟨fun place reached => refuses.own place (.head uses reached),
    fun place reached => refuses.built place (.head uses reached)⟩

/-- Tame rules refuse nothing but what they have no rule for. -/
theorem RefusesFrom.of_tame (tame : book.Tame)
    (unmatched : ∀ fault : Fault, fault.IsUnmatched → expected fault) :
    graph.RefusesFrom expected book root := by
  have refuses (graph : Graph) (id : NodeId) : graph.Refuses expected book id := by
    intro larger _ _ fault failed
    exact unmatched fault (tame.unmatched_of_lower failed).1
  exact ⟨fun id _ => refuses graph id, fun _ _ _ _ later _ _ fresh _ _ => refuses later fresh⟩

end Graph

namespace Generator

/-- An answer with a property, or a fault that is expected. -/
def Gives {α : Type} (expected : Fault → Prop) (post : α → Generator → Prop) :
    Option (Except Fault α × Generator) → Prop
  | some (.ok value, after) => post value after
  | some (.error fault, _) => expected fault
  | none => False

namespace Gives

variable {α β : Type} {expected : Fault → Prop} {middle : α → Generator → Prop}
  {post : β → Generator → Prop} {before : Generator}

theorem bind {action : Recursion α} {next : α → Recursion β}
    (first : Gives expected middle (action before))
    (rest : ∀ value state, middle value state → Gives expected post (next value state)) :
    Gives expected post ((action >>= next) before) := by
  match given : action before with
  | none =>
    rw [given] at first
    exact first.elim
  | some (.ok value, state) =>
    rw [given] at first
    rw [bind_of_ok given]
    exact rest value state first
  | some (.error fault, state) =>
    rw [given] at first
    rw [bind_of_error given]
    exact first

theorem act {action : GeneratorM β} (ends : Ends expected action before post) :
    Gives expected post (act action before) := by
  cases outcome : action before with
  | ok value after =>
    rw [act_of_eq_ok outcome]
    exact ends.post_of_eq_ok outcome
  | error fault after =>
    rw [act_of_eq_error outcome]
    exact ends.failing_of_eq_error outcome

end Gives

section

variable {expected : Fault → Prop} {job : Job} {frame : Option Frame} {depths : List Nat}
  {graph : Graph} {path : List NodeId} {id : NodeId} {before : Generator}

/-- From every state that the graph has grown to, the node is lowered on the given way, unless some
node is refused by an expected fault. -/
def Lowerable (expected : Fault → Prop) (job : Job) (frame : Option Frame) (depths : List Nat)
    (graph : Graph) (path : List NodeId) (id : NodeId) : Prop :=
  ∀ before : Generator, before.Ready job graph frame depths →
    Gives expected (fun _ after => after.Ready job before.graph frame depths)
      (lowerDirectly job path id before)

theorem lowerAll_gives {operands : List NodeId}
    (each : ∀ operand ∈ operands, Lowerable expected job frame depths graph path operand)
    (ready : before.Ready job graph frame depths) :
    Gives expected
      (fun codes after => codes.length = operands.length ∧
        after.Ready job before.graph frame depths)
      (operands.mapM (lowerDirectly job path) before) := by
  induction operands generalizing before with
  | nil => exact ⟨rfl, ready.rebase⟩
  | cons operand rest ih =>
    obtain ⟨first, others⟩ := forall_mem_cons.mp each
    rw [mapM_cons]
    refine (first before ready).bind fun code middle lowered => ?_
    refine (ih others (lowered.of_grows ready.grows)).bind fun codes after remaining => ?_
    exact ⟨congrArg Nat.succ remaining.1, remaining.2.of_grows lowered.grows⟩

/-- Code is given and remembered. -/
theorem act_remember_gives {action : GeneratorM String}
    (ends : Ends expected action before fun _ after =>
      after.Ready job graph frame depths) (id : NodeId) :
    Gives expected (fun _ after => after.Ready job graph frame depths)
      ((do
        let code ← act action
        act (remember id code)
        return code : Recursion String) before) := by
  refine (Gives.act ends).bind fun code middle ready => ?_
  rw [act_remember]
  exact ready.congr rfl rfl rfl rfl

theorem template_gives {operands : List NodeId} {template : Template}
    (each : ∀ operand ∈ operands, Lowerable expected job frame depths before.graph (id :: path) operand)
    (fits : template.fits operands.length template.form.writesResult = true)
    (ready : before.Ready job before.graph frame depths) :
    Gives expected (fun _ after => after.Ready job before.graph frame depths)
      ((do
        let codes ← operands.mapM (lowerDirectly job (id :: path))
        let code ← act (emitOver job.options id template codes)
        act (remember id code)
        return code : Recursion String) before) := by
  refine (lowerAll_gives each ready).bind ?_
  intro codes middle lowered
  rw [← lowered.1] at fits
  exact act_remember_gives (emitOver_ends lowered.2 id fits) id

theorem replace_gives {larger : Graph} {new : NodeId}
    (built : Lowerable expected job frame depths larger (id :: path) new)
    (grows : before.graph.Grows larger) (ready : before.Ready job before.graph frame depths) :
    Gives expected (fun _ after => after.Ready job before.graph frame depths)
      ((do
        act (replace larger id new)
        let code ← lowerDirectly job (id :: path) new
        act (remember id code)
        return code : Recursion String) before) := by
  have replaced : Gives expected (fun _ after => after.Ready job larger frame depths)
      (act (replace larger id new) before) :=
    ⟨.refl larger, ready.framed, ready.balanced, ready.tables⟩
  refine replaced.bind fun _ middle ready => ?_
  refine (built middle ready).bind fun code after lowered => ?_
  rw [act_remember]
  have later := lowered.of_grows (grows.trans ready.grows)
  exact later.congr rfl rfl rfl rfl

/-- A node that is not replaced is lowered where its operands are. -/
theorem Lowerable.of_over (tame : job.book.Tame) {given : NodeId → Prop} {node : Node}
    (made : node.Over given) {tag : Option String} (same : graph.node id = { node with tag })
    (inside : id < graph.size) (fresh : id ∉ path)
    (refuses : graph.Refuses expected job.book id)
    (each : ∀ operand, given operand →
      ∀ larger : Graph, graph.Grows larger →
        Lowerable expected job frame depths larger (id :: path) operand) :
    Lowerable expected job frame depths graph path id := by
  intro before ready
  have operation : (before.graph.node id).operation = node.operation := by
    rw [ready.grows.operation_eq inside, same]
  rw [lowerDirectly_eq]
  cases before.code? id with
  | some code => exact ready.rebase
  | none =>
    dsimp only
    rw [if_neg fresh]
    rcases made.role with role | ⟨role, carries⟩
    · rw [operation, role]
      dsimp only
      cases tame.lower_cases before.graph id with
      | unmatched lowered _ _ =>
        rw [lowered]
        exact refuses before.graph ready.grows (by rw [operation, role]) _ lowered
      | written lowered fits =>
        rw [lowered]
        refine template_gives (fun operand uses => ?_) fits ready.rebase
        rw [ready.grows.operands_eq inside, same] at uses
        exact each operand (made.operands operand uses) before.graph ready.grows
      | replaced _ isReplaced _ =>
        rw [operation, made.unreplaced] at isReplaced
        cases isReplaced
    · rw [operation, role]
      refine act_remember_gives (lowerLeaf_ends ready.rebase id ?_) id
      rw [ready.grows.payload_eq inside, same]
      exact carries

/-- What replaces a node is lowered where the operands of the node are. -/
theorem Lowerable.of_builds (tame : job.book.Tame) {first second : Node} {built : Graph}
    (builds : graph.Builds id first second) (joins : graph.Joins built first second)
    (inside : ∀ place ∈ path, place < graph.size)
    (refuses : ∀ fresh, graph.size ≤ fresh → fresh < built.size →
      built.Refuses expected job.book fresh)
    (each : ∀ operand ∈ (graph.node id).operands, ∀ larger : Graph, graph.Grows larger →
      ∀ new : List NodeId, (∀ place ∈ new, graph.size ≤ place ∧ place < larger.size) →
        Lowerable expected job frame depths larger (new ++ path) operand) :
    Lowerable expected job frame depths built path (graph.size + 1) := by
  have firstInside : graph.size < built.size := by
    have := joins.size
    omega
  have lastInside : graph.size + 1 < built.size := by
    have := joins.size
    omega
  have fresh {place : NodeId} (new : graph.size ≤ place) : place ∉ path :=
    fun member => absurd (inside place member) (Nat.not_lt_of_le new)
  obtain ⟨_, outerNode⟩ := joins.outer
  refine .of_over tame builds.outer outerNode lastInside (fresh (Nat.le_succ _))
    (refuses _ (Nat.le_succ _) lastInside) ?_
  intro operand given larger grows
  have lastLarger := Nat.lt_of_lt_of_le lastInside grows.size
  rcases given with uses | rfl
  · refine each operand uses larger (joins.grows.trans grows) [graph.size + 1] ?_
    exact forall_mem_singleton.mpr ⟨Nat.le_succ _, lastLarger⟩
  · obtain ⟨_, firstNode⟩ := joins.inner
    obtain ⟨_, innerNode⟩ := grows.node graph.size firstInside
    rw [firstNode] at innerNode
    refine .of_over tame builds.inner innerNode (Nat.lt_of_lt_of_le firstInside grows.size) ?_
      ((refuses _ (Nat.le_refl _) firstInside).grows grows) ?_
    · intro member
      rcases mem_cons.mp member with same | earlier
      · exact absurd same (Nat.ne_of_lt (Nat.lt_succ_self _))
      · exact fresh (Nat.le_refl _) earlier
    · intro operand uses largest later
      have largest_size := (grows.trans later).size
      refine each operand uses largest ((joins.grows.trans grows).trans later)
        [graph.size, graph.size + 1] ?_
      refine forall_mem_cons.mpr ⟨⟨Nat.le_refl _, ?_⟩, ?_⟩
      · exact Nat.lt_of_lt_of_le firstInside largest_size
      · exact forall_mem_singleton.mpr
          ⟨Nat.le_succ _, Nat.lt_of_lt_of_le lastInside largest_size⟩

/-- The nodes on the way are known, and the value does not lead to those of them in the graph that
it was made in. -/
structure Clear (graph larger : Graph) (path : List NodeId) (id : NodeId) : Prop where
  inside : ∀ place ∈ path, place < larger.size
  apart : ∀ place ∈ path, place < graph.size → ¬ graph.Reaches id place

namespace Clear

variable {larger largest : Graph}

section

variable (clear : Clear graph larger path id)

include clear

theorem notMem (value : graph.Value id) : id ∉ path :=
  fun member => clear.apart id member value.lt_size .refl

theorem of_operand (value : graph.Value id) {operand : NodeId}
    (uses : operand ∈ (graph.node id).operands) (grows : graph.Grows larger) :
    Clear graph larger (id :: path) operand where
  inside := forall_mem_cons.mpr
    ⟨Nat.lt_of_lt_of_le value.lt_size grows.size, clear.inside⟩
  apart := forall_mem_cons.mpr
    ⟨fun _ => value.not_reaches uses, fun place member known reached =>
      clear.apart place member known (.head uses reached)⟩

/-- New nodes may come on the way. -/
theorem append (grows : larger.Grows largest) {new : List NodeId}
    (added : ∀ place ∈ new, graph.size ≤ place ∧ place < largest.size) :
    Clear graph largest (new ++ path) id where
  inside place member := by
    rcases mem_append.mp member with here | there
    · exact (added place here).2
    · exact Nat.lt_of_lt_of_le (clear.inside place there) grows.size
  apart place member known := by
    rcases mem_append.mp member with here | there
    · exact absurd known (Nat.not_lt_of_le (added place here).1)
    · exact clear.apart place there known

theorem grows (grows : larger.Grows largest) : Clear graph largest path id :=
  clear.append grows (forall_mem_nil _)

end

end Clear

/-- Every value is lowered, from every state that its graph has grown to. -/
theorem lowerable_of_value (tame : job.book.Tame) (value : graph.Value id) :
    graph.RefusesFrom expected job.book id → ∀ {larger : Graph} {path : List NodeId},
      graph.Grows larger → Clear graph larger path id →
        Lowerable expected job frame depths larger path id := by
  induction value with
  | @leaf id role carries bare =>
    intro refuses larger path grows clear
    have whole : graph.Value id := .leaf role carries bare
    obtain ⟨tag, same⟩ := grows.node id whole.lt_size
    have made : (graph.node id).Over fun _ => False := by
      refine ⟨?_, .inr ⟨role, carries⟩, fun operand uses => ?_⟩
      · revert role
        cases (graph.node id).operation <;> decide
      · rw [bare] at uses
        cases uses
    exact .of_over tame made same (Nat.lt_of_lt_of_le whole.lt_size grows.size)
      (clear.notMem whole) ((refuses.own id .refl).grows grows) fun _ impossible =>
        impossible.elim
  | @computed id role operands ih =>
    intro refuses larger path grows clear before ready
    have whole : graph.Value id := .computed role operands
    have grown := grows.trans ready.grows
    have clear := clear.grows ready.grows
    have same := grown.operands_eq whole.lt_size
    have known : (before.graph.node id).operation.role = .value := by
      rw [grown.operation_eq whole.lt_size, role]
    rw [lowerDirectly_eq]
    cases before.code? id with
    | some code => exact ready.rebase
    | none =>
      dsimp only
      rw [if_neg (clear.notMem whole), known]
      dsimp only
      cases tame.lower_cases before.graph id with
      | unmatched lowered _ _ =>
        rw [lowered]
        exact refuses.own id .refl before.graph grown known _ lowered
      | written lowered fits =>
        rw [lowered]
        refine template_gives (fun operand uses => ?_) fits ready.rebase
        rw [same] at uses
        exact ih operand uses (refuses.of_operand uses) grown
          (clear.of_operand whole uses grown)
      | @replaced first second lowered _ builds =>
        rw [lowered]
        have joins := before.graph.joins_shareTag first second id
        have inside : ∀ place ∈ id :: path, place < before.graph.size :=
          forall_mem_cons.mpr
            ⟨Nat.lt_of_lt_of_le whole.lt_size grown.size, clear.inside⟩
        have built : Lowerable expected job frame depths
            (((before.graph.add first).1.add second).1.shareTag id (before.graph.size + 1))
            (id :: path) (before.graph.size + 1) := by
          refine .of_builds tame builds joins inside
            (refuses.built id .refl before.graph grown _ _ lowered)
            fun operand uses larger grows new added => ?_
          rw [same] at uses
          refine ih operand uses (refuses.of_operand uses) (grown.trans grows) ?_
          refine (clear.of_operand whole uses grown).append grows fun place member => ?_
          exact ⟨Nat.le_trans grown.size (added place member).1, (added place member).2⟩
        exact replace_gives built joins.grows ready.rebase

/-- The value of a node is lowered, unless some part of it is refused by an expected fault. -/
theorem lowerExpression_ends (appends : job.book.Appends) (tame : job.book.Tame)
    (value : graph.Value id) (refuses : graph.RefusesFrom expected job.book id)
    (ready : before.Ready job graph frame depths) :
    Ends expected (lowerExpression job id) before fun _ after =>
      after.Ready job graph frame depths := by
  have clear : Clear graph graph [] id := ⟨forall_mem_nil _, forall_mem_nil _⟩
  have given := lowerable_of_value tame value refuses (.refl graph) clear before ready
  have within : Ends expected (lowerWithin job (stepLimit before.graph) id) before
      fun found after => found.isSome = true ∧ after.Ready job graph frame depths := by
    unfold lowerWithin
    rcases root_follows appends rfl (work_stepLimit_ended tame id before) with
      ⟨code, after, lowered, known, worked⟩ | ⟨fault, after, failed, worked⟩
    · rw [lowered] at given
      refine (EndsIn.of_eq_ok worked ⟨rfl, known, given⟩ : Ends expected _ before
        fun enough after => enough = true ∧ after.code? id = some code ∧
          after.Ready job before.graph frame depths).bind ?_
      rintro _ state ⟨rfl, known, lowered⟩
      refine .get_bind ?_
      rw [known]
      exact .pure ⟨rfl, lowered.of_grows ready.grows⟩
    · rw [failed] at given
      exact .of_eq_error (bind_of_eq_error worked) given
  refine .get_bind (within.bind ?_)
  rintro (_ | code) after ⟨found, lowered⟩
  · cases found
  · exact .pure lowered

end

end Generator

end Retarget
