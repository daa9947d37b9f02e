import Retarget.Proofs.Graph.Bodies
import Retarget.Proofs.Source.WellFormed

/-!
# Statements in turn

The statements of a program that is read take places of their own: each one all places from its start
up to its own, and its parts places inside of these, one after the other (`Graph.InTurn`). So a
statement is part of at most one other and is written at most once.
-/

namespace Retarget

open List

/-- The statements that a node is made of. -/
def Node.parts (node : Node) : List NodeId :=
  match node.operation with
  | .sequence => node.operands
  | .condition => node.operands.tail
  | _ => []

theorem Node.parts_subset (node : Node) : node.parts ⊆ node.operands := by
  unfold parts
  split
  · exact List.Subset.refl _
  · exact tail_subset _
  · exact nil_subset _

theorem Node.parts_of_role_ne {node : Node} (role : node.operation.role ≠ .statement) :
    node.parts = [] := by
  unfold parts
  split
  · rename_i sequence
    rw [sequence] at role
    exact absurd rfl role
  · rename_i condition
    rw [condition] at role
    exact absurd rfl role
  · rfl

namespace Graph

/-- The parts of every node before `limit` are statements whose places lie inside of its own, in
turn. -/
structure InTurn (graph : Graph) (limit : Nat) (start : NodeId → NodeId) : Prop where
  start_le : ∀ id < limit, start id ≤ id
  parts : ∀ id < limit, ∀ part ∈ (graph.node id).parts,
    (graph.node part).operation.role = .statement ∧ start id ≤ start part ∧ part < id
  turns : ∀ id < limit, (graph.node id).parts.Pairwise fun earlier later => earlier < start later

namespace InTurn

variable {graph larger : Graph} {limit : Nat} {start : NodeId → NodeId}

section

variable (inTurn : graph.InTurn limit start)

include inTurn

/-- Nodes that keep their operation and their parts stay in turn. -/
theorem of_parts (operation : ∀ id < limit, (larger.node id).operation = (graph.node id).operation)
    (same : ∀ id < limit, (larger.node id).parts = (graph.node id).parts) :
    larger.InTurn limit start where
  start_le := inTurn.start_le
  parts id inside part member := by
    rw [same id inside] at member
    obtain ⟨role, within, before⟩ := inTurn.parts id inside part member
    rw [operation part (Nat.lt_trans before inside)]
    exact ⟨role, within, before⟩
  turns id inside := by
    rw [same id inside]
    exact inTurn.turns id inside

theorem grows (inside : limit ≤ graph.size) (grows : graph.Grows larger) :
    larger.InTurn limit start := by
  apply inTurn.of_parts
  · exact fun id before => grows.operation_eq (Nat.lt_of_lt_of_le before inside)
  · intro id before
    unfold Node.parts
    rw [grows.operation_eq (Nat.lt_of_lt_of_le before inside),
      grows.operands_eq (Nat.lt_of_lt_of_le before inside)]

/-- Promotion changes no statement that is part of another. -/
theorem promote (inside : limit ≤ graph.size) {root : NodeId}
    (grounded : ∀ id, graph.Reaches root id → id < graph.size) (promotions : Promotions)
    (book : RuleBook) : (graph.promote root promotions book).1.InTurn limit start := by
  rcases promote_cases graph root promotions book grounded with
    same | ⟨promoted, state, rewired, computed⟩
  · rw [same]
    exact inTurn
  have operation (id : NodeId) (before : id < limit) :=
    rewired.operation_eq (Nat.lt_of_lt_of_le before inside)
  refine inTurn.of_parts operation fun id before => ?_
  have away : ∀ part ∈ (graph.node id).parts, part ∉ promoted := by
    intro part member chosen
    have role := computed part chosen
    rw [(inTurn.parts id before part member).1] at role
    cases role
  have outside (statement : (graph.node id).operation.role = .statement) : id ∉ promoted := by
    intro chosen
    rw [computed id chosen] at statement
    cases statement
  unfold Node.parts at away ⊢
  rw [operation id before]
  split
  · rename_i sequence
    simp only [sequence] at away
    have kept := rewired.operands_kept (Nat.lt_of_lt_of_le before inside)
      (outside (by rw [sequence]; rfl))
    exact eq_of_forall₂_kept kept away
  · rename_i condition
    simp only [condition] at away
    have kept := rewired.operands_kept (Nat.lt_of_lt_of_le before inside)
      (outside (by rw [condition]; rfl))
    have later := forall₂_drop 1 kept
    rw [drop_one, drop_one] at later
    exact eq_of_forall₂_kept later away
  · rfl

end

/-- A node is added whose parts are in turn. -/
theorem add (inTurn : graph.InTurn graph.size start) {new : Node} {first : NodeId}
    (within : first ≤ graph.size)
    (parts : ∀ part ∈ new.parts, part < graph.size ∧
      (graph.node part).operation.role = .statement ∧ first ≤ start part)
    (turns : new.parts.Pairwise fun earlier later => earlier < start later) :
    (graph.add new).1.InTurn (graph.add new).1.size (Function.update start graph.size first) := by
  have before {id : NodeId} (inside : id < graph.size) :
      Function.update start graph.size first id = start id :=
    Function.update_of_ne (Nat.ne_of_lt inside) _ _
  constructor
  · intro id inside
    rcases eq_or_lt_of_lt_size_add inside with ⟨rfl, _⟩ | ⟨earlier, _⟩
    · rw [Function.update_self]
      exact within
    · rw [before earlier]
      exact inTurn.start_le id earlier
  · intro id inside part member
    rcases eq_or_lt_of_lt_size_add inside with ⟨rfl, node⟩ | ⟨earlier, node⟩
    · rw [node] at member
      obtain ⟨below, role, after⟩ := parts part member
      rw [Function.update_self, before below, node_add_of_lt below]
      exact ⟨role, after, below⟩
    · rw [node] at member
      obtain ⟨role, after, below⟩ := inTurn.parts id earlier part member
      have known := Nat.lt_trans below earlier
      rw [before earlier, before known, node_add_of_lt known]
      exact ⟨role, after, below⟩
  · intro id inside
    rcases eq_or_lt_of_lt_size_add inside with ⟨rfl, node⟩ | ⟨earlier, node⟩
    · rw [node]
      apply turns.imp_of_mem
      intro _ later _ member sooner
      rw [before (parts later member).1]
      exact sooner
    · rw [node]
      apply (inTurn.turns id earlier).imp_of_mem
      intro _ later _ member sooner
      rw [before (Nat.lt_trans (inTurn.parts id earlier later member).2.2 earlier)]
      exact sooner

end InTurn

end Graph

namespace Source

open Graph

/-- Statements that belong to no other so far, the last one first, take places one before the
other. -/
def Loose (graph : Graph) (start : NodeId → NodeId) (statements : List NodeId) : Prop :=
  (∀ id ∈ statements, id < graph.size ∧ (graph.node id).operation.role = .statement) ∧
    statements.Pairwise fun later earlier => earlier < start later

/-- Some way to assign starts has the statements of a graph in turn, and the loose ones too. -/
def Turns (graph : Graph) (statements : List NodeId) : Prop :=
  ∃ start, graph.InTurn graph.size start ∧ Loose graph start statements

variable {graph larger : Graph} {taken rest statements : List NodeId} {new : Node}

theorem Loose.add {start : NodeId → NodeId} (loose : Loose graph start statements) (new : Node)
    (first : NodeId) :
    Loose (graph.add new).1 (Function.update start graph.size first) statements := by
  constructor
  · intro id member
    obtain ⟨inside, role⟩ := loose.1 id member
    rw [node_add_of_lt inside, size_add]
    exact ⟨Nat.lt_succ_of_lt inside, role⟩
  · apply loose.2.imp_of_mem
    intro later _ member _ sooner
    rw [Function.update_of_ne (Nat.ne_of_lt (loose.1 later member).1)]
    exact sooner

/-- A node without parts changes nothing. -/
theorem Turns.add (turns : Turns graph statements) (none : new.parts = []) :
    Turns (graph.add new).1 statements := by
  obtain ⟨start, inTurn, loose⟩ := turns
  refine ⟨_, inTurn.add (Nat.le_refl _) ?_ ?_, loose.add new graph.size⟩
  · rw [none]
    exact forall_mem_nil _
  · rw [none]
    exact .nil

/-- A statement takes the last loose ones for its parts. -/
theorem Turns.gather (turns : Turns graph (taken ++ rest)) (role : new.operation.role = .statement)
    (parts : new.parts = taken.reverse) : Turns (graph.add new).1 (graph.size :: rest) := by
  obtain ⟨start, inTurn, loose⟩ := turns
  obtain ⟨inner, outer, between⟩ := pairwise_append.mp loose.2
  have known (id : NodeId) (member : id ∈ taken) := loose.1 id (mem_append_left _ member)
  -- The new statement starts where the first of its parts does.
  obtain ⟨first, within, parted, after⟩ : ∃ first ≤ graph.size,
      (∀ part ∈ taken, first ≤ start part) ∧ ∀ earlier ∈ rest, earlier < first := by
    cases last : taken.getLast? with
    | none =>
      rw [getLast?_eq_none_iff] at last
      subst last
      exact ⟨graph.size, Nat.le_refl _, forall_mem_nil _, fun id member =>
        (loose.1 id member).1⟩
    | some part =>
      obtain ⟨others, rfl⟩ := getLast?_eq_some_iff.mp last
      have own : part ∈ others ++ [part] := mem_append_right _ (mem_singleton_self _)
      have low := inTurn.start_le part (known part own).1
      refine ⟨start part, Nat.le_trans low (Nat.le_of_lt (known part own).1), ?_, ?_⟩
      · intro other member
        rcases mem_append.mp member with later | same
        · have sooner :=
            (pairwise_append.mp inner).2.2 other later part (mem_singleton_self _)
          exact Nat.le_of_lt (Nat.lt_of_le_of_lt low sooner)
        · rw [mem_singleton.mp same]
      · exact fun earlier member => between part own earlier member
  refine ⟨Function.update start graph.size first, inTurn.add within ?_ ?_, ?_, ?_⟩
  · rw [parts]
    intro part member
    have member := mem_reverse.mp member
    exact ⟨(known part member).1, (known part member).2, parted part member⟩
  · rw [parts]
    exact pairwise_reverse.mpr inner
  · refine forall_mem_cons.mpr ⟨?_, ?_⟩
    · rw [size_add, node_add_self]
      exact ⟨Nat.lt_succ_self _, role⟩
    · intro id member
      exact (loose.add new first).1 id (mem_append_right _ member)
  · refine pairwise_cons.mpr ⟨?_, ?_⟩
    · intro earlier member
      rw [Function.update_self]
      exact after earlier member
    · exact (pairwise_append.mp (loose.add new first).2).2.1

/-- The node of a block takes the place of the statements in it. -/
theorem Turns.sequence (turns : Turns graph (statements ++ rest)) {block : NodeId}
    (ended : Source.sequence graph statements = (larger, block)) :
    Turns larger (block :: rest) := by
  unfold Source.sequence at ended
  split at ended
  · cases ended
    exact turns
  · cases ended
    exact turns.gather rfl rfl

theorem AddsArguments.turns {arguments : List Argument}
    (added : AddsArguments graph arguments larger) (turns : Turns graph statements) :
    Turns larger statements := by
  induction added with
  | nil => exact turns
  | cons _ _ _ _ ih => exact ih (turns.add rfl)

/-- The statements of open blocks, the last one first. -/
def OpenFunction.loose (function : OpenFunction) : List NodeId :=
  function.statements ++
    function.conditions.flatMap fun condition => condition.thenBranch.toList ++ condition.before

/-- The statements that were read are in turn. -/
def Reader.Turns (reader : Reader) : Prop :=
  Source.Turns reader.program.graph (reader.current.elim [] OpenFunction.loose)

theorem Reader.Turns.reads {reader next : Reader} (turns : reader.Turns)
    (reads : reader.Reads next) : next.Turns := by
  unfold Reader.Turns at turns ⊢
  cases reads with
  | begun idle added line name result =>
    rw [idle] at turns
    exact added.turns turns
  | assigned current _ role =>
    rw [current] at turns
    exact Source.Turns.add turns (Node.parts_of_role_ne role)
  | @returned function value current known =>
    rw [current] at turns
    exact Source.Turns.gather (show Source.Turns _ ([] ++ function.loose) from turns) rfl rfl
  | opened current known line =>
    rw [current] at turns
    exact turns
  | @switched function condition conditions larger block current listed first ended =>
    rw [current] at turns
    simp only [Option.elim_some, OpenFunction.loose, listed, flatMap_cons, first] at turns
    exact turns.sequence ended
  | @joined function condition conditions larger block current listed ended =>
    rw [current] at turns
    simp only [Option.elim_some, OpenFunction.loose, listed, flatMap_cons] at turns
    have all := turns.sequence ended
    rw [append_assoc, ← cons_append] at all
    apply all.gather rfl
    show condition.thenBranch.toList ++ [block] = (block :: condition.thenBranch.toList).reverse
    cases condition.thenBranch <;> rfl
  | finished current outermost ended =>
    rw [current] at turns
    simp only [Option.elim_some, OpenFunction.loose, outermost, flatMap_nil] at turns
    obtain ⟨start, inTurn, _⟩ := turns.sequence ended
    exact ⟨start, inTurn, forall_mem_nil _, .nil⟩

/-- The statements of every program that is read are in turn. -/
theorem read_inTurn (text : String) :
    Yields (read text) fun program =>
      ∃ start, program.graph.InTurn program.graph.size start := by
  have begins : Reader.Turns {} :=
    ⟨id, ⟨nofun, nofun, nofun⟩, forall_mem_nil _, .nil⟩
  intro program done
  obtain ⟨start, inTurn, _⟩ :=
    read_induction begins (fun _ _ turns reads => turns.reads reads) text program done
  exact ⟨start, inTurn⟩

end Source

end Retarget
