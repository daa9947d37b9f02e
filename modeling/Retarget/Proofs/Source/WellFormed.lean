import Retarget.Proofs.Graph.Reachability
import Retarget.Proofs.Source.Reading

/-!
# Well-formed programs

Nodes are added after their operands, so the graph of a program that is read has no cycle, and each
node has operands of the kind and in the number that its operation asks for. What belongs to one
function stands from some place on and refers to nothing before that place (`Graph.ClosedFrom`),
which keeps the bodies of two functions apart.
-/

namespace Retarget

open List

namespace Graph

/-- A place from `low` on that holds a value. -/
def ValueFrom (graph : Graph) (low id : NodeId) : Prop :=
  low ≤ id ∧ id < graph.size ∧ (graph.node id).operation.role ≠ .statement

/-- A place from `low` on that holds a statement. -/
def StatementFrom (graph : Graph) (low id : NodeId) : Prop :=
  low ≤ id ∧ id < graph.size ∧ (graph.node id).operation.role = .statement

/-- Each node is one that a line adds, over values and statements before it. -/
def Formed (graph : Graph) : Prop :=
  ∀ id < graph.size,
    (graph.node id).Made (fun operand => operand < id ∧ graph.ValueFrom 0 operand)
      fun part => part < id ∧ graph.StatementFrom 0 part

/-- What stands from `low` on refers to nothing before. -/
def ClosedFrom (graph : Graph) (low : NodeId) : Prop :=
  ∀ id < graph.size, low ≤ id → ∀ operand ∈ (graph.node id).operands, low ≤ operand

/-- The node of an argument is the variable that it names. -/
def Holds (graph : Graph) (argument : Argument) : Prop :=
  argument.node < graph.size ∧ graph.node argument.node =
    { operation := .variable, format := argument.format, payload := .variable argument.name }

/-- Nodes are added and none is changed. -/
structure Extends (graph larger : Graph) : Prop where
  size : graph.size ≤ larger.size
  node : ∀ id < graph.size, larger.node id = graph.node id

variable {graph larger : Graph} {low id : NodeId} {new : Node} {argument : Argument}

theorem Extends.refl (graph : Graph) : graph.Extends graph :=
  ⟨Nat.le_refl _, fun _ _ => rfl⟩

theorem Extends.trans {largest : Graph} (first : graph.Extends larger)
    (second : larger.Extends largest) : graph.Extends largest := by
  constructor
  · exact Nat.le_trans first.size second.size
  · intro id inside
    rw [second.node id (Nat.lt_of_lt_of_le inside first.size), first.node id inside]

theorem Extends.add (graph : Graph) (new : Node) : graph.Extends (graph.add new).1 := by
  constructor
  · rw [size_add]
    exact Nat.le_succ _
  · intro id inside
    rw [node_add, if_neg (Nat.ne_of_lt inside)]

theorem ValueFrom.extends (value : graph.ValueFrom low id) (extended : graph.Extends larger) :
    larger.ValueFrom low id := by
  obtain ⟨after, inside, role⟩ := value
  rw [← extended.node id inside] at role
  exact ⟨after, Nat.lt_of_lt_of_le inside extended.size, role⟩

theorem StatementFrom.extends (statement : graph.StatementFrom low id)
    (extended : graph.Extends larger) : larger.StatementFrom low id := by
  obtain ⟨after, inside, role⟩ := statement
  rw [← extended.node id inside] at role
  exact ⟨after, Nat.lt_of_lt_of_le inside extended.size, role⟩

theorem Holds.extends (holds : graph.Holds argument) (extended : graph.Extends larger) :
    larger.Holds argument := by
  obtain ⟨inside, node⟩ := holds
  rw [← extended.node argument.node inside] at node
  exact ⟨Nat.lt_of_lt_of_le inside extended.size, node⟩

/-- A place of a graph with one more node is the last one or one of those before. -/
theorem eq_or_lt_of_lt_size_add (inside : id < (graph.add new).1.size) :
    id = graph.size ∧ (graph.add new).1.node id = new ∨
      id < graph.size ∧ (graph.add new).1.node id = graph.node id := by
  rw [size_add] at inside
  rw [node_add]
  rcases Nat.eq_or_lt_of_le (Nat.le_of_lt_succ inside) with last | before
  · exact .inl ⟨last, if_pos last⟩
  · exact .inr ⟨before, if_neg (Nat.ne_of_lt before)⟩

/-- A graph goes on from `low`: the nodes that are added are such as lines add, and nothing comes to
refer to what stands before. -/
structure Advances (graph : Graph) (low : NodeId) (larger : Graph) : Prop where
  extended : graph.Extends larger
  formed : graph.Formed → larger.Formed
  closed : ∀ place ≤ low, graph.ClosedFrom place → larger.ClosedFrom place

theorem Advances.refl (graph : Graph) (low : NodeId) : graph.Advances low graph :=
  ⟨.refl graph, id, fun _ _ => id⟩

theorem Advances.trans {largest : Graph} (first : graph.Advances low larger)
    (second : larger.Advances low largest) : graph.Advances low largest where
  extended := first.extended.trans second.extended
  formed := second.formed ∘ first.formed
  closed place before := second.closed place before ∘ first.closed place before

theorem Formed.add (formed : graph.Formed)
    (made : new.Made (graph.ValueFrom low) (graph.StatementFrom low)) :
    (graph.add new).1.Formed := by
  have extended := Extends.add graph new
  intro id inside
  rcases eq_or_lt_of_lt_size_add inside with ⟨rfl, node⟩ | ⟨before, node⟩
  · rw [node]
    apply made.mono
    · intro operand value
      have value : graph.ValueFrom 0 operand := ⟨Nat.zero_le _, value.2⟩
      exact ⟨value.2.1, value.extends extended⟩
    · intro part statement
      have statement : graph.StatementFrom 0 part := ⟨Nat.zero_le _, statement.2⟩
      exact ⟨statement.2.1, statement.extends extended⟩
  · rw [node]
    apply (formed id before).mono
    · exact fun operand value => ⟨value.1, value.2.extends extended⟩
    · exact fun part statement => ⟨statement.1, statement.2.extends extended⟩

theorem Advances.add (made : new.Made (graph.ValueFrom low) (graph.StatementFrom low)) :
    graph.Advances low (graph.add new).1 where
  extended := .add graph new
  formed formed := formed.add made
  closed place before closed := by
    intro id inside after operand uses
    rcases eq_or_lt_of_lt_size_add inside with ⟨rfl, node⟩ | ⟨earlier, node⟩
    · rw [node] at uses
      apply Nat.le_trans before
      rcases made.of_operand uses with value | statement
      · exact value.1
      · exact statement.1
    · rw [node] at uses
      exact closed id earlier after operand uses

theorem valueFrom_add (after : low ≤ graph.size) (role : new.operation.role ≠ .statement) :
    (graph.add new).1.ValueFrom low graph.size := by
  refine ⟨after, ?_, ?_⟩
  · rw [size_add]
    exact Nat.lt_succ_self _
  · rw [node_add, if_pos rfl]
    exact role

theorem statementFrom_add (after : low ≤ graph.size) (role : new.operation.role = .statement) :
    (graph.add new).1.StatementFrom low graph.size := by
  refine ⟨after, ?_, ?_⟩
  · rw [size_add]
    exact Nat.lt_succ_self _
  · rw [node_add, if_pos rfl]
    exact role

/-- What a closed part of a graph reaches stays in it. -/
theorem ClosedFrom.le_of_reaches (closed : graph.ClosedFrom low) {root : NodeId}
    (after : low ≤ root) (reached : graph.Reaches root id) : low ≤ id := by
  induction reached with
  | refl => exact after
  | @tail middle last _ uses ih => exact closed middle uses.lt_size ih last uses

theorem Formed.operand_lt (formed : graph.Formed) {operand : NodeId}
    (uses : operand ∈ (graph.node id).operands) : operand < id := by
  rcases (formed id (Operand.lt_size uses)).of_operand uses with value | statement
  · exact value.1
  · exact statement.1

/-- Nothing that a node reaches stands after it. -/
theorem Formed.le_of_reaches (formed : graph.Formed) {root : NodeId}
    (reached : graph.Reaches root id) : id ≤ root := by
  induction reached with
  | refl => exact Nat.le_refl _
  | tail _ uses ih => exact Nat.le_trans (Nat.le_of_lt (formed.operand_lt uses)) ih

end Graph

namespace Source

open Graph

variable {graph larger : Graph} {low : NodeId}

/-! ## Arguments and blocks -/

/-- The arguments of a function hold their nodes, which stand from the first of them on. -/
theorem AddsArguments.advances {arguments : List Argument}
    (added : AddsArguments graph arguments larger) (after : low ≤ graph.size) :
    graph.Advances low larger ∧
      ∀ argument ∈ arguments, larger.Holds argument ∧ larger.ValueFrom low argument.node := by
  induction added with
  | nil graph => exact ⟨.refl graph low, forall_mem_nil _⟩
  | @cons graph larger rest name format range _ ih =>
    let node : Node := { operation := .variable, format, payload := .variable name }
    have first : graph.Advances low (graph.add node).1 := .add (.variable name format none)
    obtain ⟨later, others⟩ := ih (Nat.le_trans after first.extended.size)
    have value : (graph.add node).1.ValueFrom low graph.size := valueFrom_add after nofun
    have holds : (graph.add node).1.Holds { name, format, node := graph.size, range } :=
      ⟨value.2.1, by rw [node_add, if_pos rfl]⟩
    refine ⟨first.trans later, forall_mem_cons.mpr ⟨⟨?_, ?_⟩, others⟩⟩
    · exact holds.extends later.extended
    · exact value.extends later.extended

/-- The node of a block is a statement where its parts are. -/
theorem sequence_advances {statements : List NodeId} {block : NodeId} (after : low ≤ graph.size)
    (parts : ∀ part ∈ statements, graph.StatementFrom low part)
    (ended : sequence graph statements = (larger, block)) :
    graph.Advances low larger ∧ larger.StatementFrom low block := by
  unfold sequence at ended
  split at ended
  · cases ended
    exact ⟨.refl graph low, parts _ mem_cons_self⟩
  · rename_i several
    cases ended
    refine ⟨.add (.sequence ?_ ?_), statementFrom_add after rfl⟩
    · rw [length_reverse]
      intro one
      obtain ⟨statement, same⟩ := length_eq_one_iff.mp one
      exact several statement same
    · exact fun part member => parts part (mem_reverse.mp member)

theorem Named.of_insert {values : OrderedMap String NodeId} {name : String} {new id : NodeId}
    (named : Named (values.insert name new) id) : id = new ∨ Named values id := by
  obtain ⟨other, found⟩ := named
  rcases OrderedMap.eq_or_get?_of_get?_insert found with ⟨_, same⟩ | earlier
  · exact .inl same
  · exact .inr ⟨other, earlier⟩

/-- A name of an argument stands for the node of one. -/
theorem Named.of_arguments {arguments : List Argument} {values : OrderedMap String NodeId}
    {id : NodeId}
    (named : Named (arguments.foldl (fun values a => values.insert a.name a.node) values) id) :
    Named values id ∨ ∃ argument ∈ arguments, id = argument.node := by
  induction arguments generalizing values with
  | nil => exact .inl named
  | cons argument rest ih =>
    rcases ih named with first | ⟨other, member, same⟩
    · rcases first.of_insert with same | earlier
      · exact .inr ⟨argument, mem_cons_self, same⟩
      · exact .inl earlier
    · exact .inr ⟨other, mem_cons_of_mem _ member, same⟩

/-! ## Lines -/

/-- The condition is a value, and what was read before and in the first branch are statements. -/
structure OpenCondition.Formed (graph : Graph) (low : NodeId) (opened : OpenCondition) : Prop where
  condition : graph.ValueFrom low opened.condition
  thenBranch : ∀ branch ∈ opened.thenBranch, graph.StatementFrom low branch
  before : ∀ statement ∈ opened.before, graph.StatementFrom low statement

/-- The names stand for values, what was read are statements, and all of it stands from `low` on. -/
structure OpenFunction.Formed (graph : Graph) (low : NodeId) (function : OpenFunction) : Prop where
  arguments : ∀ argument ∈ function.arguments, graph.Holds argument
  values : ∀ id, Named function.values id → graph.ValueFrom low id
  statements : ∀ statement ∈ function.statements, graph.StatementFrom low statement
  conditions : ∀ opened ∈ function.conditions, opened.Formed graph low

theorem OpenCondition.Formed.extends {opened : OpenCondition} (formed : opened.Formed graph low)
    (extended : graph.Extends larger) : opened.Formed larger low where
  condition := formed.condition.extends extended
  thenBranch branch member := (formed.thenBranch branch member).extends extended
  before statement member := (formed.before statement member).extends extended

theorem OpenFunction.Formed.extends {function : OpenFunction} (formed : function.Formed graph low)
    (extended : graph.Extends larger) : function.Formed larger low where
  arguments argument member := (formed.arguments argument member).extends extended
  values id named := (formed.values id named).extends extended
  statements statement member := (formed.statements statement member).extends extended
  conditions opened member := (formed.conditions opened member).extends extended

/-- The first body stands before some place, and the second one from that place on. -/
def Apart (graph : Graph) (first second : Function) : Prop :=
  ∃ place, graph.ClosedFrom place ∧ first.body < place ∧ place ≤ second.body

/-- The functions that are read are over a graph of the right form. -/
structure FunctionsFormed (program : Program) : Prop where
  graph : program.graph.Formed
  arguments : ∀ function ∈ program.functions, ∀ argument ∈ function.arguments,
    program.graph.Holds argument
  bodies : ∀ function ∈ program.functions, program.graph.StatementFrom 0 function.body
  apart : program.functions.Pairwise (Apart program.graph)

/-- A function is being read from `low` on. -/
structure OpenFrom (program : Program) (low : NodeId) : Prop where
  place : low ≤ program.graph.size
  closed : program.graph.ClosedFrom low
  later : ∀ function ∈ program.functions, function.body < low

/-- What has been read is well formed. -/
structure Reader.Formed (reader : Reader) : Prop where
  program : FunctionsFormed reader.program
  current : ∀ function ∈ reader.current,
    ∃ low, OpenFrom reader.program low ∧ function.Formed reader.program.graph low

theorem FunctionsFormed.advance {program : Program} (formed : FunctionsFormed program)
    (later : ∀ function ∈ program.functions, function.body < low)
    (advances : program.graph.Advances low larger) :
    FunctionsFormed { program with graph := larger } where
  graph := advances.formed formed.graph
  arguments function member argument known :=
    (formed.arguments function member argument known).extends advances.extended
  bodies function member := (formed.bodies function member).extends advances.extended
  apart := by
    apply formed.apart.imp_of_mem
    rintro first second _ known ⟨place, closed, before, after⟩
    have earlier : place ≤ low := Nat.le_of_lt (Nat.lt_of_le_of_lt after (later second known))
    exact ⟨place, advances.closed place earlier closed, before, after⟩

namespace Reader

variable {reader next : Reader} {function : OpenFunction}

section

variable (formed : reader.Formed)

include formed

/-- Goes on in an open function. -/
theorem Formed.advance (opened : OpenFrom reader.program low)
    (advances : reader.program.graph.Advances low larger) (inner : function.Formed larger low) :
    Formed
      { program := { reader.program with graph := larger }, current := some function } where
  program := formed.program.advance opened.later advances
  current other same := by
    cases same
    refine ⟨low, ⟨?_, ?_, opened.later⟩, inner⟩
    · exact Nat.le_trans opened.place advances.extended.size
    · exact advances.closed low (Nat.le_refl _) opened.closed

theorem Formed.finished (opened : OpenFrom reader.program low)
    (inner : function.Formed reader.program.graph low) {block : NodeId}
    (ended : sequence reader.program.graph function.statements = (larger, block)) :
    FunctionsFormed
      { graph := larger
        functions := reader.program.functions ++
          [{ name := function.name, arguments := function.arguments,
             result := function.result, body := block }] } := by
  obtain ⟨advances, isStatement⟩ := sequence_advances opened.place inner.statements ended
  have whole := formed.program.advance opened.later advances
  refine ⟨whole.graph, ?_, ?_, ?_⟩
  · exact forall_mem_append.mpr ⟨whole.arguments,
      forall_mem_singleton.mpr (inner.extends advances.extended).arguments⟩
  · exact forall_mem_append.mpr ⟨whole.bodies,
      forall_mem_singleton.mpr ⟨Nat.zero_le _, isStatement.2⟩⟩
  · apply pairwise_append.mpr
    refine ⟨whole.apart, pairwise_singleton _ _, ?_⟩
    intro first known second last
    rw [mem_singleton.mp last]
    refine ⟨low, ?_, opened.later first known, isStatement.1⟩
    exact advances.closed low (Nat.le_refl _) opened.closed

theorem Formed.joined (opened : OpenFrom reader.program low)
    (inner : function.Formed reader.program.graph low) {condition : OpenCondition}
    {conditions : List OpenCondition} (listed : function.conditions = condition :: conditions)
    {block : NodeId} (ended : sequence reader.program.graph function.statements = (larger, block)) :
    Formed
      { program :=
          { reader.program with
            graph := (larger.addOperation .condition .plain
              (condition.condition :: (condition.thenBranch.toList ++ [block])) .void).1 }
        current := some
          { function with statements := larger.size :: condition.before, conditions } } := by
  obtain ⟨first, isStatement⟩ := sequence_advances opened.place inner.statements ended
  have all := (inner.extends first.extended).conditions
  rw [listed] at all
  obtain ⟨head, others⟩ := forall_mem_cons.mp all
  have second : larger.Advances low (larger.add
      { operation := .condition
        operands := condition.condition :: (condition.thenBranch.toList ++ [block])
        format := .void }).1 := by
    refine .add (.condition head.condition ?_ ?_)
    · cases condition.thenBranch with
      | none => exact .inl rfl
      | some _ => exact .inr rfl
    · refine forall_mem_append.mpr ⟨fun side member => ?_, forall_mem_singleton.mpr isStatement⟩
      exact head.thenBranch side (Option.mem_toList.mp member)
  have inner := inner.extends (first.trans second).extended
  refine formed.advance opened (first.trans second) ⟨inner.arguments, inner.values, ?_, ?_⟩
  · have place := Nat.le_trans opened.place first.extended.size
    exact forall_mem_cons.mpr
      ⟨statementFrom_add place rfl, (head.extends second.extended).before⟩
  · exact fun other member => (others other member).extends second.extended

/-- Every line keeps what has been read well formed. -/
theorem Formed.reads (reads : reader.Reads next) : next.Formed := by
  cases reads with
  | @begun arguments larger idle added line name result =>
    obtain ⟨advances, known⟩ := added.advances (Nat.le_refl _)
    have opened : OpenFrom reader.program reader.program.graph.size := by
      refine ⟨Nat.le_refl _, ?_, ?_⟩
      · exact fun id inside after => absurd inside (Nat.not_lt.mpr after)
      · exact fun function member => (formed.program.bodies function member).2.1
    refine formed.advance opened advances ⟨?_, ?_, forall_mem_nil _, forall_mem_nil _⟩
    · exact fun argument member => (known argument member).1
    · intro id named
      rcases named.of_arguments with ⟨_, impossible⟩ | ⟨argument, member, rfl⟩
      · cases impossible
      · exact (known argument member).2
  | @assigned function node name current made role =>
    obtain ⟨low, opened, inner⟩ := formed.current function current
    have advances : reader.program.graph.Advances low (reader.program.graph.add node).1 :=
      .add (made.mono inner.values fun _ => False.elim)
    have inner := inner.extends advances.extended
    refine formed.advance opened advances
      ⟨inner.arguments, ?_, inner.statements, inner.conditions⟩
    intro id named
    rcases named.of_insert with rfl | earlier
    · exact valueFrom_add opened.place role
    · exact inner.values id earlier
  | @returned function value current known =>
    obtain ⟨low, opened, inner⟩ := formed.current function current
    have advances : reader.program.graph.Advances low
        (reader.program.graph.addOperation .ret .plain [value] .void).1 :=
      .add (.result (inner.values value known))
    have inner := inner.extends advances.extended
    refine formed.advance opened advances ⟨inner.arguments, inner.values, ?_, inner.conditions⟩
    exact forall_mem_cons.mpr ⟨statementFrom_add opened.place rfl, inner.statements⟩
  | @opened function value current known line =>
    obtain ⟨low, opened, inner⟩ := formed.current function current
    refine formed.advance opened (.refl _ low)
      ⟨inner.arguments, inner.values, forall_mem_nil _, ?_⟩
    exact forall_mem_cons.mpr
      ⟨⟨inner.values value known, nofun, inner.statements⟩, inner.conditions⟩
  | @switched function condition conditions larger block current listed first ended =>
    obtain ⟨low, opened, inner⟩ := formed.current function current
    obtain ⟨advances, isStatement⟩ := sequence_advances opened.place inner.statements ended
    have inner := inner.extends advances.extended
    have all := inner.conditions
    rw [listed] at all
    obtain ⟨head, others⟩ := forall_mem_cons.mp all
    refine formed.advance opened advances
      ⟨inner.arguments, inner.values, forall_mem_nil _, ?_⟩
    refine forall_mem_cons.mpr ⟨⟨head.condition, ?_, head.before⟩, others⟩
    intro branch same
    cases same
    exact isStatement
  | @joined function condition conditions larger block current listed ended =>
    obtain ⟨low, opened, inner⟩ := formed.current function current
    exact formed.joined opened inner listed ended
  | @finished function larger block current outermost ended =>
    obtain ⟨low, opened, inner⟩ := formed.current function current
    exact ⟨formed.finished opened inner ended, nofun⟩

end

end Reader

theorem read_formed (text : String) : Yields (read text) FunctionsFormed := by
  have start : Reader.Formed {} :=
    ⟨⟨nofun, forall_mem_nil _, forall_mem_nil _, .nil⟩, nofun⟩
  intro program done
  have formed := read_induction start (fun _ _ formed reads => formed.reads reads) text program done
  exact formed.program

end Source

/-! ## Programs -/

/-- Whether the node at a place is a value. -/
def Graph.IsValue (graph : Graph) (id : NodeId) : Prop :=
  (graph.node id).operation.role ≠ .statement

/-- A node has the operands and the payload that its operation asks for. -/
def Graph.Suits (graph : Graph) (node : Node) : Prop :=
  match node.operation with
  | .constant => node.operands = [] ∧ ∃ scalar, node.payload = .constant scalar
  | .variable => node.operands = [] ∧ ∃ name, node.payload = .variable name
  | .table =>
    node.operands = [] ∧ ∃ storage entries, node.payload = .table entries ∧ entries ≠ [] ∧
      node.format = .table storage entries.length
  | .ret => ∃ value, node.operands = [value] ∧ graph.IsValue value
  | .condition =>
    ∃ value sides, node.operands = value :: sides ∧ (sides.length = 1 ∨ sides.length = 2) ∧
      graph.IsValue value ∧ ∀ side ∈ sides, ¬ graph.IsValue side
  | .sequence => node.operands.length ≠ 1 ∧ ∀ part ∈ node.operands, ¬ graph.IsValue part
  | operation =>
    (∀ operand ∈ node.operands, graph.IsValue operand) ∧
      ∀ count, operation.arity? = some count → node.operands.length = count

/-- Operands stand before their users and suit them, functions are over nodes of the right kind, and
the bodies of two functions have no node in common. -/
structure Program.WellFormed (program : Program) : Prop where
  earlier : ∀ id < program.graph.size,
    ∀ operand ∈ (program.graph.node id).operands, operand < id
  suits : ∀ id < program.graph.size, program.graph.Suits (program.graph.node id)
  bodies : ∀ function ∈ program.functions,
    function.body < program.graph.size ∧ ¬ program.graph.IsValue function.body
  arguments : ∀ function ∈ program.functions, ∀ argument ∈ function.arguments,
    argument.node < program.graph.size ∧
      (program.graph.node argument.node).operation = .variable ∧
      (program.graph.node argument.node).payload = .variable argument.name ∧
      (program.graph.node argument.node).format = argument.format
  apart : program.functions.Pairwise fun first second =>
    ∀ id, program.graph.Reaches first.body id → ¬ program.graph.Reaches second.body id

/-- What a line adds over values and statements suits them. -/
theorem Node.Made.suits {graph : Graph} {node : Node} {value statement : NodeId → Prop}
    (made : node.Made value statement) (values : ∀ id, value id → graph.IsValue id)
    (statements : ∀ id, statement id → ¬ graph.IsValue id) : graph.Suits node := by
  cases made with
  | constant scalar => exact ⟨rfl, scalar, rfl⟩
  | «variable» name => exact ⟨rfl, name, rfl⟩
  | @table entries some storage => exact ⟨rfl, storage, entries, rfl, some, rfl⟩
  | @computed operation operands role known arity =>
    have suited : (∀ operand ∈ operands, graph.IsValue operand) ∧
        ∀ count, operation.arity? = some count → operands.length = count :=
      ⟨fun operand uses => values operand (known operand uses), arity⟩
    cases operation <;> first | exact suited | cases role
  | result isValue => exact ⟨_, rfl, values _ isValue⟩
  | condition isValue few parts =>
    exact ⟨_, _, rfl, few, values _ isValue, fun side member => statements _ (parts side member)⟩
  | sequence notOne all => exact ⟨notOne, fun part member => statements _ (all part member)⟩

namespace Source

open Graph

/-- What stands before a place and what stands from it on do not reach one node. -/
theorem Apart.disjoint {graph : Graph} {first second : Function} (apart : Apart graph first second)
    (formed : graph.Formed) (id : NodeId) (reached : graph.Reaches first.body id) :
    ¬ graph.Reaches second.body id := by
  obtain ⟨place, closed, before, after⟩ := apart
  intro other
  have low : place ≤ id := closed.le_of_reaches after other
  have high : id < place := Nat.lt_of_le_of_lt (formed.le_of_reaches reached) before
  exact Nat.not_lt.mpr low high

/-- Every program that is read is well formed. -/
theorem wellFormed_of_read {text : String} {program : Program}
    (accepted : Source.read text = .ok program) : program.WellFormed := by
  have formed := read_formed text program accepted
  constructor
  case earlier => exact fun _ _ _ => formed.graph.operand_lt
  case suits =>
    intro id inside
    apply (formed.graph id inside).suits
    · exact fun operand value => value.2.2.2
    · exact fun part statement other => other statement.2.2.2
  case bodies =>
    intro function member
    obtain ⟨_, inside, role⟩ := formed.bodies function member
    exact ⟨inside, fun other => other role⟩
  case arguments =>
    intro function member argument known
    obtain ⟨inside, node⟩ := formed.arguments function member argument known
    rw [node]
    exact ⟨inside, rfl, rfl, rfl⟩
  case apart =>
    exact formed.apart.imp fun apart => apart.disjoint formed.graph

/-- Two functions. The first has a table and a conditional with an empty branch, and the second has
an empty body. -/
def twoFunctionsText : String :=
  "func f(x: bool) -> bool \x7b\n%t = table [1, 0] : bool\nif %x \x7b\nreturn %x\n" ++
    "\x7d else \x7b\n\x7d\nreturn %t\n\x7d\nfunc g() -> void \x7b\n\x7d"

/-- The program of that text. -/
def twoFunctions : Program where
  graph :=
    ⟨#[{ operation := .variable, format := .bool, payload := .variable "x" },
      { operation := .table, format := .table .bool 2, payload := .table [.bool true, .bool false] },
      { operation := .ret, operands := [0], format := .void },
      { operation := .sequence, operands := [], format := .void },
      { operation := .condition, operands := [0, 2, 3], format := .void },
      { operation := .ret, operands := [1], format := .void },
      { operation := .sequence, operands := [4, 5], format := .void },
      { operation := .sequence, operands := [], format := .void }]⟩
  functions :=
    [{ name := "f", arguments := [{ name := "x", format := .bool, node := 0 }]
       result := .bool, body := 6 },
     { name := "g", arguments := [], result := .void, body := 7 }]

theorem wellFormed_twoFunctions :
    Source.read twoFunctionsText = .ok twoFunctions ∧ twoFunctions.WellFormed := by
  have accepted : Source.read twoFunctionsText = .ok twoFunctions := by decide +kernel
  exact ⟨accepted, wellFormed_of_read accepted⟩

end Source

end Retarget
