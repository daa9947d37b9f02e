import Retarget.Proofs.Generation.Faults
import Retarget.Proofs.Generation.Mirroring
import Retarget.Proofs.Output.Resting

/-!
# Functions do not interfere

What a function of a C program becomes depends on the functions before it only through their names.
Where the names are the same, two programs generate the same function from the same text on: the
nodes that its values are lowered to may stand at other places, and its names are declared in tables
at other places, but neither is written.
-/

namespace Retarget

open List

variable {graph : Graph} {function : Function}

theorem forall₂_of_mem {α β : Type} {related closer : α → β → Prop} {values : List α}
    {others : List β} (listed : List.Forall₂ related values others)
    (each : ∀ value ∈ values, ∀ other ∈ others, related value other → closer value other) :
    List.Forall₂ closer values others := by
  induction listed with
  | nil => exact .nil
  | cons here _ ih =>
    refine .cons (each _ mem_cons_self _ mem_cons_self here) (ih ?_)
    exact fun value member other known =>
      each value (mem_cons_of_mem _ member) other (mem_cons_of_mem _ known)

/-- What a function reaches is in the graph, and none of it is a table. -/
structure Function.Grounded (graph : Graph) (function : Function) : Prop where
  inside : ∀ id, graph.Reaches function.body id → id < graph.size
  tableless : ∀ id, graph.Reaches function.body id → ∀ values,
    (graph.node id).payload ≠ .table values

/-- Two functions over two graphs that differ in the places of their nodes only, which come in the
same order. -/
structure Function.Resembles (graph other : Graph) (function function' : Function) : Prop where
  name : function.name = function'.name
  result : function.result = function'.result
  arguments : (function.arguments.map fun argument => (argument.name, argument.format)) =
    function'.arguments.map fun argument => (argument.name, argument.format)
  body : ∃ related : NodeId → NodeId → Prop, related function.body function'.body ∧
    (∀ {id partner}, related id partner →
      (graph.node id).Resembles related (other.node partner)) ∧
    ∀ {first first' second second'}, related first first' → related second second' →
      (first < second ↔ first' < second')

namespace Graph

variable {graph other larger : Graph} {root root' : NodeId}

/-- All nodes that a root does not reach are as they were. -/
structure Spares (graph : Graph) (root : NodeId) (larger : Graph) : Prop where
  size : graph.size ≤ larger.size
  node : ∀ id < graph.size, ¬ graph.Reaches root id → larger.node id = graph.node id

theorem Spares.extended {largest : Graph} (spares : graph.Spares root larger)
    (extended : larger.Extends largest) : graph.Spares root largest where
  size := Nat.le_trans spares.size extended.size
  node id inside unreached :=
    (extended.node id (Nat.lt_of_lt_of_le inside spares.size)).trans
      (spares.node id inside unreached)

section

variable {related : NodeId → NodeId → Prop}
  (inside : ∀ id, graph.Reaches root id → id < graph.size)
  (inside' : ∀ id, other.Reaches root' id → id < other.size)
  (ordered : ∀ {first first' second second'}, related first first' → related second second' →
    (first < second ↔ first' < second'))

/-- The nodes of two bodies that resemble each other. -/
def bodyPairing : Pairing where
  left := graph.size
  right := other.size
  given id partner := related id partner ∧ graph.Reaches root id ∧ other.Reaches root' partner
  below given := ⟨inside _ given.2.1, inside' _ given.2.2⟩
  ordered first second := ordered first.1 second.1

theorem bodyPairing_mirrors
    (same : ∀ {id partner}, related id partner →
      (graph.node id).Resembles related (other.node partner))
    (tableless : ∀ id, graph.Reaches root id → ∀ values, (graph.node id).payload ≠ .table values) :
    graph.Mirrors (bodyPairing inside inside' ordered) other := by
  refine ⟨⟨0, rfl, rfl⟩, fun {id partner} pairs => ?_⟩
  rcases pairs with ⟨here, reached, reached'⟩ | ⟨count, rfl, rfl⟩
  · have node := same here
    refine ⟨{ node with operands := ?_ }, tableless id reached⟩
    exact forall₂_of_mem node.operands fun operand uses operand' uses' related =>
      .inl ⟨related, reached.tail uses, reached'.tail uses'⟩
  · change Node.Mirrors _ (graph.node (graph.size + count)) (other.node (other.size + count))
    rw [node_of_size_le (Nat.le_add_right _ _), node_of_size_le (Nat.le_add_right _ _)]
    exact .nothing _

end

end Graph

theorem Function.Resembles.refl (graph : Graph) (function : Function) :
    function.Resembles graph graph function := by
  refine ⟨rfl, rfl, rfl, (· = ·), rfl, ?_, ?_⟩
  · rintro id _ rfl
    exact ⟨rfl, rfl, rfl, rfl, rfl, forall₂_refl _⟩
  · rintro first _ second _ rfl rfl
    exact Iff.rfl

/-- A job of writing C whose rules rest on the portable ones, with the sharing that is usual. -/
structure Job.WritesC (job : Job) : Prop where
  language : job.options.language = .c
  extended : job.book.ExtendsPortable
  tame : job.book.Tame
  standard : job.options.sharing.Standard

theorem Graph.Mirrors.promoted {job : Job} (writes : job.WritesC) {nodes : Pairing}
    {other : Graph} (mirrors : graph.Mirrors nodes other) {function' : Function}
    (pairs : nodes.Pairs function.body function'.body) :
    (job.promoted function graph).Mirrors nodes (job.promoted function' other) := by
  unfold Job.promoted
  split
  · exact mirrors.promote writes.extended.guarded _ pairs
  · exact mirrors

namespace Generator

/-- A state between two functions. -/
structure Rests (job : Job) (declared : List String) (generator : Generator) : Prop where
  document : generator.document.Rests job.options.sharing declared
  frame : generator.frame = none

/-- A state in which the code of a function is about to be written. -/
structure Begins (job : Job) (function : Function) (before ready : Generator) : Prop where
  graph : ready.graph = job.promoted function before.graph
  document : ready.document = before.document
  frame : ready.frame = before.frame
  uses : ready.uses = ready.graph.uses function.body
  levels : ready.levels = [OrderedMap.empty]

theorem Begins.rests {job : Job} {function : Function} {declared : List String}
    {before ready : Generator} (begins : Begins job function before ready)
    (rests : before.Rests job declared) : ready.Rests job declared := by
  refine ⟨?_, begins.frame.trans rests.frame⟩
  rw [begins.document]
  exact rests.document

/-- The values of a function are lowered in a graph that spares what the function does not reach. -/
theorem Begins.spares {job : Job} {function : Function} {before ready : Generator}
    (begins : Begins job function before ready) (grounded : function.Grounded before.graph) :
    before.graph.Spares function.body ready.graph := by
  rw [begins.graph, Job.promoted]
  split
  · have promoted := before.graph.promotedTo_promote function.body job.target.promotions job.book
      grounded.inside
    exact ⟨promoted.size_le, promoted.untouched⟩
  · exact ⟨Nat.le_refl _, fun _ _ _ => rfl⟩

/-- Writes the code of a function that is declared. -/
def writeC (job : Job) (function : Function) : GeneratorM Unit := do
  write (cHead function)
  openScope
  function.arguments.forM fun argument => reserve argument.name argument.format
  modify ({ · with frame := some ⟨"", function.result⟩ })
  lowerBody job function.body
  closeScope
  write "\n"

variable {job : Job} {function function' : Function} {declared : List String}
  {before after : Generator}

theorem promote_eq_ok (done : promote job function before = .ok () after) :
    after.graph = job.promoted function before.graph ∧ after.document = before.document ∧
      after.frame = before.frame := by
  unfold promote at done
  unfold Job.promoted
  split at done
  · rename_i asked
    rw [if_pos asked]
    cases done
    exact ⟨rfl, rfl, rfl⟩
  · rename_i asked
    rw [if_neg asked]
    cases done
    exact ⟨rfl, rfl, rfl⟩

/-- The generation of a C function: its code is written, and the rest is housekeeping. -/
theorem generateFunction_eq_ok (c : job.options.language = .c)
    (done : generateFunction job function before = .ok () after) :
    ∃ ready written, Begins job function before ready ∧
      generateC job function ready = .ok () written ∧ after.graph = written.graph ∧
      after.document = written.document ∧ after.frame = none := by
  obtain ⟨_, started, ⟨⟩, done⟩ := bind_eq_ok.mp done
  obtain ⟨_, promoted, promoting, done⟩ := bind_eq_ok.mp done
  obtain ⟨_, counted, ⟨⟩, done⟩ := bind_eq_ok.mp done
  obtain ⟨_, looked, ⟨⟩, done⟩ := bind_eq_ok.mp done
  obtain ⟨_, written, writing, done⟩ := bind_eq_ok.mp done
  obtain ⟨_, _, ⟨⟩, done⟩ := bind_eq_ok.mp done
  obtain ⟨_, _, ⟨⟩, ⟨⟩⟩ := bind_eq_ok.mp done
  obtain ⟨graph, document, frame⟩ := promote_eq_ok promoting
  rw [writeFunction, c] at writing
  exact ⟨{ promoted with
      uses := promoted.graph.uses function.body, memo := OrderedMap.empty, outerMemos := [] },
    written, ⟨graph, document, frame, rfl, rfl⟩, writing, rfl, rfl, rfl⟩

/-- A function is declared before its code is written. -/
theorem generateC_eq_ok (rests : before.Rests job declared) (standard : job.options.sharing.Standard)
    (done : generateC job function before = .ok () after) :
    ∃ document, document.Rests job.options.sharing (declared ++ [function.name]) ∧
      document.current.text = before.document.current.text ∧
      writeC job function { before with document } = .ok () after := by
  obtain ⟨_, headed, heading, done⟩ := bind_eq_ok.mp done
  obtain ⟨_, named, naming, done⟩ := bind_eq_ok.mp done
  obtain ⟨document, ⟨⟩, rfl⟩ := onDocument_eq_ok heading
  obtain ⟨document, declaring, rfl⟩ := onDocument_eq_ok naming
  have ready : (before.document.modifyRoot (·.addHeader "stdint.h")).Rests job.options.sharing
      declared :=
    rests.document.modifyRoot (fun _ => rfl) (fun _ => rfl) (fun _ => rfl) fun _ => rfl
  obtain ⟨later, text⟩ := ready.declare standard declaring
  refine ⟨document, later, text.trans ?_, done⟩
  rw [Document.modifyRoot_of_flat rests.document.flat]
  rfl

variable {outset : Outset} {left right : Generator}

/-- The code of a function is the same in both runs. -/
theorem writeC_together (writes : job.WritesC) (mirrors : left.Mirrors outset 0 right)
    (pairs : outset.nodes.Pairs function.body function'.body)
    (name : function.name = function'.name) (result : function.result = function'.result)
    (arguments : (function.arguments.map fun argument => (argument.name, argument.format)) =
      function'.arguments.map fun argument => (argument.name, argument.format)) :
    Together (writeC job function) left (writeC job function') right
      fun _ _ next beside => next.Mirrors outset 0 beside := by
  have head : cHead function = cHead function' := by
    unfold cHead
    rw [name, result, arguments]
  have listed : List.Forall₂ (fun argument argument' : Argument =>
      (argument.name, argument.format) = (argument'.name, argument'.format))
      function.arguments function'.arguments := by
    have same : List.Forall₂ (· = ·)
        (function.arguments.map fun argument => (argument.name, argument.format))
        (function'.arguments.map fun argument => (argument.name, argument.format)) := by
      rw [arguments]
      exact forall₂_refl _
    exact forall₂_map_right_iff.mp (forall₂_map_left_iff.mp same)
  unfold writeC
  rw [head, result]
  refine (write_agrees _ _ _ mirrors).bind fun _ _ _ _ written => ?_
  refine written.2.openScope.bind fun _ _ _ _ opened => ?_
  refine (Together.forM listed (fun argument argument' same left right mirrors => ?_) opened).bind
    fun _ _ next beside reserved => ?_
  · obtain ⟨named, formatted⟩ := Prod.mk.inj same
    rw [named, formatted]
    exact (reserve_agrees _ _ _ _ mirrors).mono fun _ _ _ _ reserved => reserved.2
  have framed : Mirrors outset 1
      { next with frame := some ⟨"", function'.result⟩ }
      { beside with frame := some ⟨"", function'.result⟩ } := { reserved with frame := rfl }
  have lowered : Together (lowerBody job function.body) _ (lowerBody job function'.body) _
      fun _ _ next beside => next.Mirrors outset 1 beside :=
    .get_bind (lowerStatement_lowers writes.extended writes.tame writes.language _ _ framed pairs)
  refine .modify_bind (lowered.bind fun _ _ _ _ lowered => ?_)
  refine lowered.closeScope.bind fun _ _ _ _ closed => ?_
  exact (write_agrees _ _ _ closed).mono fun _ _ _ _ written => written.2

/-- A function was generated between two states: its name is declared, and nodes that it does not
reach are as they were. -/
structure Generated (job : Job) (declared : List String) (function : Function)
    (before after : Generator) : Prop where
  rests : after.Rests job (declared ++ [function.name])
  spares : before.graph.Spares function.body after.graph

/-- Two runs wrote the same text between two states. -/
def WroteAlike (left next right beside : Generator) : Prop :=
  ∃ text, next.document.root.text = left.document.root.text ++ text ∧
    beside.document.root.text = right.document.root.text ++ text

theorem Rests.root_eq (rests : before.Rests job declared) :
    before.document.root = before.document.current := by
  rw [Document.root, rests.document.flat]
  rfl

/-- Functions that resemble each other are generated in the same way after functions with the same
names. -/
theorem generateFunction_together (writes : job.WritesC) (rests : left.Rests job declared)
    (rests' : right.Rests job declared)
    (same : function.Resembles left.graph right.graph function')
    (grounded : function.Grounded left.graph) (grounded' : function'.Grounded right.graph) :
    Together (generateFunction job function) left (generateFunction job function') right
      fun _ _ next beside => WroteAlike left next right beside ∧
        Generated job declared function left next ∧
        Generated job declared function' right beside := by
  intro _ _ next beside done also
  obtain ⟨related, bodies, alike, ordered⟩ := same.body
  let nodes := Graph.bodyPairing grounded.inside grounded'.inside ordered
  have pairs : nodes.Pairs function.body function'.body := .inl ⟨bodies, .refl, .refl⟩
  have graphs : left.graph.Mirrors nodes right.graph :=
    Graph.bodyPairing_mirrors grounded.inside grounded'.inside ordered alike grounded.tableless
  have promoted := graphs.promoted writes pairs
  obtain ⟨ready, written, begins, writing, graph, document, frame⟩ :=
    generateFunction_eq_ok writes.language done
  obtain ⟨ready', written', begins', writing', graph', document', frame'⟩ :=
    generateFunction_eq_ok writes.language also
  rw [← begins.graph, ← begins'.graph] at promoted
  obtain ⟨started, declares, text, wrote⟩ :=
    generateC_eq_ok (begins.rests rests) writes.standard writing
  obtain ⟨started', declares', text', wrote'⟩ :=
    generateC_eq_ok (begins'.rests rests') writes.standard writing'
  rw [← same.name] at declares'
  let outset : Outset :=
    { declares.footing declares' writes.standard with
      nodes, graph := ready.graph, graph' := ready'.graph }
  have levels : List.Forall₂ (OrderedMap.Mirrors nodes (· = ·)) ready.levels ready'.levels := by
    rw [begins.levels, begins'.levels]
    exact .cons .empty .nil
  have uses : ready.uses.Mirrors nodes (· = ·) ready'.uses := by
    rw [begins.uses, begins'.uses]
    exact promoted.uses_mirrors pairs
  have mirrors : Mirrors outset 0 { ready with document := started }
      { ready' with document := started' } :=
    { graph := promoted
      kept := .refl _
      kept' := .refl _
      document := declares.mirrors declares' writes.standard
      levels := levels
      uses := uses
      frame := (begins.rests rests).frame.trans (begins'.rests rests').frame.symm }
  have ended := writeC_together writes mirrors pairs same.name same.result same.arguments _ _ _ _
    wrote wrote'
  obtain ⟨⟨added, appended, appended'⟩, later, later'⟩ :=
    Document.Mirrors.rests declares declares' writes.standard ended.document
  rw [← document] at appended later
  rw [← document'] at appended' later'
  have ends : next.Rests job (declared ++ [function.name]) := ⟨later, frame⟩
  have ends' : beside.Rests job (declared ++ [function'.name]) := by
    rw [← same.name]
    exact ⟨later', frame'⟩
  refine ⟨⟨added, ?_, ?_⟩, ⟨ends, ?_⟩, ⟨ends', ?_⟩⟩
  · rw [ends.root_eq, rests.root_eq, appended, text, begins.document]
  · rw [ends'.root_eq, rests'.root_eq, appended', text', begins'.document]
  · rw [graph]
    exact (begins.spares grounded).extended ended.kept
  · rw [graph']
    exact (begins'.spares grounded').extended ended.kept'

end Generator

/-! ## Programs -/

/-- No function of a program reaches a table. -/
def Program.Tableless (program : Program) : Prop :=
  ∀ function ∈ program.functions, ∀ id, program.graph.Reaches function.body id →
    (program.graph.node id).operation ≠ .table

/-- All that a root reaches is the same in two graphs. -/
def Graph.SameFrom (graph other : Graph) (root : NodeId) : Prop :=
  ∀ id, graph.Reaches root id → other.node id = graph.node id

namespace Graph.SameFrom

variable {graph other : Graph} {root id : NodeId}

theorem reaches (same : graph.SameFrom other root) (reached : other.Reaches root id) :
    graph.Reaches root id := by
  induction reached with
  | refl => exact .refl
  | tail _ uses ih =>
    refine ih.tail ?_
    unfold Operand at uses ⊢
    rw [← same _ ih]
    exact uses

theorem grounded {function : Function} (same : graph.SameFrom other function.body)
    (size : graph.size ≤ other.size) (grounded : function.Grounded graph) :
    function.Grounded other where
  inside id reached := Nat.lt_of_lt_of_le (grounded.inside id (same.reaches reached)) size
  tableless id reached := by
    rw [same id (same.reaches reached)]
    exact grounded.tableless id (same.reaches reached)

end Graph.SameFrom

/-- Functions resemble each other where their bodies stand unchanged. -/
theorem Function.Resembles.mono {graph' larger larger' : Graph} {function' : Function}
    (resembles : function.Resembles graph graph' function')
    (same : graph.SameFrom larger function.body) (same' : graph'.SameFrom larger' function'.body) :
    function.Resembles larger larger' function' := by
  obtain ⟨related, bodies, alike, ordered⟩ := resembles.body
  refine { resembles with body := ⟨fun id partner => related id partner ∧
    graph.Reaches function.body id ∧ graph'.Reaches function'.body partner,
    ⟨bodies, .refl, .refl⟩, ?_, fun first second => ordered first.1 second.1⟩ }
  rintro id partner ⟨here, reached, reached'⟩
  have node := alike here
  rw [same id reached, same' partner reached']
  exact { node with
    operands := forall₂_of_mem node.operands fun operand uses operand' uses' related =>
      ⟨related, reached.tail uses, reached'.tail uses'⟩ }

namespace Generator

/-- A state after some functions of a program, with the bodies of the others as they were read. -/
structure Awaits (job : Job) (program : Program) (earlier later : List Function)
    (generator : Generator) : Prop where
  rests : generator.Rests job (earlier.map Function.name)
  size : program.graph.size ≤ generator.graph.size
  bodies : ∀ function ∈ later, program.graph.SameFrom generator.graph function.body

variable {job : Job} {program : Program} {earlier later functions : List Function}
  {before after : Generator}

section

variable (writes : job.WritesC)
  (grounded : ∀ function ∈ program.functions, function.Grounded program.graph)
  (apart : program.functions.Pairwise fun first second =>
    ∀ id, program.graph.Reaches first.body id → ¬ program.graph.Reaches second.body id)

include writes grounded apart

/-- A function is generated, and those after it still wait. -/
theorem Awaits.generateFunction {function : Function}
    (awaits : before.Awaits job program earlier (function :: later))
    (listed : program.functions = earlier ++ function :: later)
    (done : generateFunction job function before = .ok () after) :
    after.Awaits job program (earlier ++ [function]) later := by
  have known : function ∈ program.functions := by
    rw [listed]
    exact mem_append_cons_self
  obtain ⟨here, others⟩ := forall_mem_cons.mp awaits.bodies
  have ground := here.grounded awaits.size (grounded function known)
  have generated := (generateFunction_together writes awaits.rests awaits.rests (.refl _ _) ground
    ground _ _ _ _ done done).2.1
  refine ⟨?_, Nat.le_trans awaits.size generated.spares.size, fun other member id reached => ?_⟩
  · rw [map_append]
    exact generated.rests
  · have unreached : ¬ before.graph.Reaches function.body id := by
      intro shared
      rw [listed] at apart
      have following := (pairwise_cons.mp (pairwise_append.mp apart).2.1).1
      exact following other member id (here.reaches shared) reached
    have inside : id < before.graph.size := by
      have place : other ∈ program.functions := by
        rw [listed]
        exact mem_append_right _ (mem_cons_of_mem _ member)
      exact Nat.lt_of_lt_of_le ((grounded other place).inside id reached) awaits.size
    exact (generated.spares.node id inside unreached).trans (others other member id reached)

/-- Functions are generated one after the other, and those after them still wait. -/
theorem Awaits.forM (awaits : before.Awaits job program earlier (functions ++ later))
    (listed : program.functions = earlier ++ (functions ++ later))
    (done : functions.forM (Generator.generateFunction job) before = .ok () after) :
    after.Awaits job program (earlier ++ functions) later := by
  induction functions generalizing earlier before with
  | nil =>
    cases done
    rw [append_nil]
    exact awaits
  | cons function functions ih =>
    obtain ⟨_, middle, first, rest⟩ := bind_eq_ok.mp done
    have next := awaits.generateFunction writes grounded apart listed first
    have further := ih next (by rw [listed, append_assoc]; rfl) rest
    rw [append_assoc] at further
    exact further

end

theorem start_awaits (language : job.options.language = .c) (program : Program) :
    (job.start program.graph).Awaits job program [] program.functions where
  rests := by
    refine ⟨?_, rfl⟩
    obtain ⟨headers, libraries, comments, same⟩ := job.start_document program.graph
    rw [same, language]
    exact (Document.create_rests _).modifyRoot (fun _ => rfl) (fun _ => rfl) (fun _ => rfl)
      fun _ => rfl
  size := Nat.le_refl _
  bodies _ _ _ _ := rfl

end Generator

/-- Nodes that carry a table are tables. -/
theorem Node.Made.operation_of_table {value statement : NodeId → Prop} {node : Node}
    (made : node.Made value statement) {values : List Scalar}
    (carried : node.payload = .table values) : node.operation = .table := by
  cases made with
  | table => rfl
  | _ => cases carried

namespace Program

variable {program : Program}

section

variable (formed : Source.FunctionsFormed program) (tableless : program.Tableless)

include formed tableless

theorem grounded_of_formed {function : Function} (known : function ∈ program.functions) :
    function.Grounded program.graph := by
  have inside (id : NodeId) (reached : program.graph.Reaches function.body id) :
      id < program.graph.size :=
    Nat.lt_of_le_of_lt (formed.graph.le_of_reaches reached) (formed.bodies function known).2.1
  refine ⟨inside, fun id reached values carried => tableless function known id reached ?_⟩
  exact (formed.graph id (inside id reached)).operation_of_table carried

theorem awaits_of_formed {job : Job} (writes : job.WritesC) {earlier later : List Function}
    (listed : program.functions = earlier ++ later) {before : Generator}
    (reached : earlier.forM (Generator.generateFunction job) (job.start program.graph) =
      .ok () before) : before.Awaits job program earlier later := by
  have start := Generator.start_awaits writes.language program
  rw [listed] at start
  exact start.forM writes (fun _ known => grounded_of_formed formed tableless known)
    (formed.apart.imp fun apart => apart.disjoint formed.graph) listed reached

end

theorem writesC_of_planned {name : String} {target : Target} {options : Options} {job : Job}
    (found : Catalog.builtin.target name = .ok target) (planned : target.job options = .ok job)
    (language : options.language = .c) (standard : options.sharing.Standard) : job.WritesC := by
  obtain ⟨book, known, rfl⟩ := Target.job_eq_ok.mp planned
  have tame := Catalog.builtin_tame found options.language book known
  rw [language] at known
  exact ⟨language, Catalog.builtin_extendsPortable found known, tame, standard⟩

/-- Two programs are read that have functions with the same names before a function that is the same
in both, and no function reaches a table. For a target that comes with the library and options that
share what is usual, that function adds the same text to the C files of both, wherever all these
functions are generated. -/
theorem generate_of_predecessors {text text' name : String} {program program' : Program}
    {target : Target} {options : Options} {job : Job} (read : Source.read text = .ok program)
    (read' : Source.read text' = .ok program') (found : Catalog.builtin.target name = .ok target)
    (planned : target.job options = .ok job) (language : options.language = .c)
    (categories : options.sharing.sharedCategories = [.constant, .table, .function])
    (constants : options.sharing.staticConstants = false) (tableless : program.Tableless)
    (tableless' : program'.Tableless) {earlier earlier' later later' : List Function}
    {function function' : Function} (listed : program.functions = earlier ++ function :: later)
    (listed' : program'.functions = earlier' ++ function' :: later')
    (names : earlier.map Function.name = earlier'.map Function.name)
    (same : function.Resembles program.graph program'.graph function')
    {before before' after after' : Generator}
    (reached : earlier.forM (Generator.generateFunction job) (job.start program.graph) =
      .ok () before)
    (reached' : earlier'.forM (Generator.generateFunction job) (job.start program'.graph) =
      .ok () before')
    (done : Generator.generateFunction job function before = .ok () after)
    (done' : Generator.generateFunction job function' before' = .ok () after') :
    ∃ code, after.document.root.text = before.document.root.text ++ code ∧
      after'.document.root.text = before'.document.root.text ++ code := by
  have writes := writesC_of_planned found planned language ⟨categories, constants⟩
  have formed := Source.read_formed text program read
  have formed' := Source.read_formed text' program' read'
  have known : function ∈ program.functions := by
    rw [listed]
    exact mem_append_cons_self
  have known' : function' ∈ program'.functions := by
    rw [listed']
    exact mem_append_cons_self
  have awaits := awaits_of_formed formed tableless writes listed reached
  have awaits' := awaits_of_formed formed' tableless' writes listed' reached'
  have rests' := awaits'.rests
  rw [← names] at rests'
  have body := awaits.bodies function mem_cons_self
  have body' := awaits'.bodies function' mem_cons_self
  have grounded := body.grounded awaits.size (grounded_of_formed formed tableless known)
  have grounded' := body'.grounded awaits'.size (grounded_of_formed formed' tableless' known')
  exact (Generator.generateFunction_together writes awaits.rests rests' (same.mono body body')
    grounded grounded' _ _ _ _ done done').1

/-- A function that squares the lesser of two values, with its nodes from some place on. -/
def lesserSquared (place : NodeId) : Function where
  name := "g"
  arguments := [{ name := "y", format := .binary32, node := place },
    { name := "z", format := .binary32, node := place + 1 }]
  result := .binary32
  body := place + 4

/-- The text of that function. -/
def lesserSquaredText : String :=
  "func g(y: binary32, z: binary32) -> binary32 \x7b\n%m = min %y, %z : binary32\n" ++
    "%s = mul %m, %m : binary32\nreturn %s\n\x7d"

/-- The function after one that adds. -/
def afterSumText : String :=
  "func f(x: binary32) -> binary32 \x7b\n%a = add %x, %x : binary32\nreturn %a\n\x7d\n" ++
    lesserSquaredText

/-- The program of that text. -/
def afterSum : Program where
  graph :=
    ⟨#[{ operation := .variable, format := .binary32, payload := .variable "x" },
      { operation := .addition, operands := [0, 0], format := .binary32 },
      { operation := .ret, operands := [1], format := .void },
      { operation := .variable, format := .binary32, payload := .variable "y" },
      { operation := .variable, format := .binary32, payload := .variable "z" },
      { operation := .minimum, operands := [3, 4], format := .binary32 },
      { operation := .multiplication, operands := [5, 5], format := .binary32 },
      { operation := .ret, operands := [6], format := .void }]⟩
  functions :=
    [{ name := "f", arguments := [{ name := "x", format := .binary32, node := 0 }]
       result := .binary32, body := 2 }, lesserSquared 3]

/-- The function after one that branches on a value whose name temporaries have too. -/
def afterBranchText : String :=
  "func f(tmp: bool) -> bool \x7b\nif %tmp \x7b\nreturn %tmp\n\x7d\nreturn %tmp\n\x7d\n" ++
    lesserSquaredText

/-- The program of that text. -/
def afterBranch : Program where
  graph :=
    ⟨#[{ operation := .variable, format := .bool, payload := .variable "tmp" },
      { operation := .ret, operands := [0], format := .void },
      { operation := .condition, operands := [0, 1], format := .void },
      { operation := .ret, operands := [0], format := .void },
      { operation := .sequence, operands := [2, 3], format := .void },
      { operation := .variable, format := .binary32, payload := .variable "y" },
      { operation := .variable, format := .binary32, payload := .variable "z" },
      { operation := .minimum, operands := [5, 6], format := .binary32 },
      { operation := .multiplication, operands := [7, 7], format := .binary32 },
      { operation := .ret, operands := [8], format := .void }]⟩
  functions :=
    [{ name := "f", arguments := [{ name := "tmp", format := .bool, node := 0 }]
       result := .bool, body := 4 }, lesserSquared 5]

theorem lesserSquared_resembles :
    (lesserSquared 3).Resembles afterSum.graph afterBranch.graph (lesserSquared 5) := by
  refine ⟨rfl, rfl, rfl, fun id partner => 3 ≤ id ∧ id ≤ 7 ∧ partner = id + 2,
    ⟨by decide, by decide, rfl⟩, ?_, ?_⟩
  · rintro id _ ⟨low, high, rfl⟩
    interval_cases id <;>
      exact ⟨rfl, rfl, rfl, rfl, rfl, by simp [afterSum, afterBranch, Graph.node, Graph.node?]⟩
  · rintro first _ second _ ⟨_, _, rfl⟩ ⟨_, _, rfl⟩
    exact Nat.add_lt_add_iff_right.symm

theorem tableless_of_nodes
    (nodes : (program.graph.nodes.toList.all fun node => node.operation ≠ .table) = true) :
    program.Tableless := by
  intro function _ id _
  by_cases inside : id < program.graph.size
  · have member : program.graph.node id ∈ program.graph.nodes.toList := by
      rw [Graph.node, Graph.node?, Array.getElem?_eq_getElem inside, Option.getD_some]
      exact Array.getElem_mem_toList inside
    exact of_decide_eq_true (all_eq_true.mp nodes _ member)
  · rw [Graph.node_of_size_le (Nat.le_of_not_lt inside)]
    decide

/-- The job of writing C for any processor. -/
def portableJob : Job := ⟨Portable.target, Portable.book, {}⟩

/-- A program is run up to some function. -/
def runUpTo (program : Program) (count : Nat) : EStateM.Result Fault Generator Unit :=
  (program.functions.take count).forM (Generator.generateFunction portableJob)
    (portableJob.start program.graph)

theorem eq_ok_finalState {ε σ : Type} (result : EStateM.Result ε σ Unit)
    (ran : (match result with
      | .ok _ _ => true
      | .error _ _ => false) = true) : result = .ok () (finalState result) := by
  cases result with
  | ok => rfl
  | error => cases ran

/-- The function is generated after two others of one name, which leave different files and places
behind. -/
theorem generate_of_predecessors_lesserSquared :
    ∃ before before' after after',
      Source.read afterSumText = .ok afterSum ∧ Source.read afterBranchText = .ok afterBranch ∧
      afterSum.runUpTo 1 = .ok () before ∧ afterBranch.runUpTo 1 = .ok () before' ∧
      Generator.generateFunction portableJob (lesserSquared 3) before = .ok () after ∧
      Generator.generateFunction portableJob (lesserSquared 5) before' = .ok () after' ∧
      before.document.root.text ≠ before'.document.root.text ∧
      ∃ code, after.document.root.text = before.document.root.text ++ code ∧
        after'.document.root.text = before'.document.root.text ++ code := by
  have read : Source.read afterSumText = .ok afterSum := by decide +kernel
  have read' : Source.read afterBranchText = .ok afterBranch := by decide +kernel
  have found : Catalog.builtin.target "generic" = .ok Portable.target := rfl
  have planned : Portable.target.job {} = .ok portableJob := rfl
  have reached := eq_ok_finalState (afterSum.runUpTo 1) (by decide +kernel)
  have reached' := eq_ok_finalState (afterBranch.runUpTo 1) (by decide +kernel)
  have done := eq_ok_finalState (Generator.generateFunction portableJob (lesserSquared 3)
    (finalState (afterSum.runUpTo 1))) (by decide +kernel)
  have done' := eq_ok_finalState (Generator.generateFunction portableJob (lesserSquared 5)
    (finalState (afterBranch.runUpTo 1))) (by decide +kernel)
  have tableless : afterSum.Tableless := tableless_of_nodes (by decide +kernel)
  have tableless' : afterBranch.Tableless := tableless_of_nodes (by decide +kernel)
  refine ⟨_, _, _, _, read, read', reached, reached', done, done', by decide +kernel, ?_⟩
  exact @generate_of_predecessors afterSumText afterBranchText "generic" afterSum afterBranch
    Portable.target {} portableJob read read' found planned rfl rfl rfl tableless tableless'
    (afterSum.functions.take 1) (afterBranch.functions.take 1) [] [] (lesserSquared 3)
    (lesserSquared 5) rfl rfl rfl lesserSquared_resembles _ _ _ _ reached reached' done done'

end Program

end Retarget
