import Mathlib
import Retarget.Source.Reader

/-!
# What a line adds

Whatever a line says, it does one of seven things to the reader (`Reader.Reads`): it begins a
function and adds its arguments, it adds a value and names it, it adds a result, it opens a
conditional, goes to its second branch or completes it, or it completes a function. What these seven
keep holds of every program that is read (`read_induction`).
-/

namespace Retarget

open List

variable {value statement : NodeId → Prop} {node : Node}

/-- What a result satisfies where there is one. -/
def Yields {ε α : Type} (result : Except ε α) (post : α → Prop) : Prop :=
  ∀ value, result = .ok value → post value

namespace Yields

variable {ε α β : Type} {post : β → Prop}

theorem pure {value : β} (held : post value) : Yields (Pure.pure value : Except ε β) post := by
  intro other same
  cases same
  exact held

theorem error {fault : ε} : Yields (.error fault : Except ε β) post := by
  intro _ impossible
  cases impossible

theorem bind {middle : α → Prop} {result : Except ε α} {next : α → Except ε β}
    (first : Yields result middle) (rest : ∀ value, middle value → Yields (next value) post) :
    Yields (result >>= next) post := by
  intro value done
  cases outcome : result with
  | error fault =>
    rw [outcome] at done
    cases done
  | ok found =>
    rw [outcome] at done
    exact rest found (first found outcome) value done

/-- A result of which nothing is used but that there is one. -/
theorem skip {result : Except ε α} {next : α → Except ε β}
    (rest : ∀ value, Yields (next value) post) : Yields (result >>= next) post :=
  have any : Yields result fun _ => True := fun _ _ => trivial
  any.bind fun value _ => rest value

theorem error_bind {fault : ε} {next : α → Except ε β} :
    Yields (Except.error fault >>= next) post :=
  error

/-- Each result is one of its value. -/
theorem mapM {values : List α} {each : α → Except ε β}
    (holds : ∀ value, Yields (each value) post) :
    Yields (values.mapM each) fun results =>
      results.length = values.length ∧ ∀ result ∈ results, post result := by
  induction values with
  | nil => exact pure ⟨rfl, forall_mem_nil _⟩
  | cons value rest ih =>
    rw [mapM_cons]
    refine bind (holds value) fun first held => bind ih fun others known => pure ⟨?_, ?_⟩
    · exact congrArg Nat.succ known.1
    · exact forall_mem_cons.mpr ⟨held, known.2⟩

theorem foldlM {step : β → α → Except ε β} {values : List α} {start : β} (held : post start)
    (keeps : ∀ state value, post state → Yields (step state value) post) :
    Yields (values.foldlM step start) post := by
  induction values generalizing start with
  | nil => exact pure held
  | cons value rest ih =>
    rw [foldlM_cons]
    exact bind (keeps start value held) fun _ kept => ih kept

end Yields

theorem Text.splitAt_ne_nil (mark : Char) (text : List Char) : Text.splitAt mark text ≠ [] := by
  cases text with
  | nil => simp [splitAt]
  | cons c rest =>
    unfold splitAt
    rw [foldr_cons]
    split
    · simp
    · split <;> simp

/-- A node that a line adds, over nodes that are values and statements. -/
inductive Node.Made (value statement : NodeId → Prop) : Node → Prop where
  | constant (scalar : Scalar) (format : Format) (tag : Option String) :
      Made value statement { operation := .constant, format, tag, payload := .constant scalar }
  | «variable» (name : String) (format : Format) (tag : Option String) :
      Made value statement { operation := .variable, format, tag, payload := .variable name }
  | table {entries : List Scalar} (some : entries ≠ []) (storage : Format)
      (tag : Option String) :
      Made value statement
        { operation := .table, format := .table storage entries.length, tag
          payload := .table entries }
  | computed {operation : Operation} {operands : List NodeId} (role : operation.role = .value)
      (values : ∀ operand ∈ operands, value operand)
      (arity : ∀ count, operation.arity? = some count → operands.length = count)
      (specifier : Specifier) (format : Format) (tag : Option String) :
      Made value statement { operation, specifier, operands, format, tag }
  | result {operand : NodeId} (isValue : value operand) :
      Made value statement { operation := .ret, operands := [operand], format := .void }
  | condition {operand : NodeId} {sides : List NodeId} (isValue : value operand)
      (few : sides.length = 1 ∨ sides.length = 2) (parts : ∀ side ∈ sides, statement side) :
      Made value statement { operation := .condition, operands := operand :: sides, format := .void }
  | sequence {parts : List NodeId} (notOne : parts.length ≠ 1)
      (all : ∀ part ∈ parts, statement part) :
      Made value statement { operation := .sequence, operands := parts, format := .void }

section

variable (made : node.Made value statement)

include made

theorem Node.Made.mono {value' statement' : NodeId → Prop} (values : ∀ id, value id → value' id)
    (statements : ∀ id, statement id → statement' id) : node.Made value' statement' := by
  cases made with
  | constant scalar format tag => exact .constant scalar format tag
  | «variable» name format tag => exact .variable name format tag
  | table some storage tag => exact .table some storage tag
  | computed role known arity specifier format tag =>
    exact .computed role (fun id member => values id (known id member)) arity specifier format tag
  | result isValue => exact .result (values _ isValue)
  | condition isValue few parts =>
    exact .condition (values _ isValue) few fun id member => statements id (parts id member)
  | sequence notOne all => exact .sequence notOne fun id member => statements id (all id member)

theorem Node.Made.of_operand {operand : NodeId} (uses : operand ∈ node.operands) :
    value operand ∨ statement operand := by
  cases made with
  | constant => cases uses
  | «variable» => cases uses
  | table => cases uses
  | computed _ known _ _ _ _ => exact .inl (known operand uses)
  | result isValue =>
    rw [mem_singleton.mp uses]
    exact .inl isValue
  | condition isValue _ parts =>
    rcases mem_cons.mp uses with rfl | side
    · exact .inl isValue
    · exact .inr (parts operand side)
  | sequence _ all => exact .inr (all operand uses)

theorem Node.Made.tagged (role : node.operation.role ≠ .statement) (tag : Option String) :
    Node.Made value statement { node with tag } := by
  cases made with
  | constant scalar format _ => exact .constant scalar format tag
  | «variable» name format _ => exact .variable name format tag
  | table some storage _ => exact .table some storage tag
  | computed kind known arity specifier format _ =>
    exact .computed kind known arity specifier format tag
  | result => exact absurd rfl role
  | condition => exact absurd rfl role
  | sequence => exact absurd rfl role

end

theorem Graph.setTag_add (graph : Graph) (node : Node) (tag : String) :
    (graph.add node).1.setTag graph.size tag = (graph.add { node with tag := some tag }).1 := by
  unfold setTag modify add size
  congr 1
  apply Array.ext
  · simp
  · intro place inside _
    simp only [Array.size_modify, Array.size_push] at inside
    simp only [Array.getElem_modify, Array.getElem_push]
    split
    · rename_i last
      subst last
      simp
    · split
      · rfl
      · omega

namespace Source

/-- Some name stands for the node. -/
def Named (values : OrderedMap String NodeId) (id : NodeId) : Prop :=
  ∃ name, values.get? name = some id

/-- The arguments of a function are added in turn. -/
inductive AddsArguments : Graph → List Argument → Graph → Prop where
  | nil (graph : Graph) : AddsArguments graph [] graph
  | cons {graph larger : Graph} {rest : List Argument} (name : String) (format : Format)
      (range : Option (Number.Double × Number.Double))
      (added : AddsArguments (graph.addVariable name format).1 rest larger) :
      AddsArguments graph ({ name, format, node := graph.size, range } :: rest) larger

/-- What one line does to the reader. -/
inductive Reader.Reads (reader : Reader) : Reader → Prop where
  | begun {arguments : List Argument} {larger : Graph} (idle : reader.current = none)
      (added : AddsArguments reader.program.graph arguments larger) (line : Nat) (name : String)
      (result : Format) :
      Reads reader
        { program := { reader.program with graph := larger }
          current := some
            { line, name, arguments, result
              values :=
                arguments.foldl (fun values a => values.insert a.name a.node) OrderedMap.empty
              statements := [], conditions := [] } }
  | assigned {function : OpenFunction} {node : Node} {name : String}
      (current : reader.current = some function)
      (made : node.Made (Named function.values) fun _ => False)
      (role : node.operation.role ≠ .statement) :
      Reads reader
        { program := { reader.program with graph := (reader.program.graph.add node).1 }
          current := some
            { function with
              values := function.values.insert name reader.program.graph.size } }
  | returned {function : OpenFunction} {value : NodeId} (current : reader.current = some function)
      (known : Named function.values value) :
      Reads reader
        { program :=
            { reader.program with
              graph := (reader.program.graph.addOperation .ret .plain [value] .void).1 }
          current := some
            { function with
              statements := reader.program.graph.size :: function.statements } }
  | opened {function : OpenFunction} {value : NodeId} (current : reader.current = some function)
      (known : Named function.values value) (line : Nat) :
      Reads reader
        { reader with
          current := some
            { function with
              statements := []
              conditions :=
                { line, condition := value, thenBranch := none
                  before := function.statements } :: function.conditions } }
  | switched {function : OpenFunction} {condition : OpenCondition}
      {conditions : List OpenCondition} {larger : Graph} {block : NodeId}
      (current : reader.current = some function)
      (listed : function.conditions = condition :: conditions)
      (first : condition.thenBranch = none)
      (ended : sequence reader.program.graph function.statements = (larger, block)) :
      Reads reader
        { program := { reader.program with graph := larger }
          current := some
            { function with
              statements := []
              conditions := { condition with thenBranch := some block } :: conditions } }
  | joined {function : OpenFunction} {condition : OpenCondition}
      {conditions : List OpenCondition} {larger : Graph} {block : NodeId}
      (current : reader.current = some function)
      (listed : function.conditions = condition :: conditions)
      (ended : sequence reader.program.graph function.statements = (larger, block)) :
      Reads reader
        { program :=
            { reader.program with
              graph := (larger.addOperation .condition .plain
                (condition.condition :: (condition.thenBranch.toList ++ [block])) .void).1 }
          current := some
            { function with statements := larger.size :: condition.before, conditions } }
  | finished {function : OpenFunction} {larger : Graph} {block : NodeId}
      (current : reader.current = some function) (outermost : function.conditions = [])
      (ended : sequence reader.program.graph function.statements = (larger, block)) :
      Reads reader
        { program :=
            { graph := larger
              functions := reader.program.functions ++
                [{ name := function.name, arguments := function.arguments,
                   result := function.result, body := block }] }
          current := none }

variable {graph : Graph} {values : OrderedMap String NodeId}

theorem lookup_named (values : OrderedMap String NodeId) (line : Nat) (text : List Char) :
    Yields (lookup values line text) (Named values) := by
  unfold lookup
  split
  · split
    · rename_i found
      exact .pure ⟨_, found⟩
    · exact .error
  · exact .error

/-! ## Arguments -/

theorem readArgument_adds (line : Nat) (graph : Graph) (text : List Char) :
    Yields (readArgument line graph text) fun read =>
      ∃ name format range, read = ((graph.addVariable name format).1,
        { name, format, node := graph.size, range }) := by
  unfold readArgument
  dsimp only
  cases Text.cutFirst? (· = ':') text with
  | none => exact .error_bind
  | some parts =>
    refine .skip fun _ => ?_
    split
    · exact .skip fun _ => .skip fun _ => .skip fun _ => .pure ⟨_, _, _, rfl⟩
    · exact .skip fun _ => .skip fun _ => .pure ⟨_, _, _, rfl⟩

theorem readArguments_adds (line : Nat) (graph : Graph) (texts : List (List Char)) :
    Yields (readArguments line graph texts) fun read => AddsArguments graph read.2 read.1 := by
  induction texts generalizing graph with
  | nil => exact .pure (.nil graph)
  | cons text rest ih =>
    refine .bind (readArgument_adds line graph text) ?_
    rintro _ ⟨name, format, range, rfl⟩
    refine .bind (ih (graph.addVariable name format).1) fun others later => ?_
    exact .pure (.cons name format range later)

/-! ## Assignments -/

/-- A node that is made of named values is added. -/
def AddsValue (graph : Graph) (values : OrderedMap String NodeId) (read : Graph × NodeId) : Prop :=
  ∃ node : Node, node.Made (Named values) (fun _ => False) ∧
    node.operation.role ≠ .statement ∧ read = graph.add node

theorem lookups_named (values : OrderedMap String NodeId) (line : Nat) (texts : List Char)
    {next : List NodeId → Except Fault (Graph × NodeId)} {post : Graph × NodeId → Prop}
    (rest : ∀ operands, (∀ operand ∈ operands, Named values operand) →
      Yields (next operands) post) :
    Yields
      (if texts.isEmpty then Pure.pure [] >>= next
      else ((Text.splitAt ',' texts).mapM fun text => lookup values line (Text.trim text)) >>= next)
      post := by
  split
  · exact rest [] (forall_mem_nil _)
  · refine .bind (.mapM fun text => lookup_named values line _) ?_
    exact fun operands known => rest operands known.2

theorem computed_adds {operation : Operation} (role : operation.role = .value)
    {values : OrderedMap String NodeId} {operands : List NodeId}
    (known : ∀ operand ∈ operands, Named values operand) (line : Nat) (graph : Graph)
    (specifier : Specifier) (format : Format) :
    Yields
      (match operation.arity? with
      | some arity =>
        if operands.length = arity then
          Pure.pure (graph.addOperation operation specifier operands format)
        else refuse line (.wrongArity operation arity operands.length)
      | none => Pure.pure (graph.addOperation operation specifier operands format))
      (AddsValue graph values) := by
  have computes (arity : ∀ count, operation.arity? = some count → operands.length = count) :
      AddsValue graph values (graph.addOperation operation specifier operands format) :=
    ⟨_, .computed role known arity specifier format none, by rw [role]; decide, rfl⟩
  split
  · rename_i arity fixed
    split
    · rename_i right
      refine .pure (computes fun count same => ?_)
      rw [fixed] at same
      exact right.trans (Option.some.inj same)
    · exact .error
  · rename_i free
    refine .pure (computes fun count same => ?_)
    rw [free] at same
    cases same

theorem readOperation_adds (line : Nat) (values : OrderedMap String NodeId) (graph : Graph)
    (word arguments : List Char) (format : Format) :
    Yields (readOperation line values graph word arguments format) (AddsValue graph values) := by
  have finish {operation : Operation} (role : operation.role = .value) (specifier : Specifier)
      (operands : List NodeId) (known : ∀ operand ∈ operands, Named values operand) :=
    computed_adds role known line graph specifier format
  unfold readOperation
  dsimp only
  split
  · rename_i operation found
    have chosen : Yields (Pure.pure operation : Except Fault Operation) (·.role = .value) :=
      .pure (of_decide_eq_true (Option.filter_eq_some_iff.mp found).2)
    refine chosen.bind fun operation role => ?_
    split
    · exact .skip fun specifier => lookups_named values line arguments (finish role specifier)
    · split
      · exact .skip fun specifier => lookups_named values line arguments (finish role specifier)
      · exact .error_bind
  · exact .error_bind

theorem readExpression_adds (line : Nat) (values : OrderedMap String NodeId) (graph : Graph)
    (text : List Char) (format : Format) :
    Yields (readExpression line values graph text format) (AddsValue graph values) := by
  unfold readExpression
  split
  split
  · exact .skip fun value => .pure ⟨_, .constant value format none, nofun, rfl⟩
  split
  · split
    · exact .error
    · rename_i inner _
      have any (text : List Char) : Yields (scalar line format text) fun _ => True :=
        fun _ _ => trivial
      refine .bind (.mapM any) fun entries known => ?_
      have some : entries ≠ [] := by
        intro empty
        rw [empty] at known
        exact Text.splitAt_ne_nil ',' inner (eq_nil_of_length_eq_zero known.1.symm)
      exact .pure ⟨_, .table some format none, nofun, rfl⟩
  · exact readOperation_adds line values graph _ _ format

/-- A named node that is made of named values is added. -/
def AddsName (graph : Graph) (values : OrderedMap String NodeId)
    (read : Graph × OrderedMap String NodeId) : Prop :=
  ∃ (node : Node) (name : String), node.Made (Named values) (fun _ => False) ∧
    node.operation.role ≠ .statement ∧ read = ((graph.add node).1, values.insert name graph.size)

theorem readAssignment_adds (line : Nat) (values : OrderedMap String NodeId) (graph : Graph)
    (text : List Char) :
    Yields (readAssignment line values graph text) (AddsName graph values) := by
  unfold readAssignment
  dsimp only
  split
  · refine .skip fun _ => ?_
    split
    · refine .skip fun name => ?_
      split
      · exact .error
      · split
        · refine .skip fun _ => .skip fun format => ?_
          refine .bind (readExpression_adds line values graph _ format) ?_
          rintro _ ⟨node, made, role, rfl⟩
          refine .pure ?_
          split
          · rename_i tag _
            refine ⟨{ node with tag := some tag }, name, made.tagged role (some tag), role, ?_⟩
            exact congrArg (·, values.insert name graph.size) (Graph.setTag_add graph node tag)
          · exact ⟨node, name, made, role, rfl⟩
        · exact .error_bind
    · exact .error_bind
  · exact .error_bind

/-! ## Lines -/

namespace Reader

variable {reader : Reader} {function : OpenFunction}

theorem readHeader_reads (idle : reader.current = none) (line : Nat) (header : List Char) :
    Yields (readHeader line reader.program.graph header) fun read =>
      Reads reader
        { program := { reader.program with graph := read.1 }, current := some read.2 } := by
  unfold readHeader
  dsimp only
  split
  · refine .skip fun _ => ?_
    split
    · refine .skip fun _ => ?_
      split
      · exact .error
      split
      · refine .skip fun _ => .skip fun result => ?_
        refine .bind (readArguments_adds line reader.program.graph _) fun read added => ?_
        exact .pure (.begun idle added line _ result)
      · exact .error_bind
    · exact .error_bind
  · exact .error_bind

section

variable (current : reader.current = some function)

include current

theorem closeBlock_reads : Reads reader (reader.closeBlock function) := by
  unfold closeBlock
  dsimp only
  split
  · rename_i outermost
    exact .finished current outermost rfl
  · rename_i condition conditions listed
    have joined := Reads.joined current listed rfl
    cases first : condition.thenBranch with
    | none =>
      rw [first] at joined
      exact joined
    | some branch =>
      rw [first] at joined
      exact joined

theorem switchBranch_reads : Yields (reader.switchBranch function) (Reads reader) := by
  unfold switchBranch
  split
  · exact .error
  rename_i condition conditions listed
  split
  · exact .error
  · rename_i first
    exact .pure (.switched current listed first rfl)

theorem openCondition_reads (line : Nat) (text : List Char) :
    Yields (reader.openCondition function line text) (Reads reader) := by
  unfold openCondition
  split
  · exact .error
  · refine .bind (lookup_named function.values line _) fun value known => ?_
    exact .pure (.opened current known line)

theorem readStatement_reads (line : Line) :
    Yields (reader.readStatement function line) (Reads reader) := by
  unfold readStatement
  split
  · exact .pure (closeBlock_reads current)
  split
  · exact switchBranch_reads current
  split
  · refine .bind (lookup_named function.values line.number _) fun value known => ?_
    exact .pure (.returned current known)
  split
  · exact openCondition_reads current line.number _
  split
  · refine .bind (readAssignment_adds line.number function.values reader.program.graph _) ?_
    rintro _ ⟨node, name, made, role, rfl⟩
    exact .pure (.assigned current made role)
  · exact .error

end

/-- Whatever a line says, it does one of the seven things. -/
theorem readLine_reads (reader : Reader) (line : Line) :
    Yields (reader.readLine line) (Reads reader) := by
  unfold readLine
  split
  · rename_i function current
    exact readStatement_reads current line
  · rename_i idle
    split
    · exact .error
    · exact .bind (readHeader_reads idle line.number _) fun _ reads => .pure reads

end Reader

/-- What holds at the start and is kept by every line holds of every program that is read, with
nothing left open. -/
theorem read_induction {holds : Reader → Prop} (start : holds {})
    (step : ∀ reader next, holds reader → reader.Reads next → holds next) (text : String) :
    Yields (read text) fun program => holds { program, current := none } := by
  have keeps (reader : Reader) (line : Line) (held : holds reader) :
      Yields (reader.readLine line) holds := by
    intro next done
    exact step reader next held (Reader.readLine_reads reader line next done)
  refine .bind (.foldlM start keeps) fun reader held => ?_
  split
  · rename_i idle
    rw [← idle]
    exact .pure held
  · exact .error

end Source

end Retarget
