import Retarget.Source.Reader

/-!
# Programs as trees

A program is written as a list of definitions, each with a tree of assignments, results and
conditionals for its body. This file has the text of such a tree, line by line (`Definition.lines`),
the ways in which lines may be laid out (`Layout`), when a tree makes sense (`Definition.Valid`), and
the program that it stands for, whose nodes are added in the order of the text (`build?`).
-/

namespace Retarget

/-- The formats that have a name that can be read. -/
def Format.Readable (format : Format) : Prop :=
  ∃ text, Format.read? text = some format

namespace Source

/-- A value written out. -/
inductive Literal where
  | number (value : Int64)
  | truth (value : Bool)
deriving DecidableEq, Repr

/-- The right side of an assignment. Operands are given by their names. -/
inductive Expression where
  | constant (value : Literal)
  | table (entries : List Literal)
  | compute (operation : Operation) (specifier : Option Specifier) (operands : List String)
deriving DecidableEq, Repr

/-- An assignment to a new name. -/
structure Assignment where
  name : String
  expression : Expression
  format : Format
  tag : Option String := none
deriving DecidableEq, Repr

/-- The statements of a block in turn. Each constructor but the first puts one in front. -/
inductive Block where
  | done
  | assign (assignment : Assignment) (rest : Block)
  | result (value : String) (rest : Block)
  /-- A conditional with one branch. -/
  | branch (condition : String) (body rest : Block)
  /-- A conditional with two branches. -/
  | choice (condition : String) (first second rest : Block)
deriving DecidableEq, Repr

/-- The definition of a function. -/
structure Definition where
  name : String
  parameters : List (String × Format)
  result : Format
  body : Block
deriving DecidableEq, Repr

/-! ## Text -/

/-- Parts with a comma and a space between them. -/
def listed (parts : List (List Char)) : List Char :=
  ", ".toList.intercalate parts

/-- A value by its name. -/
def valueText (name : String) : List Char :=
  '%' :: name.toList

namespace Literal

/-- The value of a literal. -/
def scalar : Literal → Scalar
  | .number value => .int value
  | .truth value => .bool value

/-- The decimal digits of a number, or the word for a truth value. -/
def text : Literal → List Char
  | .number value => value.toInt.repr.toList
  | .truth value => (if value then "true" else "false").toList

end Literal

/-- A constant. -/
def constantText (value : Literal) : List Char :=
  "const ".toList ++ value.text

/-- A table with its entries in square brackets. -/
def tableText (entries : List Literal) : List Char :=
  "table [".toList ++ listed (entries.map Literal.text) ++ "]".toList

/-- The name of an operation, with its specifier. -/
def operationWord (operation : Operation) (specifier : Option Specifier) : List Char :=
  operation.name.toList ++ specifier.elim [] fun specifier => '.' :: specifier.name.toList

/-- An operation and its operands. -/
def operationText (operation : Operation) (specifier : Option Specifier) (operands : List String) :
    List Char :=
  operationWord operation specifier ++
    if operands = [] then [] else ' ' :: listed (operands.map valueText)

/-- The right side of an assignment. -/
def Expression.text : Expression → List Char
  | .constant value => constantText value
  | .table entries => tableText entries
  | .compute operation specifier operands => operationText operation specifier operands

/-- The line of an assignment. -/
def Assignment.line (assignment : Assignment) : List Char :=
  valueText assignment.name ++ " = ".toList ++ assignment.expression.text ++ " : ".toList ++
    assignment.format.name.toList ++ assignment.tag.elim [] fun tag => " @".toList ++ tag.toList

/-- The line of a result. -/
def resultLine (value : String) : List Char :=
  "return ".toList ++ valueText value

/-- The first line of a conditional. -/
def conditionLine (condition : String) : List Char :=
  "if ".toList ++ valueText condition ++ " \x7b".toList

/-- The lines of a block. -/
def Block.lines : Block → List (List Char)
  | .done => []
  | .assign assignment rest => assignment.line :: rest.lines
  | .result value rest => resultLine value :: rest.lines
  | .branch condition body rest =>
    conditionLine condition :: body.lines ++ "\x7d".toList :: rest.lines
  | .choice condition first second rest =>
    conditionLine condition :: first.lines ++ "\x7d else \x7b".toList :: second.lines ++
      "\x7d".toList :: rest.lines

/-- A parameter and its format. -/
def parameterText (parameter : String × Format) : List Char :=
  parameter.1.toList ++ ": ".toList ++ parameter.2.name.toList

/-- The first line of a definition. -/
def Definition.header (definition : Definition) : List Char :=
  "func ".toList ++ definition.name.toList ++ "(".toList ++
    listed (definition.parameters.map parameterText) ++ ") -> ".toList ++
    definition.result.name.toList ++ " \x7b".toList

/-- The lines of a definition. -/
def Definition.lines (definition : Definition) : List (List Char) :=
  definition.header :: definition.body.lines ++ ["\x7d".toList]

/-! ## Layout -/

/-- White space within a line. -/
def IsMargin (text : List Char) : Prop :=
  ∀ c ∈ text, Text.isBlank c = true ∧ c ≠ '\n'

/-- A comment, or nothing. -/
def IsRemark (text : List Char) : Prop :=
  text = [] ∨ ∃ words, text = ';' :: words ∧ '\n' ∉ words

/-- Lines of content are shown by raw lines. White space may stand around the content, a comment may
follow it, and lines without content may stand anywhere. -/
inductive Shows : List (List Char) → List (List Char) → Prop where
  | nil : Shows [] []
  | skip {raws contents : List (List Char)} {margin remark : List Char} (blank : IsMargin margin)
      (comment : IsRemark remark) (later : Shows raws contents) :
      Shows ((margin ++ remark) :: raws) contents
  | line {raws contents : List (List Char)} {left right remark : List Char} (content : List Char)
      (before : IsMargin left) (after : IsMargin right) (comment : IsRemark remark)
      (later : Shows raws contents) :
      Shows ((left ++ content ++ right ++ remark) :: raws) (content :: contents)

/-- A text whose lines show the given ones. -/
def Layout (contents : List (List Char)) (text : String) : Prop :=
  ∃ raws, raws ≠ [] ∧ Shows raws contents ∧ text.toList = ['\n'].intercalate raws

/-! ## Sense -/

/-- The characters of names: all but white space and the marks that divide a line. -/
def isNameCharacter (c : Char) : Bool :=
  !Text.isBlank c && !";,:=@()[]".toList.contains c

/-- A name is not empty. -/
def IsName (name : String) : Prop :=
  name ≠ "" ∧ ∀ c ∈ name.toList, isNameCharacter c = true

/-- Numbers are for formats of whole numbers, and truth values for theirs. -/
def Literal.Suits : Literal → Format → Prop
  | .number _, format =>
    format ≠ .bool ∧ (format.isFloat || format.isFixed || format.isVector) = false
  | .truth _, format => format = .bool

/-- The operands are known, and there are as many as the operation takes. -/
def Expression.Valid (known : List String) (format : Format) : Expression → Prop
  | .constant value => value.Suits format
  | .table entries => entries ≠ [] ∧ ∀ value ∈ entries, value.Suits format
  | .compute operation _ operands =>
    operation.role = .value ∧
      (∀ count, operation.arity? = some count → operands.length = count) ∧
      ∀ operand ∈ operands, operand ∈ known

/-- The assigned name is new. -/
structure Assignment.Valid (known : List String) (assignment : Assignment) : Prop where
  name : IsName assignment.name
  new : assignment.name ∉ known
  format : assignment.format.Readable
  tag : ∀ tag ∈ assignment.tag, IsName tag
  expression : assignment.expression.Valid known assignment.format

/-- The names that a block assigns. -/
def Block.names : Block → List String
  | .done => []
  | .assign assignment rest => assignment.name :: rest.names
  | .result _ rest => rest.names
  | .branch _ body rest => body.names ++ rest.names
  | .choice _ first second rest => first.names ++ second.names ++ rest.names

/-- Every name that is used is known or was assigned before it in the text, and none is assigned
twice. -/
def Block.Valid (known : List String) : Block → Prop
  | .done => True
  | .assign assignment rest => assignment.Valid known ∧ rest.Valid (assignment.name :: known)
  | .result value rest => value ∈ known ∧ rest.Valid known
  | .branch condition body rest =>
    condition ∈ known ∧ body.Valid known ∧ rest.Valid (body.names ++ known)
  | .choice condition first second rest =>
    condition ∈ known ∧ first.Valid known ∧ second.Valid (first.names ++ known) ∧
      rest.Valid (second.names ++ (first.names ++ known))

/-- The parameters have different names, and the body makes sense with them known. -/
structure Definition.Valid (definition : Definition) : Prop where
  name : IsName definition.name
  parameters : ∀ parameter ∈ definition.parameters, IsName parameter.1 ∧ parameter.2.Readable
  distinct : (definition.parameters.map Prod.fst).Nodup
  result : definition.result.Readable
  body : definition.body.Valid (definition.parameters.map Prod.fst)

/-! ## Meaning -/

/-- The node of an expression, where its operands have nodes. -/
def Expression.node? (names : List (String × NodeId)) (format : Format) (tag : Option String) :
    Expression → Option Node
  | .constant value =>
    some { operation := .constant, format, tag, payload := .constant value.scalar }
  | .table entries =>
    some
      { operation := .table, format := .table format entries.length, tag
        payload := .table (entries.map Literal.scalar) }
  | .compute operation specifier operands => do
    let operands ← operands.mapM fun operand => names.lookup operand
    some { operation, specifier := specifier.getD .plain, operands, format, tag }

/-- The node of a block: its only statement, or else a sequence of them. -/
def addBlock (graph : Graph) : List NodeId → Graph × NodeId
  | [statement] => (graph, statement)
  | statements => graph.add { operation := .sequence, operands := statements, format := .void }

/-- Adds the nodes of a block in the order of its text. Gives the graph, the names known after the
block and its statements. -/
def Block.build? (graph : Graph) (names : List (String × NodeId)) :
    Block → Option (Graph × List (String × NodeId) × List NodeId)
  | .done => some (graph, names, [])
  | .assign assignment rest => do
    let node ← assignment.expression.node? names assignment.format assignment.tag
    rest.build? (graph.add node).1 ((assignment.name, graph.size) :: names)
  | .result value rest => do
    let value ← names.lookup value
    let node : Node := { operation := .ret, operands := [value], format := .void }
    let (larger, names, statements) ← rest.build? (graph.add node).1 names
    some (larger, names, graph.size :: statements)
  | .branch condition body rest => do
    let condition ← names.lookup condition
    let (graph, names, inner) ← body.build? graph names
    let (graph, block) := addBlock graph inner
    let node : Node := { operation := .condition, operands := [condition, block], format := .void }
    let (larger, names, statements) ← rest.build? (graph.add node).1 names
    some (larger, names, graph.size :: statements)
  | .choice condition first second rest => do
    let condition ← names.lookup condition
    let (graph, names, inner) ← first.build? graph names
    let (graph, firstBlock) := addBlock graph inner
    let (graph, names, inner) ← second.build? graph names
    let (graph, secondBlock) := addBlock graph inner
    let node : Node :=
      { operation := .condition, operands := [condition, firstBlock, secondBlock]
        format := .void }
    let (larger, names, statements) ← rest.build? (graph.add node).1 names
    some (larger, names, graph.size :: statements)

/-- Adds a variable for each parameter in turn. -/
def addParameters (graph : Graph) : List (String × Format) → Graph × List Argument
  | [] => (graph, [])
  | (name, format) :: rest =>
    let node : Node := { operation := .variable, format, payload := .variable name }
    let (larger, arguments) := addParameters (graph.add node).1 rest
    (larger, { name, format, node := graph.size } :: arguments)

/-- Adds a function to a program. -/
def Definition.build? (program : Program) (definition : Definition) : Option Program := do
  let (graph, arguments) := addParameters program.graph definition.parameters
  let (graph, _, statements) ←
    definition.body.build? graph (arguments.map fun argument => (argument.name, argument.node))
  let (graph, body) := addBlock graph statements
  some
    { graph
      functions := program.functions ++
        [{ name := definition.name, arguments, result := definition.result, body }] }

/-- The program that definitions stand for. -/
def build? (definitions : List Definition) : Option Program :=
  definitions.foldlM Definition.build? {}

end Source

end Retarget
