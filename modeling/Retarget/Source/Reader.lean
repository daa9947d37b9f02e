import Retarget.Data.OrderedMap
import Retarget.Source.Line
import Retarget.Source.Literal

/-!
# Reading a textual graph

```text
; comments start with a semicolon
func exp_core(x: binary32 in [-0.5, 0.5]) -> binary32 {
    %c = const 1.5 : binary32
    %p = fma %x, %c, %c : binary32 @poly
    %k = cmp.lt %x, %c : bool
    if %k {
        return %p
    } else {
        return %c
    }
}
```

The reader takes one line at a time. Nodes are added in the order of the text, and a block of
exactly one statement stands for that statement.
-/

namespace Retarget.Source

/-- A conditional whose block is being read. -/
structure OpenCondition where
  line : Nat
  condition : NodeId
  /-- The first branch, once the second one is being read. -/
  thenBranch : Option NodeId
  /-- The statements before the conditional, the last one first. -/
  before : List NodeId
deriving DecidableEq, Repr

/-- A function whose body is being read. -/
structure OpenFunction where
  line : Nat
  name : String
  arguments : List Argument
  result : Format
  /-- The node of each value name. -/
  values : OrderedMap String NodeId
  /-- The statements of the innermost block, the last one first. -/
  statements : List NodeId
  /-- The open conditionals, the innermost first. -/
  conditions : List OpenCondition
deriving DecidableEq, Repr

/-- What has been read so far. -/
structure Reader where
  program : Program := {}
  current : Option OpenFunction := none
deriving DecidableEq, Repr, Inhabited

/-- A fault of a line. -/
def refuse {α : Type} (line : Nat) (cause : ParseFault) : Except Fault α :=
  .error (.parse line cause)

/-- The node of a value, which is written with a percent sign. -/
def lookup (values : OrderedMap String NodeId) (line : Nat) (text : List Char) :
    Except Fault NodeId :=
  match text with
  | '%' :: name =>
    match values.get? (String.ofList name) with
    | some id => .ok id
    | none => refuse line (.undefinedValue (String.ofList name))
  | _ => refuse line (.expectedValue (String.ofList text))

/-- The node that stands for the statements of a block, the last of which comes first. -/
def sequence (graph : Graph) (statements : List NodeId) : Graph × NodeId :=
  match statements with
  | [statement] => (graph, statement)
  | _ => graph.addOperation .sequence .plain statements.reverse .void

/-- The pieces of an argument list. A comma at the end adds none. -/
def pieces (text : List Char) : List (List Char) :=
  let (front, last) := Text.splitOutside text
  let last := Text.trim last
  front.map Text.trim ++ if last.isEmpty then [] else [last]

/-- Reads an argument and adds its node. -/
def readArgument (line : Nat) (graph : Graph) (text : List Char) :
    Except Fault (Graph × Argument) := do
  let (name, rest) ←
    match Text.cutFirst? (· = ':') text with
    | some parts => pure parts
    | none => refuse line (.argumentWithoutFormat (String.ofList text))
  let name := String.ofList (Text.trim name)
  let (format, range) ←
    match Text.cutAt? " in ".toList rest with
    | some (format, range) =>
      let range ← interval line range
      pure (format, some range)
    | none => pure (rest, none)
  let format ← Source.format line format
  let (graph, node) := graph.addVariable name format
  pure (graph, { name, format, node, range })

def readArguments (line : Nat) (graph : Graph) :
    List (List Char) → Except Fault (Graph × List Argument)
  | [] => pure (graph, [])
  | text :: rest => do
    let (graph, argument) ← readArgument line graph text
    let (graph, arguments) ← readArguments line graph rest
    pure (graph, argument :: arguments)

/-- Reads what follows `func` in the first line of a function. -/
def readHeader (line : Nat) (graph : Graph) (header : List Char) :
    Except Fault (Graph × OpenFunction) := do
  let (name, _) ←
    match Text.cutFirst? (· = '(') header with
    | some parts => pure parts
    | none => refuse line .missingOpen
  let (front, tail) ←
    match Text.cutLast? (· = ')') header with
    | some parts => pure parts
    | none => refuse line .missingClose
  let inner := front.drop (name.length + 1)
  let name := Text.trim name
  if name.isEmpty then refuse line .missingName
  else
    let result ←
      match (Text.after? "->".toList (Text.trim tail)).bind fun rest =>
          Text.before? '{' (Text.trim rest) with
      | some result => pure result
      | none => refuse line .missingResult
    let result ← Source.format line result
    let (graph, arguments) ← readArguments line graph (pieces inner)
    pure (graph,
      { line, name := String.ofList name, arguments, result
        values := arguments.foldl (fun values a => values.insert a.name a.node) OrderedMap.empty
        statements := [], conditions := [] })

/-- Adds the node that an operation name and its operands describe. -/
def readOperation (line : Nat) (values : OrderedMap String NodeId) (graph : Graph)
    (word arguments : List Char) (format : Format) : Except Fault (Graph × NodeId) := do
  let (kind, specifier) :=
    match Text.cutFirst? (· = '.') word with
    | some (kind, specifier) => (kind, some specifier)
    | none => (word, none)
  let kind := String.ofList kind
  let operation ←
    match (Operation.ofName? kind).filter fun operation => operation.role = .value with
    | some operation => pure operation
    | none => refuse line (.unknownOperation kind)
  let specifier ←
    match specifier with
    | none => pure Specifier.plain
    | some name =>
      match Specifier.ofName? (String.ofList name) with
      | some specifier => pure specifier
      | none => refuse line (.unknownSpecifier (String.ofList name))
  let operands ←
    if arguments.isEmpty then pure []
    else (Text.splitAt ',' arguments).mapM fun text => lookup values line (Text.trim text)
  match operation.arity? with
  | some arity =>
    if operands.length = arity then
      pure (graph.addOperation operation specifier operands format)
    else refuse line (.wrongArity operation arity operands.length)
  | none => pure (graph.addOperation operation specifier operands format)

/-- Adds the node that the right side of an assignment describes, its format and tag apart. -/
def readExpression (line : Nat) (values : OrderedMap String NodeId) (graph : Graph)
    (text : List Char) (format : Format) : Except Fault (Graph × NodeId) := do
  let (word, arguments) :=
    match Text.cutFirst? Text.isBlank text with
    | some (word, arguments) => (word, Text.trim arguments)
    | none => (text, [])
  if word = "const".toList then
    let value ← scalar line format arguments
    pure (graph.addConstant value format)
  else if word = "table".toList then
    match (Text.after? ['['] arguments).bind (Text.before? ']') with
    | none => refuse line .missingBrackets
    | some inner =>
      let entries ← (Text.splitAt ',' inner).mapM (scalar line format)
      pure (graph.addTable entries format)
  else readOperation line values graph word arguments format

/-- Reads an assignment: a new value name, an expression, its format and an optional tag. -/
def readAssignment (line : Nat) (values : OrderedMap String NodeId) (graph : Graph)
    (text : List Char) : Except Fault (Graph × OrderedMap String NodeId) := do
  let (name, value) ←
    match Text.cutFirst? (· = '=') text with
    | some parts => pure parts
    | none => refuse line .missingEquals
  let name ←
    match Text.trim name with
    | '%' :: name => pure (String.ofList name)
    | _ => refuse line .unmarkedName
  if values.contains name then refuse line (.definedTwice name)
  else
    let (value, tag) :=
      match Text.cutLast? (· = '@') value with
      | some (value, tag) => (value, some (String.ofList (Text.trim tag)))
      | none => (value, none)
    let (expression, format) ←
      match Text.cutLast? (· = ':') value with
      | some parts => pure parts
      | none => refuse line .missingFormat
    let format ← Source.format line format
    let (graph, id) ← readExpression line values graph (Text.trim expression) format
    let graph :=
      match tag with
      | some tag => graph.setTag id tag
      | none => graph
    pure (graph, values.insert name id)

namespace Reader

/-- Closes the innermost block: a conditional becomes a statement of the enclosing block, and a
function is complete. -/
def closeBlock (reader : Reader) (function : OpenFunction) : Reader :=
  let program := reader.program
  let (graph, block) := sequence program.graph function.statements
  match function.conditions with
  | [] =>
    { program :=
        { graph
          functions := program.functions ++
            [{ name := function.name, arguments := function.arguments,
               result := function.result, body := block }] }
      current := none }
  | condition :: conditions =>
    let branches :=
      match condition.thenBranch with
      | some thenBranch => [thenBranch, block]
      | none => [block]
    let (graph, id) :=
      graph.addOperation .condition .plain (condition.condition :: branches) .void
    { program := { program with graph }
      current := some
        { function with statements := id :: condition.before, conditions } }

/-- Goes from the first branch of a conditional to the second. -/
def switchBranch (reader : Reader) (function : OpenFunction) : Except Fault Reader :=
  match function.conditions with
  | [] => refuse function.line .elseOutside
  | condition :: conditions =>
    match condition.thenBranch with
    | some _ => refuse condition.line .chainedElse
    | none =>
      let (graph, block) := sequence reader.program.graph function.statements
      .ok
        { program := { reader.program with graph }
          current := some
            { function with
              statements := []
              conditions := { condition with thenBranch := some block } :: conditions } }

def readReturn (reader : Reader) (function : OpenFunction) (line : Nat) (text : List Char) :
    Except Fault Reader := do
  let value ← lookup function.values line (Text.trim text)
  let (graph, id) := reader.program.graph.addOperation .ret .plain [value] .void
  pure
    { program := { reader.program with graph }
      current := some { function with statements := id :: function.statements } }

/-- Reads the first line of a conditional. -/
def openCondition (reader : Reader) (function : OpenFunction) (line : Nat) (text : List Char) :
    Except Fault Reader := do
  match Text.before? '{' text with
  | none => refuse line .missingBrace
  | some text =>
    let condition ← lookup function.values line (Text.trim text)
    pure
      { reader with
        current := some
          { function with
            statements := []
            conditions :=
              { line, condition, thenBranch := none, before := function.statements } ::
                function.conditions } }

/-- Reads a line inside of a function. -/
def readStatement (reader : Reader) (function : OpenFunction) (line : Line) :
    Except Fault Reader :=
  if line.text = "\x7d".toList then .ok (reader.closeBlock function)
  else if line.text = "\x7d else \x7b".toList then reader.switchBranch function
  else
    match Text.after? "return ".toList line.text with
    | some value => reader.readReturn function line.number value
    | none =>
    match Text.after? "if ".toList line.text with
    | some condition => reader.openCondition function line.number condition
    | none =>
      if line.text.head? = some '%' then do
        let (graph, values) ←
          readAssignment line.number function.values reader.program.graph line.text
        pure
          { program := { reader.program with graph }
            current := some { function with values } }
      else refuse line.number (.unexpected (String.ofList line.text))

def readLine (reader : Reader) (line : Line) : Except Fault Reader :=
  match reader.current with
  | some function => reader.readStatement function line
  | none =>
    match Text.after? "func ".toList line.text with
    | none => refuse line.number (.expectedFunction (String.ofList line.text))
    | some header => do
      let (graph, function) ← readHeader line.number reader.program.graph header
      pure { program := { reader.program with graph }, current := some function }

end Reader

/-- The program that a text describes. A function left open is reported at the last line with
content. -/
def read (text : String) : Except Fault Program := do
  let lines := lines text
  let reader ← lines.foldlM Reader.readLine {}
  match reader.current with
  | none => pure reader.program
  | some _ => refuse ((lines.getLast?.map Line.number).getD 0) .unterminatedBlock

end Retarget.Source
