import Retarget.Generation.Basic
import Retarget.Template.Instance

/-!
# Lowering of expressions

The code of a value. Nodes are lowered operands first, by a stack of pending work; the rule of a
node is chosen before its operands are lowered.
-/

namespace Retarget.Generator

/-- What templates may ask of a generator. -/
def surroundings (language : Language) : Surroundings GeneratorM where
  requireHeader header := onDocument (Document.addHeader header)
  requireLibrary library := onDocument (Document.addLibrary library)
  materialize := materialize "tmp"
  typeName := language.typeName

/-- The entity of a table of values, made at its first use. -/
def tableEntity (id : NodeId) (values : List Scalar) (format : Format) : GeneratorM EntityId := do
  match (← get).tables.get? id with
  | some entity => return entity
  | none =>
    let storage :=
      match format with
      | .table storage _ => storage
      | other => other
    let entity ← onNames (Naming.alloc (.table values storage))
    modify fun generator => { generator with tables := generator.tables.insert id entity }
    return entity

/-- The code of a leaf. Constants are written in place unless they have a tag or are vectors. -/
def lowerLeaf (options : Options) (id : NodeId) (node : Node) : GeneratorM String := do
  match node.payload with
  | .variable name => return name
  | .constant value =>
    if options.declareConstants || node.tag.isSome || node.format.isVector then
      onNames (Naming.declareConstantValue value node.format (node.tag.getD "cst"))
    else return options.language.literal value node.format
  | .table values =>
    let entity ← tableEntity id values node.format
    let table ← onNames (Naming.declareTable entity (node.tag.getD "table"))
    record fun session => if table.reused then session.reused else session
    return table.name
  | .none => throw (.graph (.leafWithoutValue node.operation))

def operandCodes (generator : Generator) : List NodeId → Except Fault (List String)
  | [] => .ok []
  | operand :: rest =>
    match generator.code? operand with
    | some code => return code :: (← operandCodes generator rest)
    | none => .error (.graph (.operandNotLowered operand))

theorem operandCodes_eq_ok {generator : Generator} {operands : List NodeId} {codes : List String} :
    generator.operandCodes operands = .ok codes ↔
      operands.map generator.code? = codes.map some := by
  induction operands generalizing codes with
  | nil =>
    cases codes with
    | nil => exact ⟨fun _ => rfl, fun _ => rfl⟩
    | cons code rest =>
      constructor <;>
        · intro impossible
          cases impossible
  | cons operand operands ih =>
    unfold operandCodes
    cases known : generator.code? operand with
    | none =>
      rw [List.map_cons, known]
      constructor
      · intro impossible
        cases impossible
      · intro impossible
        cases codes <;> cases impossible
    | some code =>
      rw [List.map_cons, known]
      constructor
      · intro done
        cases others : generator.operandCodes operands with
        | error fault =>
          simp only [others] at done
          cases done
        | ok more =>
          simp only [others] at done
          cases done
          rw [ih.mp others]
          rfl
      · intro same
        cases codes with
        | nil => cases same
        | cons first rest =>
          obtain ⟨here, others⟩ := List.cons.inj same
          cases here
          simp only [ih.mpr others]
          rfl

/-- The text with a line break at its end. -/
def endLine (text : String) : String :=
  if text.toList.getLast? = some '\n' then text else text ++ "\n"

/-- The code of a node over the codes of its operands. A value that is used more than once, or that
has a tag and is to be kept, goes to a temporary. -/
def emitOver (options : Options) (id : NodeId) (template : Template) (operands : List String) :
    GeneratorM String := do
  let generator ← get
  let node := generator.graph.node id
  record (·.lowered node.operation)
  let stem := node.tag.getD "tmp"
  let surroundings := surroundings options.language
  if template.form.writesResult then
    let name ← onDocument (Document.declareTemporary stem node.format)
    record Session.materialized
    let code ← template.instantiate surroundings operands (some name) node.format
    write (endLine code)
    return name
  else
    let code ← template.instantiate surroundings operands none node.format
    let shared := 1 < (generator.uses.get? id).getD 0
    let kept := options.materializeTagged && node.tag.isSome
    if !template.form.materialized && (shared || kept) then
      materialize stem code node.format
    else return code

/-- The code of a node with lowered operands. -/
def emit (options : Options) (id : NodeId) (template : Template) : GeneratorM String := do
  let generator ← get
  emitOver options id template
    (← liftExcept (generator.operandCodes (generator.graph.node id).operands))

/-- A piece of pending work. -/
inductive Work where
  /-- Lower a node unless its code is known. -/
  | visit (id : NodeId)
  /-- Write the code of a node whose operands are lowered. -/
  | emit (id : NodeId) (template : Template)
  /-- Give a node the code of the one that took its place. -/
  | share (id replacement : NodeId)

/-- Puts the graph with a replacement in place and moves the uses of the replaced node. -/
def replace (graph : Graph) (id replacement : NodeId) : GeneratorM Unit := do
  record Session.replaced
  modify fun generator =>
    { generator with graph, uses := graph.moveUses generator.uses id replacement }

/-- Does one piece of work. Gives the nodes that are on the way and the work to do next. -/
def step (job : Job) (onTheWay : List NodeId) : Work → GeneratorM (List NodeId × List Work)
  | .visit id => do
    let generator ← get
    if (generator.code? id).isSome then return (onTheWay, [])
    if id ∈ onTheWay then throw (.graph (.cycle id))
    let node := generator.graph.node id
    match node.operation.role with
    | .statement => throw (.graph (.statementAsValue node.operation))
    | .leaf =>
      remember id (← lowerLeaf job.options id node)
      return (onTheWay, [])
    | .value =>
      match ← liftExcept (job.book.lower generator.graph id) with
      | .template template =>
        return (id :: onTheWay, node.operands.map .visit ++ [.emit id template])
      | .replaced graph replacement =>
        replace graph id replacement
        return (id :: onTheWay, [.visit replacement, .share id replacement])
  | .emit id template => do
    remember id (← emit job.options id template)
    return (onTheWay.erase id, [])
  | .share id replacement => do
    match (← get).code? replacement with
    | some code =>
      remember id code
      return (onTheWay.erase id, [])
    | none => throw (.graph (.replacementNotLowered replacement))

/-- Works a stack of pending work off, in at most the given number of steps. Gives whether they
were enough. -/
def work (job : Job) : Nat → List NodeId → List Work → GeneratorM Bool
  | _, _, [] => return true
  | 0, _, _ :: _ => return false
  | steps + 1, onTheWay, next :: rest => do
    let (onTheWay, more) ← step job onTheWay next
    work job steps onTheWay (more ++ rest)

/-- The code of the value of a node, where the given number of steps is enough to find it. -/
def lowerWithin (job : Job) (steps : Nat) (root : NodeId) : GeneratorM (Option String) := do
  if ← work job steps [] [.visit root] then
    match (← get).code? root with
    | some code => return some code
    | none => throw (.graph (.noCode root))
  else return none

/-- The number of steps allowed for one expression. Lowering without replacements takes two steps
for each node and one for each operand place, and a replacement adds a few nodes. -/
def stepLimit (graph : Graph) : Nat :=
  1000 * (graph.size + graph.operandCount + 1)

/-- The code of the value of a node. -/
def lowerExpression (job : Job) (root : NodeId) : GeneratorM String := do
  match ← lowerWithin job (stepLimit (← get).graph) root with
  | some code => return code
  | none => throw (.graph .unfinished)

end Retarget.Generator
