import Retarget.Generation.Expression

/-!
# Lowering of statements

Sequences, conditionals and results, each in the blocks of the output language.
-/

namespace Retarget.Generator

/-- Writes the result of the function. In a verification script it becomes a goal too. -/
def lowerResult (options : Options) (code : String) : GeneratorM Unit := do
  let some frame := (← get).frame | throw (.graph .returnOutside)
  match options.language with
  | .c => write ("return " ++ code ++ ";\n")
  | .vhdl => write (Language.vhdl.assignment frame.resultName code true)
  | .gappa =>
    write (Language.gappa.assignment frame.resultName code false)
    onDocument (modify (·.modifyRoot (·.modifyObligations
      (·.addGoal ⟨frame.resultName, frame.result⟩ .unknown))))

/-- The second branch of a conditional in C, in a scope beside that of the first. -/
def lowerElseC (lower : NodeId → GeneratorM Unit) : Option NodeId → GeneratorM Unit
  | none => return
  | some no => do
    linkScope "else"
    lower no

/-- A conditional in C: each branch is a scope. -/
def lowerConditionC (lower : NodeId → GeneratorM Unit) (condition : String) (yes : NodeId)
    (no : Option NodeId) : GeneratorM Unit := do
  write ("if (" ++ condition ++ ") ")
  openScope
  lower yes
  lowerElseC lower no
  closeScope

/-- A branch of a conditional in hardware. Its code is forgotten after it, but its signals stay. -/
def lowerBranch (lower : NodeId → GeneratorM Unit) (branch : NodeId) : GeneratorM Unit := do
  onDocument Document.indent
  pushMemo
  lower branch
  popMemo
  onDocument Document.dedent

/-- A conditional in hardware. The outermost one stands in a process. -/
def lowerConditionVhdl (lower : NodeId → GeneratorM Unit) (condition : String) (yes : NodeId)
    (no : Option NodeId) : GeneratorM Unit := do
  let outermost := (← get).conditionals = 0
  if outermost then
    write "process(all)\nbegin\n"
    onDocument Document.indent
  modify fun generator => { generator with conditionals := generator.conditionals + 1 }
  write ("if " ++ condition ++ " = '1' then\n")
  lowerBranch lower yes
  if let some no := no then
    write "else\n"
    lowerBranch lower no
  write "end if;\n"
  modify fun generator => { generator with conditionals := generator.conditionals - 1 }
  if outermost then
    onDocument Document.dedent
    write "end process;\n"

/-- A conditional with one branch or with two. -/
def lowerCondition (job : Job) (lower : NodeId → GeneratorM Unit) (condition yes : NodeId)
    (no : Option NodeId) : GeneratorM Unit := do
  let condition ← lowerExpression job condition
  match job.options.language with
  | .c => lowerConditionC lower condition yes no
  | .vhdl => lowerConditionVhdl lower condition yes no
  | .gappa => throw (.graph .cannotBranch)

/-- Lowers a statement. The first argument bounds the depth to which statements are nested, which
is below the size of the graph. -/
def lowerStatement (job : Job) : Nat → NodeId → GeneratorM Unit
  | 0, _ => throw (.graph .unfinished)
  | depth + 1, id => do
    let node := (← get).graph.node id
    match node.operation with
    | .sequence => node.operands.forM (lowerStatement job depth)
    | .ret =>
      match node.operands with
      | [] => throw (.graph .returnWithoutValue)
      | value :: _ => lowerResult job.options (← lowerExpression job value)
    | .condition =>
      match node.operands with
      | [condition, yes] =>
        lowerCondition job (lowerStatement job depth) condition yes none
      | [condition, yes, no] =>
        lowerCondition job (lowerStatement job depth) condition yes (some no)
      | operands => throw (.graph (.conditionOperands operands.length))
    | _ => discard (lowerExpression job id)

def lowerBody (job : Job) (body : NodeId) : GeneratorM Unit := do
  lowerStatement job ((← get).graph.size + 1) body

end Retarget.Generator
