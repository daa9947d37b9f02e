import Retarget.Generation.Statement

/-!
# Generation of functions

A function becomes a C function, a hardware entity with its architecture, or a part of a
verification script; a program becomes one file.
-/

namespace Retarget.Generator

/-- The name of the result in hardware and in verification scripts. -/
def resultName : String := "vr_out"

def cHead (function : Function) : String :=
  function.result.cName ++ " " ++ function.name ++ "(" ++
    Entity.cArguments (function.arguments.map fun argument => (argument.name, argument.format)) ++
    ") "

def generateC (job : Job) (function : Function) : GeneratorM Unit := do
  onDocument (Document.addHeader "stdint.h")
  let arguments := function.arguments.map fun argument => (argument.name, argument.format)
  onNames do
    Naming.declare .function function.name (← Naming.alloc (.function function.result arguments))
  write (cHead function)
  openScope
  function.arguments.forM fun argument => reserve argument.name argument.format
  modify ({ · with frame := some ⟨"", function.result⟩ })
  lowerBody job function.body
  closeScope
  write "\n"

/-- The pins of the hardware entity of a function. -/
def pins (function : Function) : List Pin :=
  (function.arguments.map fun argument => ⟨argument.name, argument.format, false⟩) ++
    [⟨resultName, function.result, true⟩]

def writeEntity (name : String) (pins : List Pin) : GeneratorM Unit := do
  write ("entity " ++ name ++ " is\n")
  onDocument Document.indent
  write "port (\n"
  onDocument Document.indent
  write (";\n".intercalate (pins.map Entity.pinText))
  write "\n"
  onDocument Document.dedent
  write ");\n"
  onDocument Document.dedent
  write ("end entity " ++ name ++ ";\n\n")

/-- Generates a hardware entity and its architecture. -/
def generateVhdl (job : Job) (function : Function) : GeneratorM Unit := do
  let pins := pins function
  reserve function.name function.result
  writeEntity function.name pins
  write ("architecture rtl of " ++ function.name ++ " is\n")
  openScope
  pins.forM fun pin => reserve pin.name pin.format
  modify ({ · with frame := some ⟨resultName, function.result⟩ })
  lowerBody job function.body
  closeScope
  write "end architecture rtl;\n\n"

/-- Takes the name of an argument out of use where it is free, and assumes the range that the
argument lies in. -/
def assumeArgument (argument : Argument) : GeneratorM Unit := do
  let document := (← get).document
  if document.current.scope.isFree document.names.tables argument.name then
    reserve argument.name argument.format
  if let some (low, high) := argument.range then
    onDocument (modify (·.modifyRoot (·.modifyObligations
      (·.addHypothesis ⟨argument.name, argument.format⟩ (.interval low high)))))

/-- Generates a part of a verification script, all at the level of the file. -/
def generateGappa (job : Job) (function : Function) : GeneratorM Unit := do
  onDocument (Document.addComment function.name)
  function.arguments.forM assumeArgument
  let resultName ← onNames (Naming.freeName resultName)
  reserve resultName function.result
  modify ({ · with frame := some ⟨resultName, function.result⟩ })
  lowerBody job function.body
  write "\n"

/-- Promotes the values of a function to registers, where the job asks for it. -/
def promote (job : Job) (function : Function) : GeneratorM Unit := do
  if job.options.promoteRegisters then
    let count ← modifyGet fun generator =>
      let (graph, count) :=
        generator.graph.promote function.body job.target.promotions job.book
      (count, { generator with graph })
    record (·.promoted count)

/-- Forgets all code and counts the uses of the values of a function. -/
def countUses (function : Function) : GeneratorM Unit :=
  modify fun generator =>
    { generator with
      uses := generator.graph.uses function.body
      memo := OrderedMap.empty
      outerMemos := [] }

/-- Writes a function in the language of the job. -/
def writeFunction (job : Job) (function : Function) : GeneratorM Unit :=
  match job.options.language with
  | .c => generateC job function
  | .vhdl => generateVhdl job function
  | .gappa => generateGappa job function

/-- The size of the outermost draft in bytes. -/
def textSize (generator : Generator) : Nat :=
  generator.document.root.text.utf8ByteSize

def generateFunction (job : Job) (function : Function) : GeneratorM Unit := do
  record (·.startFunction function.name)
  promote job function
  countUses function
  let before := (← get).textSize
  writeFunction job function
  modify ({ · with frame := none })
  let size := (← get).textSize - before
  record (·.endFunction function.name size)

end Retarget.Generator

namespace Retarget

/-- The job of generating for a target, where it has rules for the language. -/
def Target.job (target : Target) (options : Options) : Except Fault Job := do
  let book ← target.book options.language
  return { target, book, options }

namespace Job

/-- What the head of every hardware file lists. -/
def addStandardHeaders (language : Language) (draft : Draft) : Draft :=
  match language with
  | .vhdl =>
    ((draft.addLibrary "ieee").addHeader "ieee.std_logic_1164.all").addHeader
      "ieee.numeric_std.all"
  | _ => draft

/-- A generator that has written nothing so far. -/
def start (job : Job) (graph : Graph) : Generator :=
  let options := job.options
  let document := Document.create options.language options.sharing
  let document := document.modifyRoot (options.headerComments.foldl Draft.addHeaderComment ·)
  { graph, document := document.modifyRoot (addStandardHeaders options.language) }

/-- The file that a generator has written. -/
def finish (job : Job) (generator : Generator) : Except Fault String :=
  generator.document.finish job.options.headers

end Job

/-- What generating a program gives. -/
structure Generated where
  code : Except Fault String
  session : Session
  /-- The graph with the nodes that generation added. -/
  graph : Graph

/-- Generates every function of a program into one file. -/
def Program.generate (program : Program) (target : Target) (options : Options) : Generated :=
  match target.job options with
  | .error fault => { code := .error fault, session := {}, graph := program.graph }
  | .ok job =>
    match program.functions.forM (Generator.generateFunction job) (job.start program.graph) with
    | .ok () generator =>
      { code := job.finish generator, session := generator.session, graph := generator.graph }
    | .error fault generator =>
      { code := .error fault, session := generator.session, graph := generator.graph }

end Retarget
