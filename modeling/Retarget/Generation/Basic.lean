import Retarget.Generation.Session
import Retarget.Output.Document
import Retarget.Target.Basic

/-!
# Generators

The state of generation: the graph, the document written so far, and the code of the nodes that
are lowered. Code is remembered for the scope in which its names are declared and forgotten when
that scope closes.
-/

namespace Retarget

/-- How programs are generated. -/
structure Options where
  language : Language := .c
  /-- Every scalar constant is declared. -/
  declareConstants : Bool := false
  /-- Every value with a tag is kept in a temporary of that name. -/
  materializeTagged : Bool := false
  headers : Bool := true
  headerComments : List String := []
  sharing : SharingPolicy := {}
  /-- Vectors are kept in registers where the target has any. -/
  promoteRegisters : Bool := true
deriving DecidableEq, Repr

/-- What does not change during generation. -/
structure Job where
  target : Target
  book : RuleBook
  options : Options

/-- The result of the function under generation. -/
structure Frame where
  resultName : String
  result : Format
deriving DecidableEq, Repr

/-- The code of lowered nodes in one scope. -/
abbrev Memo := OrderedMap NodeId String

/-- The state of generation. -/
structure Generator where
  graph : Graph
  document : Document
  /-- The code known in the innermost scope. -/
  memo : Memo := OrderedMap.empty
  /-- The code known in the scopes around it, the innermost first. -/
  outerMemos : List Memo := []
  uses : Graph.Uses := OrderedMap.empty
  /-- The entity of each table of values. -/
  tables : OrderedMap NodeId EntityId := OrderedMap.empty
  frame : Option Frame := none
  /-- The number of hardware conditionals around the current statement. -/
  conditionals : Nat := 0
  session : Session := {}

/-- A step of generation. One that fails keeps what it did before. -/
abbrev GeneratorM := EStateM Fault Generator

namespace Generator

/-- The code known in each open scope, the innermost first. -/
def levels (generator : Generator) : List Memo :=
  generator.memo :: generator.outerMemos

/-- The code of a node, from the innermost scope that knows it. -/
def code? (generator : Generator) (id : NodeId) : Option String :=
  generator.levels.findSome? fun level => level.get? id

/-- Remembers the code of a node in the innermost scope. -/
def remember (id : NodeId) (code : String) : GeneratorM Unit :=
  modify fun generator => { generator with memo := generator.memo.insert id code }

def onDocument {α : Type} (action : DocumentM α) : GeneratorM α := fun generator =>
  match action generator.document with
  | .ok value document => .ok value { generator with document }
  | .error fault document => .error fault { generator with document }

/-- Does an action on the names of the current scope. -/
def onNames {α : Type} (action : NamingM α) : GeneratorM α :=
  onDocument (Document.withNames action)

def write (text : String) : GeneratorM Unit :=
  onDocument (Document.append text)

/-- Records an event of the session. -/
def record (change : Session → Session) : GeneratorM Unit :=
  modify fun generator => { generator with session := change generator.session }

/-- Starts to remember code for a scope. -/
def pushMemo : GeneratorM Unit :=
  modify fun generator =>
    { generator with
      memo := OrderedMap.empty
      outerMemos := generator.memo :: generator.outerMemos }

/-- Forgets the code of a scope. -/
def popMemo : GeneratorM Unit :=
  modify fun generator =>
    match generator.outerMemos with
    | [] => { generator with memo := OrderedMap.empty }
    | memo :: outerMemos => { generator with memo, outerMemos }

def openScope : GeneratorM Unit := do
  onDocument Document.openScope
  pushMemo
  record Session.opened

def closeScope : GeneratorM Unit := do
  popMemo
  onDocument Document.closeScope

/-- Closes a scope and opens one beside it after a transition. -/
def linkScope (transition : String) : GeneratorM Unit := do
  popMemo
  onDocument (Document.linkScope transition)
  pushMemo
  record Session.opened

/-- Takes a name out of use for generated names. -/
def reserve (name : String) (format : Format) : GeneratorM Unit :=
  onNames do Naming.declare .reserved name (← Naming.alloc (.reserved format))

/-- Stores code of a format in a new temporary and gives its name. -/
def materialize (stem code : String) (format : Format) : GeneratorM String := do
  let language := (← get).document.language
  let name ← onDocument (Document.declareTemporary stem format)
  write (language.assignment name code (language = .vhdl))
  record Session.materialized
  return name

end Generator

end Retarget
