import Retarget.Naming.Declaring
import Retarget.Output.Obligations

/-!
# Drafts

The text written so far in one scope. Indentation is applied as text is written and never
afterwards: at a depth above zero every line break of new text is followed by the indentation of
that depth.
-/

namespace Retarget

/-- What a draft does beyond collecting text. -/
inductive Flavor where
  | plain
  /-- Hardware declares its locals as signals, and they may belong to an enclosing scope. -/
  | hardware (sharedSignals mainLevel : Bool)
  /-- A verification script ends with its proof obligations. -/
  | verification (obligations : Obligations)
deriving DecidableEq, Repr

/-- What a draft leaves out when it is written, and whether it starts with the head of the file. -/
structure Emission where
  /-- Constants are written elsewhere. -/
  staticConstants : Bool := false
  /-- Tables are written elsewhere. -/
  staticTables : Bool := false
  headers : Bool := false
  /-- Functions are written elsewhere. -/
  skipFunctions : Bool := false
deriving DecidableEq, Repr

/-- The text and the names of one scope. -/
structure Draft where
  language : Language
  flavor : Flavor
  text : String := ""
  /-- The number of open blocks. -/
  depth : Nat := 0
  headers : List String := []
  libraries : List String := []
  headerComments : List String := []
  scope : Scope

/-- A list of distinct texts with one more at its end, unless it is there already. -/
def addOnce (texts : List String) (text : String) : List String :=
  if text ∈ texts then texts else texts ++ [text]

namespace Draft

/-- One step of indentation. -/
def step : String := "    "

def indentation (depth : Nat) : String :=
  String.ofList (List.replicate (4 * depth) ' ')

/-- A new draft, with the flavor of its language. -/
def create (language : Language) (tables : NameTables) (shared : Category → Option TableId)
    (enclosing : List TableSet) (uniquifier : String) (mainLevel : Bool) : NameTables × Draft :=
  let flavor :=
    match language with
    | .c => .plain
    | .vhdl => .hardware (shared .signal).isSome mainLevel
    | .gappa => .verification {}
  let (tables, scope) := Scope.create tables shared enclosing uniquifier
  (tables, { language, flavor, scope })

/-- Whether nothing has been written, declared or required. -/
def isEmpty (draft : Draft) (tables : NameTables) : Bool :=
  draft.headers.isEmpty && draft.libraries.isEmpty && draft.headerComments.isEmpty &&
    draft.scope.isEmpty tables && draft.text.isEmpty

/-- Writes text at the current depth. -/
def append (draft : Draft) (text : String) : Draft :=
  if draft.depth = 0 then { draft with text := draft.text ++ text }
  else { draft with text := draft.text ++ Language.continueLines (indentation draft.depth) text }

def addComment (draft : Draft) (text : String) : Draft :=
  draft.append (draft.language.comment text)

/-- Goes one step deeper and writes the step that the current line lacks. -/
def indent (draft : Draft) : Draft :=
  { draft with depth := draft.depth + 1, text := draft.text ++ step }

/-- The text without one step of indentation at its end, where it has one. -/
def dropStep (text : String) : String :=
  if step.toList.isSuffixOf text.toList then
    String.ofList (text.toList.take (text.toList.length - 4))
  else text

/-- Goes back one step and takes away the step that the current line began with. -/
def dedent (draft : Draft) : Except Fault Draft :=
  match draft.depth with
  | 0 => .error (.nesting .indentationBelowZero)
  | depth + 1 => .ok { draft with depth, text := dropStep draft.text }

def openBlock (draft : Draft) : Draft :=
  (draft.append draft.language.blockOpen).indent

def closeBlock (draft : Draft) : Except Fault Draft := do
  let draft ← draft.dedent
  pure (draft.append draft.language.blockClose)

/-- Closes a block and opens the next one after a transition. -/
def linkBlock (draft : Draft) (transition : String) : Except Fault Draft :=
  match draft.language.blockLink? transition with
  | none => .error (.nesting (.noBlocks draft.language))
  | some link => do
    let draft ← draft.dedent
    pure (draft.append link).indent

def addHeader (draft : Draft) (header : String) : Draft :=
  { draft with headers := addOnce draft.headers header }

def addLibrary (draft : Draft) (library : String) : Draft :=
  { draft with libraries := addOnce draft.libraries library }

/-- Adds a comment to the head of the file. -/
def addHeaderComment (draft : Draft) (comment : String) : Draft :=
  { draft with headerComments := draft.headerComments ++ [comment] }

def obligations? (draft : Draft) : Option Obligations :=
  match draft.flavor with
  | .verification obligations => some obligations
  | _ => none

def modifyObligations (draft : Draft) (change : Obligations → Obligations) : Draft :=
  match draft.flavor with
  | .verification obligations => { draft with flavor := .verification (change obligations) }
  | _ => draft

/-- Does an action on the names of the draft's scope. -/
def withNames {α : Type} (draft : Draft) (names : Names) (action : NamingM α) :
    Except Fault α × Names × Draft :=
  match action { toNames := names, scope := draft.scope } with
  | .ok value naming => (.ok value, naming.toNames, { draft with scope := naming.scope })
  | .error fault naming => (.error fault, naming.toNames, { draft with scope := naming.scope })

/-- Declares a local under a name made from a stem: a signal in hardware, a variable elsewhere. -/
def declareTemporary (flavor : Flavor) (stem : String) (format : Format) : NamingM String :=
  match flavor with
  | .hardware _ _ => Naming.declareNew .signal stem (.signal format)
  | _ => Naming.declareNew .variable stem (.variable format)

/-- Fails where a block is open. -/
def checkBalanced (draft : Draft) : Except Fault Unit :=
  if draft.depth = 0 then .ok () else .error (.nesting (.blocksOpen draft.depth))

/-- The categories whose declarations the draft leaves out. -/
def exclusions (draft : Draft) (emission : Emission) : List Category :=
  (if emission.staticConstants then [.constant] else []) ++
    (if emission.staticTables then [.table] else []) ++
    (if emission.skipFunctions then [.function] else []) ++
    match draft.flavor with
    | .hardware true _ => [.signal]
    | .verification _ => [.variable]
    | _ => []

/-- The declarations of the draft's own names, followed by what sets them up. -/
def declarations (draft : Draft) (names : Names) (emission : Emission) : String :=
  draft.scope.declarations names.tables draft.language names.entities (draft.exclusions emission)
    ++ draft.scope.initializations names.tables draft.language names.entities
      [.constant, .variable]

def headerText (draft : Draft) : String :=
  draft.language.headerText draft.headerComments draft.headers draft.libraries

/-- The whole draft: the head of the file, declarations, text and obligations. -/
def render (draft : Draft) (names : Names) (emission : Emission) : Except Fault String := do
  draft.checkBalanced
  let head :=
    (if emission.headers then draft.headerText ++ "\n\n" else "") ++
      draft.declarations names emission ++
      match draft.flavor with
      | .hardware _ false => "begin\n"
      | _ => ""
  let ending :=
    match draft.flavor with
    | .verification obligations => "\n\n" ++ obligations.goalText ++ obligations.hintSection
    | _ => ""
  pure (head ++ (if head.isEmpty then "" else "\n") ++ draft.text ++ ending)

/-- Writes the text and the obligations of a draft into its parent, after the declarations. A
parent that cannot step back to write the start of a hardware body stays as it is. -/
def mergeBody (draft : Draft) (declarations : String) : EStateM Fault Draft Unit :=
  match draft.flavor with
  | .hardware _ mainLevel => do
    let parent ← liftExcept (← get).dedent
    let parent := parent.append "\n"
    let parent := if mainLevel then parent else parent.append "begin\n"
    set ((parent.indent.append "\n").append draft.text)
  | .plain =>
    modify fun parent =>
      (if declarations.isEmpty then parent else parent.append "\n").append draft.text
  | .verification obligations =>
    modify fun parent =>
      ((((if declarations.isEmpty then parent else parent.append "\n").append draft.text).append
        "\n\n").append obligations.goalText).append obligations.hintSection

/-- Writes a draft into its parent, at the parent's depth. Where the body cannot be written, the
parent keeps the declarations written before. -/
def mergeInto (draft : Draft) (names : Names) (emission : Emission) : EStateM Fault Draft Unit := do
  liftExcept draft.checkBalanced
  modify fun parent =>
    if emission.headers then (parent.append draft.headerText).append "\n\n" else parent
  let declarations := draft.declarations names emission
  modify (·.append declarations)
  draft.mergeBody declarations
  modify fun parent => draft.headers.foldl addHeader parent
  modify fun parent => draft.libraries.foldl addLibrary parent

end Draft

end Retarget
