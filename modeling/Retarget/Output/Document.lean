import Retarget.Output.Draft

/-!
# Documents

An output file under construction: the drafts of the scopes that are open, one inside the other.
Text and declarations go to the innermost draft, and what the head of the file lists goes to the
outermost one. Closing a scope writes its draft into the one around it.
-/

namespace Retarget

/-- Which names the scopes of a document share. -/
structure SharingPolicy where
  /-- Constants are declared once for the whole file. -/
  staticConstants : Bool := false
  /-- Tables are declared once for the whole file. -/
  staticTables : Bool := true
  /-- Put in front of every generated name. -/
  uniquifier : String := ""
  /-- The categories with one table for all scopes. Constants and tables are shared only where
  they are also static. -/
  sharedCategories : List Category := [.constant, .table, .function]
deriving DecidableEq, Repr

/-- Whether all scopes have one table for a category. -/
def SharingPolicy.shares (policy : SharingPolicy) (category : Category) : Bool :=
  category ∈ policy.sharedCategories &&
    match category with
    | .constant => policy.staticConstants
    | .table => policy.staticTables
    | _ => true

/-- An output file under construction. -/
structure Document where
  language : Language
  policy : SharingPolicy
  names : Names
  /-- The draft of the innermost scope. -/
  current : Draft
  /-- The drafts around it, the innermost first. -/
  enclosing : List Draft := []

/-- An action on a document. One that fails keeps what it did before. -/
abbrev DocumentM := EStateM Fault Document

namespace Document

/-- The tables that all scopes share come first, one for each category. -/
def staticTable? (policy : SharingPolicy) (category : Category) : Option TableId :=
  if policy.shares category then some category.index else none

/-- A new document with only its outermost scope. -/
def create (language : Language) (policy : SharingPolicy) : Document :=
  let uniquifier := policy.uniquifier
  let statics := Category.all.map fun category => ({ category, uniquifier } : NameTable)
  let (tables, current) :=
    Draft.create language statics.toArray (staticTable? policy) [] uniquifier true
  { language, policy, names := { tables }, current }

/-- The number of open scopes, the outermost included. -/
def depth (document : Document) : Nat :=
  document.enclosing.length + 1

/-- The draft of the outermost scope. -/
def root (document : Document) : Draft :=
  document.enclosing.getLast?.getD document.current

/-- Changes the innermost draft. -/
def modifyCurrent (document : Document) (change : Draft → Draft) : Document :=
  { document with current := change document.current }

/-- Changes the outermost draft. -/
def modifyRoot (document : Document) (change : Draft → Draft) : Document :=
  match document.enclosing.getLast? with
  | none => document.modifyCurrent change
  | some outermost =>
    { document with enclosing := document.enclosing.dropLast ++ [change outermost] }

/-- Changes the innermost draft, or fails and leaves it. -/
def tryCurrent (change : Draft → Except Fault Draft) : DocumentM Unit := do
  let current ← liftExcept (change (← get).current)
  modify ({ · with current })

def append (text : String) : DocumentM Unit :=
  modify (·.modifyCurrent (·.append text))

def addComment (text : String) : DocumentM Unit :=
  modify (·.modifyCurrent (·.addComment text))

/-- Requires a header in the whole file. -/
def addHeader (header : String) : DocumentM Unit :=
  modify (·.modifyRoot (·.addHeader header))

/-- Requires a header in the current scope, and in those around it once it is closed. -/
def addLocalHeader (header : String) : DocumentM Unit :=
  modify (·.modifyCurrent (·.addHeader header))

/-- Requires a library in the whole file. -/
def addLibrary (library : String) : DocumentM Unit :=
  modify (·.modifyRoot (·.addLibrary library))

/-- Adds a comment to the head of the file. -/
def addHeaderComment (comment : String) : DocumentM Unit :=
  modify (·.modifyRoot (·.addHeaderComment comment))

def indent : DocumentM Unit :=
  modify (·.modifyCurrent Draft.indent)

def dedent : DocumentM Unit :=
  tryCurrent Draft.dedent

/-- The tables that a new scope does not make for itself: static ones, and those of the current
scope for some categories. -/
def sharedTables (document : Document) (extra : List Category) (category : Category) :
    Option TableId :=
  if category ∈ extra then some (document.current.scope.own category)
  else staticTable? document.policy category

/-- Starts the draft of a scope inside the current one. -/
def push (document : Document) (extra : List Category) : Document :=
  let parent := document.current
  let (tables, current) :=
    Draft.create document.language document.names.tables (document.sharedTables extra)
      parent.scope.chain document.policy.uniquifier false
  { document with
    names := { document.names with tables }, current, enclosing := parent :: document.enclosing }

/-- Opens a scope that declares in the current scope's tables for some categories. -/
def openSharing (extra : List Category) : DocumentM Unit :=
  modify fun document => (document.modifyCurrent Draft.openBlock).push extra

def openScope : DocumentM Unit :=
  openSharing []

/-- What a scope leaves out when it closes: functions, and what is written once for the file. -/
def closing (policy : SharingPolicy) : Emission :=
  { staticConstants := policy.staticConstants
    staticTables := policy.staticTables
    skipFunctions := true }

/-- Ends the current draft and writes it into the one around it. A draft that cannot be written is
dropped all the same. -/
def merge : DocumentM Unit := fun document =>
  match document.enclosing with
  | [] => .error (.nesting .nothingToClose) document
  | parent :: enclosing =>
    match document.current.mergeInto document.names (closing document.policy) parent with
    | .ok () parent => .ok () { document with current := parent, enclosing }
    | .error fault parent => .error fault { document with current := parent, enclosing }

def closeScope : DocumentM Unit := do
  merge
  tryCurrent Draft.closeBlock

/-- Closes the current scope and opens one beside it after a transition. -/
def linkScope (transition : String) : DocumentM Unit := do
  let language := (← get).language
  if (language.blockLink? transition).isNone then
    throw (.nesting (.noBlocks language))
  merge
  tryCurrent (·.linkBlock transition)
  modify (·.push [])

/-- Does an action on the names of the current scope. -/
def withNames {α : Type} (action : NamingM α) : DocumentM α := fun document =>
  match document.current.withNames document.names action with
  | (.ok value, names, current) => .ok value { document with names, current }
  | (.error fault, names, current) => .error fault { document with names, current }

/-- Declares a local under a name made from a stem. -/
def declareTemporary (stem : String) (format : Format) : DocumentM String := do
  withNames (Draft.declareTemporary (← get).current.flavor stem format)

/-- The whole file. All scopes but the outermost must be closed. -/
def finish (document : Document) (headers : Bool) : Except Fault String :=
  match document.enclosing with
  | [] => document.current.render document.names { headers }
  | enclosing => .error (.nesting (.scopesOpen enclosing.length))

end Document

end Retarget
