import Retarget.Naming.Table

/-!
# Scopes of names

A scope has one table of names for each category and sees the tables of the scopes around it. A
table may serve several scopes, so scopes refer to tables by their place in one array.
-/

namespace Retarget

/-- The place of a table among all tables of a run. -/
abbrev TableId := Nat

/-- All tables of a run. -/
abbrev NameTables := Array NameTable

/-- The table at a place. A place outside stands for an empty table. -/
def NameTables.table (tables : NameTables) (id : TableId) : NameTable :=
  tables[id]?.getD default

/-- The table of each category that one scope declares in. -/
abbrev TableSet := Category → TableId

namespace TableSet

/-- Whether a name is free in all tables of the set. -/
def isFree (set : TableSet) (tables : NameTables) (name : String) : Bool :=
  Category.all.all fun category => (tables.table (set category)).isFree name

/-- Whether all tables of the set are empty. -/
def isEmpty (set : TableSet) (tables : NameTables) : Bool :=
  Category.all.all fun category => (tables.table (set category)).isEmpty

/-- The first category that holds a name. -/
def holder? (set : TableSet) (tables : NameTables) (name : String) : Option Category :=
  Category.all.find? fun category => !(tables.table (set category)).isFree name

end TableSet

/-- A scope: its own tables, those around it, and its counters for new names. -/
structure Scope where
  own : TableSet
  /-- The tables of the enclosing scopes, the innermost first. -/
  enclosing : List TableSet
  counters : Counters
  uniquifier : String

namespace Scope

/-- A new scope. Seven tables are set aside for it, and those of shared categories stay unused. -/
def create (tables : NameTables) (shared : Category → Option TableId)
    (enclosing : List TableSet) (uniquifier : String) : NameTables × Scope :=
  let fresh := Category.all.map fun category => ({ category, uniquifier } : NameTable)
  (tables ++ fresh.toArray,
    { own := fun category => (shared category).getD (tables.size + category.index)
      enclosing, counters := OrderedMap.empty, uniquifier })

/-- The tables that the scope sees, its own first and then outwards. -/
def chain (scope : Scope) : List TableSet :=
  scope.own :: scope.enclosing

/-- Whether a name is free in every category of the scope and of those around it. -/
def isFree (scope : Scope) (tables : NameTables) (name : String) : Bool :=
  scope.chain.all fun set => set.isFree tables name

/-- Whether the scope itself has no names. -/
def isEmpty (scope : Scope) (tables : NameTables) : Bool :=
  scope.own.isEmpty tables

/-- The category that holds a name in the scope or in the nearest one around it. -/
def holder? (scope : Scope) (tables : NameTables) (name : String) : Option Category :=
  scope.chain.findSome? fun set => set.holder? tables name

/-- The number of names in all tables that the scope sees. -/
def nameCount (scope : Scope) (tables : NameTables) : Nat :=
  (scope.chain.flatMap fun set =>
    Category.all.flatMap fun category => (tables.table (set category)).entries).length

/-- A name that is free in everything the scope sees: the stem itself where it is free, otherwise
the stem with the next free number. -/
def freeName (scope : Scope) (tables : NameTables) (stem : String) : String × Scope :=
  let stem := scope.uniquifier ++ stem
  if scope.isFree tables stem then (stem, scope)
  else
    let start := (scope.counters.get? stem).getD 0
    let number := firstFree (scope.isFree tables) stem (scope.nameCount tables + 1) start
    (stem ++ toString number, { scope with counters := scope.counters.insert stem (number + 1) })

/-- Takes numbered names of the constant table until one is free in everything the scope sees. -/
def nextConstantName (scope : Scope) (stem : String) :
    Nat → NameTables → String → String × NameTables
  | 0, tables, candidate => (candidate, tables)
  | tries + 1, tables, candidate =>
    if scope.isFree tables candidate then (candidate, tables)
    else
      let (candidate, table) := (tables.table (scope.own .constant)).numberedName stem
      nextConstantName scope stem tries (tables.setIfInBounds (scope.own .constant) table)
        candidate

/-- A name for a constant, from the counters of the constant table. -/
def freeConstantName (scope : Scope) (tables : NameTables) (stem : String) :
    String × NameTables :=
  let (candidate, table) := (tables.table (scope.own .constant)).freeName stem
  scope.nextConstantName stem (scope.nameCount tables + 1)
    (tables.setIfInBounds (scope.own .constant) table) candidate

/-- Gives an entity a name in a category. The name must be free in everything the scope sees. -/
def declare (scope : Scope) (tables : NameTables) (category : Category) (name : String)
    (entity : EntityId) : Except Fault NameTables :=
  match scope.holder? tables name with
  | some holder => .error (.nameCollision name holder)
  | none => do
    let table ← (tables.table (scope.own category)).declare name entity
    pure (tables.setIfInBounds (scope.own category) table)

/-- The name of an entity in the scope's own table of signals. -/
def signalName? (scope : Scope) (tables : NameTables) (entity : EntityId) : Option String :=
  (tables.table (scope.own .signal)).nameOf? entity

/-- The name of an entity in the table category of the scope or of the nearest one around it. -/
def tableName? (scope : Scope) (tables : NameTables) (entity : EntityId) : Option String :=
  scope.chain.findSome? fun set => (tables.table (set .table)).nameOf? entity

/-- The declarations of the scope's own names, those of excluded categories apart. -/
def declarations (scope : Scope) (tables : NameTables) (language : Language)
    (entities : Entities) (excluded : List Category) : String :=
  String.join
    ((Category.all.filter (· ∉ excluded)).map fun category =>
      (tables.table (scope.own category)).declarations language entities)

/-- What sets up the scope's own names of some categories. -/
def initializations (scope : Scope) (tables : NameTables) (language : Language)
    (entities : Entities) (included : List Category) : String :=
  String.join
    (included.map fun category =>
      (tables.table (scope.own category)).initializations language entities)

end Scope

end Retarget
