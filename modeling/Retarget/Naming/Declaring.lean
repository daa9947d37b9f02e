import Retarget.Naming.Scope

/-!
# Declaring entities

Actions that make entities and give them names in one scope. An action that fails keeps what it did
before: a made entity stays made and a counter that moved stays moved.
-/

namespace Retarget

/-- The entities and tables of a run, which all its scopes share. -/
structure Names where
  entities : Entities := #[]
  tables : NameTables := #[]

/-- One scope together with the entities and tables of its run. -/
structure Naming extends Names where
  scope : Scope

/-- An action on the names of one scope. -/
abbrev NamingM := EStateM Fault Naming

/-- The name of a table of values, and whether it had that name before. -/
structure TableName where
  name : String
  reused : Bool
deriving DecidableEq, Repr

/-- Makes an entity, with no name so far. -/
def Names.alloc (names : Names) (entity : Entity) : Names × EntityId :=
  ({ names with entities := names.entities.push entity }, names.entities.size)

namespace Naming

def alloc (entity : Entity) : NamingM EntityId := do
  let naming ← get
  let (names, id) := naming.toNames.alloc entity
  set { naming with toNames := names }
  return id

/-- Takes a name that is free in everything the scope sees. -/
def freeName (stem : String) : NamingM String :=
  modifyGet fun naming =>
    let (name, scope) := naming.scope.freeName naming.tables stem
    (name, { naming with scope })

def freeConstantName (stem : String) : NamingM String :=
  modifyGet fun naming =>
    let (name, tables) := naming.scope.freeConstantName naming.tables stem
    (name, { naming with tables })

/-- Gives an entity a name in a category. -/
def declare (category : Category) (name : String) (entity : EntityId) : NamingM Unit := do
  let naming ← get
  match naming.scope.declare naming.tables category name entity with
  | .ok tables => set { naming with tables }
  | .error fault => throw fault

/-- Gives an entity a name made from a stem. -/
def declareFree (category : Category) (stem : String) (entity : EntityId) : NamingM String := do
  let name ← freeName stem
  declare category name entity
  return name

/-- Makes an entity and gives it a name made from a stem. -/
def declareNew (category : Category) (stem : String) (entity : Entity) : NamingM String := do
  let name ← freeName stem
  declare category name (← alloc entity)
  return name

/-- The name of a signal, which is declared at its first use in the scope. -/
def declareSignal (entity : EntityId) (stem : String) : NamingM String := do
  let naming ← get
  match naming.scope.signalName? naming.tables entity with
  | some name => return name
  | none => declareFree .signal stem entity

/-- Gives a constant a name made from a stem. -/
def declareConstant (entity : EntityId) (stem : String) : NamingM String := do
  let name ← freeConstantName stem
  declare .constant name entity
  return name

/-- Makes a constant of a value and gives it a name. -/
def declareConstantValue (value : Scalar) (format : Format) (stem : String) : NamingM String := do
  declareConstant (← alloc (.constant value format)) stem

/-- The name of a table of values in the scope or around it, or a new one in the scope. -/
def declareTable (entity : EntityId) (stem : String) : NamingM TableName := do
  let naming ← get
  match naming.scope.tableName? naming.tables entity with
  | some name => return { name, reused := true }
  | none => return { name := ← declareFree .table stem entity, reused := false }

end Naming

end Retarget
