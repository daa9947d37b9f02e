import Retarget.Graph.Basic

/-!
# Declared entities

What a generated program declares by name. Names refer to entities by their place in one array, so
that two tables of the same values are still two entities.
-/

namespace Retarget

/-- The place of an entity among all entities of a run. -/
abbrev EntityId := Nat

/-- A connection of a hardware component. -/
structure Pin where
  name : String
  format : Format
  output : Bool
deriving DecidableEq, Repr

/-- Something that a generated program declares by name. -/
inductive Entity where
  | constant (value : Scalar) (format : Format)
  | variable (format : Format)
  | signal (format : Format)
  | table (values : List Scalar) (storage : Format)
  | function (result : Format) (arguments : List (String × Format))
  | component (pins : List Pin)
  /-- A name that is taken, such as an argument's. -/
  | reserved (format : Format)
deriving DecidableEq, Repr

instance : Inhabited Entity := ⟨.reserved .void⟩

/-- The format of an entity; components have none. -/
def Entity.format? : Entity → Option Format
  | .constant _ format | .variable format | .signal format | .reserved format => some format
  | .table _ storage => some storage
  | .function result _ => some result
  | .component _ => none

/-- All entities of a run. -/
abbrev Entities := Array Entity

/-- The entity at a place. A place outside stands for a reserved name. -/
def Entities.entity (entities : Entities) (id : EntityId) : Entity :=
  entities[id]?.getD default

end Retarget
