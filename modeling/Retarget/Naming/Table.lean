import Retarget.Data.OrderedMap
import Retarget.Fault.Basic
import Retarget.Output.Declaration

/-!
# Tables of names

The declared names of one category, in the order of their declaration, with a counter for each
stem that new names were made from.
-/

namespace Retarget

/-- The next number to try for each stem of generated names. -/
abbrev Counters := OrderedMap String Nat

/-- The least number from `start` on whose name is free. Among more numbers than there are names
taken one is free, so `tries` above their count find it. -/
def firstFree (isFree : String → Bool) (stem : String) : Nat → Nat → Nat
  | 0, start => start
  | tries + 1, start =>
    if isFree (stem ++ toString start) then start
    else firstFree isFree stem tries (start + 1)

/-- The declared names of one category. -/
structure NameTable where
  category : Category
  entries : List (String × EntityId) := []
  counters : Counters := OrderedMap.empty
  /-- Put in front of every generated name. -/
  uniquifier : String := ""
deriving DecidableEq, Repr

instance : Inhabited NameTable := ⟨{ category := .reserved }⟩

namespace NameTable

/-- The stem of a generated name. -/
def uniquify (table : NameTable) (stem : String) : String :=
  table.uniquifier ++ stem

/-- The entity that has a name. -/
def lookup? (table : NameTable) (name : String) : Option EntityId :=
  OrderedMap.lookup name table.entries

/-- Whether no entity has a name. -/
def isFree (table : NameTable) (name : String) : Bool :=
  (table.lookup? name).isNone

def isEmpty (table : NameTable) : Bool :=
  table.entries.isEmpty

def nameOf? (table : NameTable) (entity : EntityId) : Option String :=
  (table.entries.find? fun entry => entry.2 = entity).map Prod.fst

/-- The next name made of a stem and a number that is free in this table, and the table with its
counter moved past it. -/
def numberedName (table : NameTable) (stem : String) : String × NameTable :=
  let stem := table.uniquify stem
  let start := (table.counters.get? stem).getD 0
  let number := firstFree table.isFree stem (table.entries.length + 1) start
  (stem ++ toString number, { table with counters := table.counters.insert stem (number + 1) })

/-- A name that is free in this table: the stem itself where it is free, otherwise the next
numbered one. -/
def freeName (table : NameTable) (stem : String) : String × NameTable :=
  if table.isFree (table.uniquify stem) then (table.uniquify stem, table)
  else table.numberedName stem

/-- Gives an entity a name. Neither may be in the table already. -/
def declare (table : NameTable) (name : String) (entity : EntityId) : Except Fault NameTable :=
  if !table.isFree name then .error (.nameCollision name table.category)
  else
    match table.nameOf? entity with
    | some existing => .error (.alreadyDeclared existing name table.category)
    | none => .ok { table with entries := table.entries ++ [(name, entity)] }

/-- The declarations of all names, in order. -/
def declarations (table : NameTable) (language : Language) (entities : Entities) : String :=
  String.join (table.entries.map fun (name, id) => (entities.entity id).declaration language name)

/-- What sets all names up after their declarations. -/
def initializations (table : NameTable) (language : Language) (entities : Entities) : String :=
  String.join
    (table.entries.map fun (name, id) => (entities.entity id).initialization language name)

end NameTable

end Retarget
