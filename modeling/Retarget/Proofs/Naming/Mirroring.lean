import Retarget.Proofs.Data.Pairing
import Retarget.Proofs.Naming.Declaring
import Retarget.Proofs.State.Together

/-!
# Names that mirror each other

Two runs give the same names where their scopes see the same names. Tables that were there before
both set out hold the same names in both, though maybe for other entities. Tables made since then are
the same but for the places of entities, so their declarations read the same.
-/

namespace Retarget

open List

/-- Which tables and entities of two runs stand for each other. -/
structure NamePairing where
  tables : Pairing
  entities : Pairing
  /-- The names in each table that is given. -/
  statics : TableId → List String
  uniquifier : String

namespace NameTable

/-- The table has just these names, and no name was made from its counters. -/
structure Holds (uniquifier : String) (names : List String) (table : NameTable) : Prop where
  names : table.entries.map Prod.fst = names
  counters : table.counters = OrderedMap.empty
  uniquifier : table.uniquifier = uniquifier

/-- Two tables with the same names and counters. -/
structure Alike (table other : NameTable) : Prop where
  names : table.entries.map Prod.fst = other.entries.map Prod.fst
  counters : table.counters = other.counters
  uniquifier : table.uniquifier = other.uniquifier

/-- Two tables with the same names and counters, for entities that stand for each other. -/
structure Mirrors (entities : Pairing) (table other : NameTable) : Prop where
  entries : List.Forall₂ (fun entry entry' : String × EntityId =>
    entry.1 = entry'.1 ∧ entities.Pairs entry.2 entry'.2) table.entries other.entries
  counters : table.counters = other.counters
  uniquifier : table.uniquifier = other.uniquifier

variable {entities : Pairing} {table other : NameTable} {uniquifier : String} {names : List String}

theorem Holds.alike (holds : table.Holds uniquifier names) (holds' : other.Holds uniquifier names) :
    table.Alike other :=
  ⟨holds.names.trans holds'.names.symm, holds.counters.trans holds'.counters.symm,
    holds.uniquifier.trans holds'.uniquifier.symm⟩

theorem Mirrors.alike (mirrors : table.Mirrors entities other) : table.Alike other := by
  refine ⟨?_, mirrors.counters, mirrors.uniquifier⟩
  have entries := mirrors.entries
  generalize table.entries = first at entries
  generalize other.entries = second at entries
  induction entries with
  | nil => rfl
  | cons here _ ih => rw [map_cons, map_cons, here.1, ih]

theorem Alike.isFree_eq (alike : table.Alike other) : table.isFree = other.isFree := by
  funext name
  rw [Bool.eq_iff_iff, isFree, isFree, Option.isNone_iff_eq_none, Option.isNone_iff_eq_none,
    ← Option.not_isSome_iff_eq_none, ← Option.not_isSome_iff_eq_none, lookup?, lookup?,
    ← OrderedMap.mem_keys_iff_lookup, ← OrderedMap.mem_keys_iff_lookup, alike.names]

theorem Alike.length_eq (alike : table.Alike other) :
    table.entries.length = other.entries.length := by
  have same := congrArg List.length alike.names
  rw [length_map, length_map] at same
  exact same

/-- A numbered name is the same in both tables, and moves their counters in the same way. -/
theorem Mirrors.numberedName (mirrors : table.Mirrors entities other) (stem : String) :
    (table.numberedName stem).1 = (other.numberedName stem).1 ∧
      (table.numberedName stem).2.Mirrors entities (other.numberedName stem).2 := by
  have alike := mirrors.alike
  unfold NameTable.numberedName uniquify
  dsimp only
  rw [alike.isFree_eq, alike.length_eq, mirrors.counters, mirrors.uniquifier]
  exact ⟨rfl, mirrors.entries, rfl, rfl⟩

theorem Mirrors.freeName (mirrors : table.Mirrors entities other) (stem : String) :
    (table.freeName stem).1 = (other.freeName stem).1 ∧
      (table.freeName stem).2.Mirrors entities (other.freeName stem).2 := by
  have same : table.isFree (table.uniquify stem) = other.isFree (other.uniquify stem) := by
    rw [mirrors.alike.isFree_eq, uniquify, uniquify, mirrors.uniquifier]
  unfold NameTable.freeName
  rw [same]
  split
  · refine ⟨?_, mirrors⟩
    rw [uniquify, uniquify, mirrors.uniquifier]
  · exact mirrors.numberedName stem

end NameTable

/-- Tables that were given hold the same names, and those made since then mirror each other. -/
structure NameTables.Mirrors (pairing : NamePairing) (tables other : NameTables) : Prop where
  size : pairing.tables.Beyond tables.size other.size
  given : ∀ {id partner}, pairing.tables.given id partner →
    (tables.table id).Holds pairing.uniquifier (pairing.statics id) ∧
      (other.table partner).Holds pairing.uniquifier (pairing.statics id)
  beyond : ∀ {id partner}, pairing.tables.Beyond id partner →
    (tables.table id).Mirrors pairing.entities (other.table partner)

namespace NameTables.Mirrors

variable {pairing : NamePairing} {tables other : NameTables} {id partner : TableId}

theorem alike (mirrors : tables.Mirrors pairing other) (pairs : pairing.tables.Pairs id partner) :
    (tables.table id).Alike (other.table partner) := by
  rcases pairs with given | beyond
  · exact (mirrors.given given).1.alike (mirrors.given given).2
  · exact (mirrors.beyond beyond).alike

/-- Tables that were made since then are written in both. -/
theorem set (mirrors : tables.Mirrors pairing other) (beyond : pairing.tables.Beyond id partner)
    {table table' : NameTable} (same : table.Mirrors pairing.entities table') :
    NameTables.Mirrors pairing (tables.setIfInBounds id table)
      (other.setIfInBounds partner table') where
  size := by
    rw [Array.size_setIfInBounds, Array.size_setIfInBounds]
    exact mirrors.size
  given {place place'} given := by
    have apart := pairing.tables.below given
    have after := beyond.le
    have left : id ≠ place := Nat.ne_of_gt (Nat.lt_of_lt_of_le apart.1 after.1)
    have right : partner ≠ place' := Nat.ne_of_gt (Nat.lt_of_lt_of_le apart.2 after.2)
    rw [table_setIfInBounds, table_setIfInBounds, if_neg fun both => left both.1,
      if_neg fun both => right both.1]
    exact mirrors.given given
  beyond {place place'} beyond' := by
    have here : id = place ↔ partner = place' :=
      Pairing.Pairs.eq_iff (.inr beyond) (.inr beyond')
    have inside : id < tables.size ↔ partner < other.size := beyond.lt_iff mirrors.size
    rw [table_setIfInBounds, table_setIfInBounds]
    simp only [here, inside]
    split
    · exact same
    · exact mirrors.beyond beyond'

end NameTables.Mirrors

/-- Two scopes that see tables which stand for each other, with the same counters. -/
structure Scope.Mirrors (tables : Pairing) (shared : Category → Bool) (scope other : Scope) :
    Prop where
  own : ∀ category, tables.Pairs (scope.own category) (other.own category)
  fresh : ∀ category, shared category = false →
    tables.Beyond (scope.own category) (other.own category)
  enclosing : List.Forall₂ (fun set set' : TableSet =>
    ∀ category, tables.Pairs (set category) (set' category)) scope.enclosing other.enclosing
  counters : scope.counters = other.counters
  uniquifier : scope.uniquifier = other.uniquifier

namespace Scope.Mirrors

variable {pairing : NamePairing} {shared : Category → Bool} {scope scope' : Scope}
  {tables other : NameTables}

section

variable (mirrors : scope.Mirrors pairing.tables shared scope')

include mirrors

theorem chain :
    List.Forall₂ (fun set set' : TableSet =>
      ∀ category, pairing.tables.Pairs (set category) (set' category)) scope.chain scope'.chain :=
  .cons mirrors.own mirrors.enclosing

section

variable (same : tables.Mirrors pairing other)

include same

theorem isFree_eq : scope.isFree tables = scope'.isFree other := by
  funext name
  have sets := mirrors.chain
  unfold Scope.isFree
  generalize scope.chain = chain at sets
  generalize scope'.chain = chain' at sets
  induction sets with
  | nil => rfl
  | cons here _ ih =>
    rw [all_cons, all_cons, ih]
    congr 1
    simp only [TableSet.isFree, (same.alike (here _)).isFree_eq]

theorem nameCount_eq : scope.nameCount tables = scope'.nameCount other := by
  have sets := mirrors.chain
  unfold Scope.nameCount
  generalize scope.chain = chain at sets
  generalize scope'.chain = chain' at sets
  induction sets with
  | nil => rfl
  | cons here _ ih =>
    rw [flatMap_cons, flatMap_cons, length_append, length_append, ih]
    congr 1
    simp only [length_flatMap, (same.alike (here _)).length_eq]

theorem freeName (stem : String) :
    (scope.freeName tables stem).1 = (scope'.freeName other stem).1 ∧
      (scope.freeName tables stem).2.Mirrors pairing.tables shared
        (scope'.freeName other stem).2 := by
  unfold Scope.freeName
  dsimp only
  rw [mirrors.isFree_eq same, mirrors.nameCount_eq same, mirrors.uniquifier, mirrors.counters]
  split
  · exact ⟨rfl, mirrors⟩
  · exact ⟨rfl, { mirrors with counters := rfl, uniquifier := rfl }⟩

end

section

variable (fresh : shared .constant = false) (same : tables.Mirrors pairing other) (stem : String)

include fresh same

theorem nextConstantName (tries : Nat) (candidate : String) :
    (scope.nextConstantName stem tries tables candidate).1 =
        (scope'.nextConstantName stem tries other candidate).1 ∧
      (scope.nextConstantName stem tries tables candidate).2.Mirrors pairing
        (scope'.nextConstantName stem tries other candidate).2 := by
  induction tries generalizing tables other candidate with
  | zero => exact ⟨rfl, same⟩
  | succ tries ih =>
    have own := mirrors.fresh .constant fresh
    obtain ⟨name, moved⟩ := (same.beyond own).numberedName stem
    unfold Scope.nextConstantName
    rw [mirrors.isFree_eq same]
    split
    · exact ⟨rfl, same⟩
    · dsimp only
      rw [name]
      exact ih (same.set own moved) _

theorem freeConstantName :
    (scope.freeConstantName tables stem).1 = (scope'.freeConstantName other stem).1 ∧
      (scope.freeConstantName tables stem).2.Mirrors pairing
        (scope'.freeConstantName other stem).2 := by
  have own := mirrors.fresh .constant fresh
  obtain ⟨name, moved⟩ := (same.beyond own).freeName stem
  unfold Scope.freeConstantName
  dsimp only
  rw [name, mirrors.nameCount_eq same]
  exact mirrors.nextConstantName fresh (same.set own moved) stem _ _

end

/-- Entities that stand for each other get one name. -/
theorem declare {category : Category} (fresh : shared category = false)
    (same : tables.Mirrors pairing other) {name : String} {entity entity' : EntityId}
    (pairs : pairing.entities.Pairs entity entity') {after after' : NameTables}
    (declared : scope.declare tables category name entity = .ok after)
    (declared' : scope'.declare other category name entity' = .ok after') :
    after.Mirrors pairing after' := by
  have own := mirrors.fresh category fresh
  obtain ⟨_, _, rfl⟩ := declare_eq_ok declared
  obtain ⟨_, _, rfl⟩ := declare_eq_ok declared'
  have mirrored := same.beyond own
  exact same.set own
    { mirrored with entries := rel_append mirrored.entries (.cons ⟨rfl, pairs⟩ .nil) }

end

end Scope.Mirrors

/-- Entities that stand for each other are the same. -/
structure Entities.Mirrors (pairing : Pairing) (entities other : Entities) : Prop where
  size : pairing.Beyond entities.size other.size
  same : ∀ {id partner}, pairing.Pairs id partner → entities.entity id = other.entity partner

theorem Entities.Mirrors.push {pairing : Pairing} {entities other : Entities}
    (mirrors : entities.Mirrors pairing other) (entity : Entity) :
    Entities.Mirrors pairing (entities.push entity) (other.push entity) := by
  refine ⟨?_, fun {id partner} pairs => ?_⟩
  · rw [Array.size_push, Array.size_push]
    exact mirrors.size.add 1
  · have last : id = entities.size ↔ partner = other.size := pairs.eq_iff (.inr mirrors.size)
    unfold Entities.entity
    rw [Array.getElem?_push, Array.getElem?_push]
    by_cases here : id = entities.size
    · rw [if_pos here, if_pos (last.mp here)]
    · rw [if_neg here, if_neg (mt last.mpr here)]
      exact mirrors.same pairs

/-- The names of two scopes that mirror each other. -/
structure Naming.Mirrors (pairing : NamePairing) (shared : Category → Bool)
    (naming other : Naming) : Prop where
  entities : naming.entities.Mirrors pairing.entities other.entities
  tables : naming.tables.Mirrors pairing other.tables
  scope : naming.scope.Mirrors pairing.tables shared other.scope

namespace Naming

variable {category : Category} {pairing : NamePairing} {shared : Category → Bool}
  {naming other : Naming}

theorem freeName_agrees (stem : String) :
    Agrees (Mirrors pairing shared) (freeName stem) (freeName stem) := by
  rintro naming other mirrors _ _ _ _ ⟨⟩ ⟨⟩
  obtain ⟨name, scope⟩ := mirrors.scope.freeName mirrors.tables stem
  exact ⟨name, mirrors.entities, mirrors.tables, scope⟩

theorem freeConstantName_agrees (fresh : shared .constant = false) (stem : String) :
    Agrees (Mirrors pairing shared) (freeConstantName stem) (freeConstantName stem) := by
  rintro naming other mirrors _ _ _ _ ⟨⟩ ⟨⟩
  obtain ⟨name, tables⟩ := mirrors.scope.freeConstantName fresh mirrors.tables stem
  exact ⟨name, mirrors.entities, tables, mirrors.scope⟩

theorem alloc_together (mirrors : naming.Mirrors pairing shared other) (entity : Entity) :
    Together (alloc entity) naming (alloc entity) other fun id partner next beside =>
      pairing.entities.Pairs id partner ∧ next.Mirrors pairing shared beside := by
  rintro _ _ _ _ ⟨⟩ ⟨⟩
  exact ⟨.inr mirrors.entities.size, mirrors.entities.push entity, mirrors.tables, mirrors.scope⟩

theorem declare_together (mirrors : naming.Mirrors pairing shared other)
    (fresh : shared category = false) (name : String) {entity entity' : EntityId}
    (pairs : pairing.entities.Pairs entity entity') :
    Together (declare category name entity) naming (declare category name entity') other
      fun _ _ next beside => next.Mirrors pairing shared beside := by
  intro _ _ next beside done also
  rcases declare_cases category name entity naming with ⟨tables, declared, ended⟩ | ⟨_, ended⟩
  · rcases declare_cases category name entity' other with ⟨tables', declared', ended'⟩ | ⟨_, ended'⟩
    · cases ended.symm.trans done
      cases ended'.symm.trans also
      exact ⟨mirrors.entities, mirrors.scope.declare fresh mirrors.tables pairs declared declared',
        mirrors.scope⟩
    · cases ended'.symm.trans also
  · cases ended.symm.trans done

/-- A new entity gets the same name in both runs. -/
theorem declareNew_agrees (fresh : shared category = false) (stem : String) (entity : Entity) :
    Agrees (Mirrors pairing shared) (declareNew category stem entity)
      (declareNew category stem entity) := by
  intro naming other mirrors
  refine (freeName_agrees stem naming other mirrors).bind ?_
  rintro name _ next beside ⟨rfl, mirrors⟩
  refine (alloc_together mirrors entity).bind ?_
  rintro id partner next beside ⟨pairs, mirrors⟩
  exact (declare_together mirrors fresh name pairs).bind fun _ _ _ _ mirrors => .pure ⟨rfl, mirrors⟩

theorem declareConstantValue_agrees (fresh : shared .constant = false) (value : Scalar)
    (format : Format) (stem : String) :
    Agrees (Mirrors pairing shared) (declareConstantValue value format stem)
      (declareConstantValue value format stem) := by
  intro naming other mirrors
  refine (alloc_together mirrors _).bind ?_
  rintro id partner next beside ⟨pairs, mirrors⟩
  refine (freeConstantName_agrees fresh stem next beside mirrors).bind ?_
  rintro name _ next beside ⟨rfl, mirrors⟩
  exact (declare_together mirrors fresh name pairs).bind fun _ _ _ _ mirrors => .pure ⟨rfl, mirrors⟩

/-- A given name is taken in both runs. -/
theorem claim_agrees (fresh : shared category = false) (name : String) (entity : Entity) :
    Agrees (Mirrors pairing shared) (do declare category name (← alloc entity))
      (do declare category name (← alloc entity)) := by
  intro naming other mirrors
  refine (alloc_together mirrors entity).bind ?_
  rintro id partner next beside ⟨pairs, mirrors⟩
  exact (declare_together mirrors fresh name pairs).mono fun _ _ _ _ mirrors => ⟨rfl, mirrors⟩

end Naming

end Retarget
