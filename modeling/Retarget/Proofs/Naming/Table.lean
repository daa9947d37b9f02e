import Mathlib.Data.List.Nodup
import Retarget.Naming.Scope

/-!
# Tables of names as one-to-one maps

A table that was filled by declarations gives each name one entity and each entity one name
(`NameTable.Faithful`). A declaration adds its own binding and leaves all others alone; moving a
counter leaves all of them alone.
-/

namespace Retarget

open List

theorem OrderedMap.lookup_append {κ ν : Type} [DecidableEq κ] (key : κ)
    (first second : List (κ × ν)) :
    lookup key (first ++ second) = (lookup key first).or (lookup key second) := by
  induction first with
  | nil => rfl
  | cons entry rest ih =>
    obtain ⟨k, value⟩ := entry
    simp only [cons_append, lookup, ih]
    split <;> rfl

theorem OrderedMap.lookup_eq_some_of_mem {κ ν : Type} [DecidableEq κ] {key : κ} {value : ν}
    {entries : List (κ × ν)} (distinct : (entries.map Prod.fst).Nodup)
    (member : (key, value) ∈ entries) : lookup key entries = some value := by
  induction entries with
  | nil => exact absurd member not_mem_nil
  | cons entry rest ih =>
    obtain ⟨k, other⟩ := entry
    rw [map_cons, nodup_cons] at distinct
    rcases mem_cons.mp member with same | later
    · cases same
      exact if_pos rfl
    · have apart : k ≠ key := by
        rintro rfl
        exact distinct.1 (mem_map.mpr ⟨_, later, rfl⟩)
      rw [lookup, if_neg apart]
      exact ih distinct.2 later

namespace NameTable

variable {table : NameTable} {entity : EntityId} {name : String}

/-- No name and no entity stands twice. -/
structure Faithful (table : NameTable) : Prop where
  names : (table.entries.map Prod.fst).Nodup
  entities : (table.entries.map Prod.snd).Nodup

theorem isFree_iff (table : NameTable) (name : String) :
    table.isFree name ↔ table.lookup? name = none := by
  rw [isFree, Option.isNone_iff_eq_none]

theorem not_isFree_iff (table : NameTable) (name : String) :
    table.isFree name = false ↔ ∃ entity, table.lookup? name = some entity := by
  rw [isFree, ← Option.isSome_iff_exists, ← Option.not_isSome, Bool.not_eq_false']

theorem mem_entries_of_nameOf? (named : table.nameOf? entity = some name) :
    (name, entity) ∈ table.entries := by
  rw [nameOf?, Option.map_eq_some_iff] at named
  obtain ⟨entry, found, rfl⟩ := named
  have same : entry.2 = entity := by simpa using find?_some found
  rw [← same]
  exact mem_of_find?_eq_some found

/-- The name that a table has for an entity is bound to that entity. -/
theorem Faithful.lookup?_of_nameOf? (faithful : table.Faithful)
    (named : table.nameOf? entity = some name) : table.lookup? name = some entity :=
  OrderedMap.lookup_eq_some_of_mem faithful.names (mem_entries_of_nameOf? named)

theorem Faithful.of_entries_eq {other : NameTable} (faithful : table.Faithful)
    (same : other.entries = table.entries) : other.Faithful := by
  constructor <;> rw [same]
  exacts [faithful.names, faithful.entities]

theorem Faithful.of_entries_eq_nil (empty : table.entries = []) : table.Faithful := by
  constructor <;> rw [empty] <;> exact nodup_nil

theorem isFree_of_entries_eq_nil (empty : table.entries = []) : table.isFree name = true := by
  rw [isFree, lookup?, empty]
  rfl

/-- A table with one more binding. -/
def bind (table : NameTable) (name : String) (entity : EntityId) : NameTable :=
  { table with entries := table.entries ++ [(name, entity)] }

/-- A declaration binds a free name of an entity that has none so far. -/
theorem declare_eq_ok {after : NameTable} (declared : table.declare name entity = .ok after) :
    table.isFree name ∧ table.nameOf? entity = none ∧ after = table.bind name entity := by
  unfold declare at declared
  cases free : table.isFree name with
  | false => simp [free] at declared
  | true =>
    rw [free] at declared
    cases named : table.nameOf? entity with
    | some existing => simp [named] at declared
    | none =>
      rw [named] at declared
      cases declared
      exact ⟨rfl, rfl, rfl⟩

theorem lookup?_bind (free : table.isFree name) (entity : EntityId) (other : String) :
    (table.bind name entity).lookup? other =
      if name = other then some entity else table.lookup? other := by
  change OrderedMap.lookup other (table.entries ++ [(name, entity)]) = _
  rw [OrderedMap.lookup_append]
  simp only [OrderedMap.lookup]
  by_cases same : name = other
  · subst same
    have absent : OrderedMap.lookup name table.entries = none := (table.isFree_iff name).mp free
    rw [absent, if_pos rfl, if_pos rfl, Option.none_or]
  · rw [if_neg same, if_neg same, Option.or_none]
    rfl

theorem Faithful.bind (faithful : table.Faithful) (free : table.isFree name)
    (unnamed : table.nameOf? entity = none) : (table.bind name entity).Faithful where
  names := by
    change ((table.entries ++ [(name, entity)]).map Prod.fst).Nodup
    rw [map_append, nodup_append]
    refine ⟨faithful.names, nodup_singleton _, ?_⟩
    rintro known member last inLast rfl
    have isLast : known = name := mem_singleton.mp inLast
    subst isLast
    rw [OrderedMap.mem_keys_iff_lookup] at member
    rw [isFree, lookup?, Option.isNone_iff_eq_none] at free
    rw [free] at member
    exact Bool.false_ne_true member
  entities := by
    change ((table.entries ++ [(name, entity)]).map Prod.snd).Nodup
    rw [map_append, nodup_append]
    refine ⟨faithful.entities, nodup_singleton _, ?_⟩
    rintro known member last inLast rfl
    have isLast : known = entity := mem_singleton.mp inLast
    subst isLast
    obtain ⟨entry, present, same⟩ := mem_map.mp member
    rw [nameOf?, Option.map_eq_none_iff, find?_eq_none] at unnamed
    exact unnamed entry present (decide_eq_true same)

end NameTable

namespace NameTables

theorem table_setIfInBounds (tables : NameTables) (target id : TableId) (table : NameTable) :
    NameTables.table (tables.setIfInBounds target table) id =
      if target = id ∧ target < tables.size then table else tables.table id := by
  unfold NameTables.table
  rw [Array.getElem?_setIfInBounds]
  by_cases same : target = id
  · subst same
    by_cases inside : target < tables.size
    · rw [if_pos rfl, if_pos inside, if_pos ⟨rfl, inside⟩, Option.getD_some]
    · rw [if_pos rfl, if_neg inside, if_neg fun both => inside both.2,
        Array.getElem?_eq_none (Nat.le_of_not_lt inside)]
  · rw [if_neg same, if_neg fun both => same both.1]

theorem faithful_bind {tables : NameTables} (faithful : ∀ id, (tables.table id).Faithful)
    {target : TableId} {name : String} {entity : EntityId}
    (free : (tables.table target).isFree name)
    (unnamed : (tables.table target).nameOf? entity = none) (id : TableId) :
    (NameTables.table
      (tables.setIfInBounds target ((tables.table target).bind name entity)) id).Faithful := by
  rw [table_setIfInBounds]
  split
  · exact (faithful target).bind free unnamed
  · exact faithful id

/-- Tables that were appended stand behind the others. -/
theorem table_append_of_lt (tables more : NameTables) {id : TableId} (inside : id < tables.size) :
    NameTables.table (tables ++ more) id = tables.table id := by
  unfold NameTables.table
  rw [Array.getElem?_append_left inside]

theorem entries_of_size_le {tables : NameTables} {id : TableId}
    (outside : tables.size ≤ id) : (tables.table id).entries = [] := by
  rw [NameTables.table, Array.getElem?_eq_none outside]
  rfl

/-- All names that are bound in some tables stay bound in others. -/
def Persist (before after : NameTables) : Prop :=
  ∀ id name entity, (before.table id).lookup? name = some entity →
    (after.table id).lookup? name = some entity

theorem Persist.trans {first second third : NameTables} (left : Persist first second)
    (right : Persist second third) : Persist first third :=
  fun id name entity known => right id name entity (left id name entity known)

/-- The bindings of all tables are the same; their counters may differ. -/
structure SameEntries (before after : NameTables) : Prop where
  size : after.size = before.size
  entries : ∀ id, (after.table id).entries = (before.table id).entries

namespace SameEntries

theorem refl (tables : NameTables) : SameEntries tables tables :=
  ⟨rfl, fun _ => rfl⟩

theorem trans {first second third : NameTables} (left : SameEntries first second)
    (right : SameEntries second third) : SameEntries first third :=
  ⟨right.size.trans left.size, fun id => (right.entries id).trans (left.entries id)⟩

/-- Moving the counters of one table. -/
theorem setIfInBounds (tables : NameTables) (id : TableId) {table : NameTable}
    (same : table.entries = (tables.table id).entries) :
    SameEntries tables (tables.setIfInBounds id table) where
  size := Array.size_setIfInBounds
  entries other := by
    rw [table_setIfInBounds]
    split
    · rename_i here
      rw [← here.1, same]
    · rfl

theorem lookup? {before after : NameTables} (same : SameEntries before after) (id : TableId)
    (name : String) : (after.table id).lookup? name = (before.table id).lookup? name := by
  unfold NameTable.lookup?
  rw [same.entries]

end SameEntries

end NameTables

namespace NameTable

theorem entries_numberedName (table : NameTable) (stem : String) :
    (table.numberedName stem).2.entries = table.entries := rfl

theorem entries_freeName (table : NameTable) (stem : String) :
    (table.freeName stem).2.entries = table.entries := by
  unfold freeName
  split
  · rfl
  · exact table.entries_numberedName stem

end NameTable

namespace Scope

theorem sameEntries_nextConstantName (scope : Scope) (stem : String) (tries : Nat)
    (tables : NameTables) (candidate : String) :
    NameTables.SameEntries tables (scope.nextConstantName stem tries tables candidate).2 := by
  induction tries generalizing tables candidate with
  | zero => exact .refl tables
  | succ tries ih =>
    unfold nextConstantName
    split
    · exact .refl tables
    · refine .trans (.setIfInBounds tables (scope.own .constant) ?_) (ih _ _)
      exact NameTable.entries_numberedName _ stem

/-- Finding a name for a constant binds nothing. -/
theorem sameEntries_freeConstantName (scope : Scope) (tables : NameTables) (stem : String) :
    NameTables.SameEntries tables (scope.freeConstantName tables stem).2 :=
  .trans (.setIfInBounds tables (scope.own .constant) (NameTable.entries_freeName _ stem))
    (scope.sameEntries_nextConstantName stem _ _ _)

end Scope

end Retarget
