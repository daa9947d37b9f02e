import Retarget.Naming.Declaring
import Retarget.Proofs.Naming.Table
import Retarget.Proofs.State.Changes

/-!
# What a scope sees

A scope sees its own tables and those of the scopes around it, and the same table may be seen
through several scopes. Declarations keep the names of the tables it sees apart (`NamesApart`): a
name is held by one of them at most. No declaration takes a binding away.
-/

namespace Retarget

open List

theorem Category.mem_all (category : Category) : category ∈ Category.all := by
  cases category <;> decide

theorem Category.index_lt (category : Category) : category.index < 7 := by
  cases category <;> decide

namespace Scope

variable {scope : Scope} {tables : NameTables}

/-- A table is one of the scope's own or of a scope around it. -/
def Sees (scope : Scope) (id : TableId) : Prop :=
  ∃ set ∈ scope.chain, ∃ category, set category = id

theorem sees_own (scope : Scope) (category : Category) : scope.Sees (scope.own category) :=
  ⟨scope.own, mem_cons_self, category, rfl⟩

theorem isFree_iff (scope : Scope) (tables : NameTables) (name : String) :
    scope.isFree tables name ↔ ∀ id, scope.Sees id → (tables.table id).isFree name := by
  simp only [isFree, TableSet.isFree, all_eq_true]
  constructor
  · rintro free _ ⟨set, member, category, rfl⟩
    exact free set member category (Category.mem_all category)
  · intro free set member category _
    exact free _ ⟨set, member, category, rfl⟩

theorem holder?_eq_none_iff {name : String} :
    scope.holder? tables name = none ↔ scope.isFree tables name = true := by
  simp [holder?, isFree, TableSet.holder?, TableSet.isFree]

/-- Each name is held by at most one of the tables that the scope sees. -/
structure NamesApart (scope : Scope) (tables : NameTables) : Prop where
  inside : ∀ id, scope.Sees id → id < tables.size
  faithful : ∀ id, (tables.table id).Faithful
  apart : ∀ name first second, scope.Sees first → scope.Sees second →
    (tables.table first).isFree name = false → (tables.table second).isFree name = false →
    first = second

theorem NamesApart.of_sameEntries {other : Scope} {before after : NameTables}
    (apart : scope.NamesApart before) (chain : other.chain = scope.chain)
    (same : before.SameEntries after) : other.NamesApart after := by
  have seen : ∀ id, other.Sees id → scope.Sees id := fun id sees => by
    rw [Sees, chain] at sees
    exact sees
  refine ⟨fun id sees => ?_, fun id => (apart.faithful id).of_entries_eq (same.entries id),
    fun name first second firstSeen secondSeen firstHolds secondHolds => ?_⟩
  · rw [same.size]
    exact apart.inside id (seen id sees)
  · rw [NameTable.isFree, same.lookup?] at firstHolds secondHolds
    exact apart.apart name first second (seen first firstSeen) (seen second secondSeen) firstHolds
      secondHolds

section Declare

variable {scope : Scope} {before after : NameTables} {category : Category} {name : String}
  {entity : EntityId}

section

variable (declared : scope.declare before category name entity = .ok after)

include declared

/-- A declaration binds a name that is free in all tables seen, in the table of its category. -/
theorem declare_eq_ok :
    (∀ id, scope.Sees id → (before.table id).isFree name) ∧
      (before.table (scope.own category)).nameOf? entity = none ∧
      after = before.setIfInBounds (scope.own category)
        ((before.table (scope.own category)).bind name entity) := by
  unfold declare at declared
  cases held : scope.holder? before name with
  | some holder => simp [held] at declared
  | none =>
    rw [held] at declared
    obtain ⟨table, bound, ended⟩ := except_bind_eq_ok.mp declared
    cases ended
    obtain ⟨_, unnamed, rfl⟩ := NameTable.declare_eq_ok bound
    exact ⟨(scope.isFree_iff before name).mp (holder?_eq_none_iff.mp held), unnamed, rfl⟩

theorem size_declare : after.size = before.size := by
  obtain ⟨_, _, rfl⟩ := declare_eq_ok declared
  exact Array.size_setIfInBounds

/-- What a declaration does to the bindings of each table. -/
theorem lookup?_declare (id : TableId) (other : String) :
    (after.table id).lookup? other =
      if (scope.own category = id ∧ scope.own category < before.size) ∧ name = other then
        some entity
      else (before.table id).lookup? other := by
  obtain ⟨free, _, rfl⟩ := declare_eq_ok declared
  rw [NameTables.table_setIfInBounds]
  by_cases here : scope.own category = id ∧ scope.own category < before.size
  · obtain ⟨rfl, inside⟩ := here
    rw [if_pos ⟨rfl, inside⟩, NameTable.lookup?_bind (free _ (scope.sees_own category))]
    by_cases same : name = other
    · rw [if_pos same, if_pos ⟨⟨rfl, inside⟩, same⟩]
    · rw [if_neg same, if_neg fun both => same both.2]
  · rw [if_neg here, if_neg fun both => here both.1]

/-- A declaration takes no binding away. -/
theorem lookup?_declare_of_lookup? {id : TableId} {other : String} {bound : EntityId}
    (known : (before.table id).lookup? other = some bound) :
    (after.table id).lookup? other = some bound := by
  rw [lookup?_declare declared, if_neg, known]
  rintro ⟨⟨rfl, _⟩, rfl⟩
  have free := (declare_eq_ok declared).1 _ (scope.sees_own category)
  rw [NameTable.isFree_iff, known] at free
  cases free

end

theorem NamesApart.declare (apart : scope.NamesApart before)
    (declared : scope.declare before category name entity = .ok after) :
    scope.NamesApart after where
  inside id seen := by
    rw [size_declare declared]
    exact apart.inside id seen
  faithful := by
    obtain ⟨free, unnamed, rfl⟩ := declare_eq_ok declared
    exact NameTables.faithful_bind apart.faithful (free _ (scope.sees_own category)) unnamed
  apart other first second firstSeen secondSeen firstHolds secondHolds := by
    have free := (declare_eq_ok declared).1
    -- Only the table of the category can have come to hold a name, and only the declared one.
    have origin : ∀ id, scope.Sees id → (after.table id).isFree other = false →
        (name = other ∧ scope.own category = id) ∨
          (name ≠ other ∧ (before.table id).isFree other = false) := by
      intro id seen holds
      rw [NameTable.isFree, lookup?_declare declared] at holds
      by_cases same : name = other
      · subst same
        refine .inl ⟨rfl, ?_⟩
        by_contra elsewhere
        rw [if_neg fun both => elsewhere both.1.1] at holds
        have unheld := free id seen
        rw [NameTable.isFree, holds] at unheld
        exact Bool.false_ne_true unheld
      · rw [if_neg fun both => same both.2] at holds
        exact .inr ⟨same, holds⟩
    rcases origin first firstSeen firstHolds with ⟨same, rfl⟩ | ⟨different, firstHeld⟩ <;>
      rcases origin second secondSeen secondHolds with ⟨same', rfl⟩ | ⟨different', secondHeld⟩
    · rfl
    · exact absurd same different'
    · exact absurd same' different
    · exact apart.apart other first second firstSeen secondSeen firstHeld secondHeld

end Declare

theorem chain_freeName (scope : Scope) (tables : NameTables) (stem : String) :
    (scope.freeName tables stem).2.chain = scope.chain := by
  unfold freeName
  dsimp only
  split <;> rfl

/-- An entity has a name in a category of the scope or of one around it. -/
def Binds (scope : Scope) (tables : NameTables) (category : Category) (name : String)
    (entity : EntityId) : Prop :=
  ∃ set ∈ scope.chain, (tables.table (set category)).lookup? name = some entity

theorem sees_of_enclosing {inner outer : Scope} (nested : inner.enclosing = outer.chain)
    {id : TableId} (seen : outer.Sees id) : inner.Sees id := by
  obtain ⟨set, member, category, same⟩ := seen
  exact ⟨set, mem_cons_of_mem _ (nested ▸ member), category, same⟩

theorem NamesApart.of_enclosing {inner outer : Scope} {tables : NameTables}
    (apart : inner.NamesApart tables) (nested : inner.enclosing = outer.chain) :
    outer.NamesApart tables where
  inside id seen := apart.inside id (sees_of_enclosing nested seen)
  faithful := apart.faithful
  apart name first second firstSeen secondSeen :=
    apart.apart name first second (sees_of_enclosing nested firstSeen)
      (sees_of_enclosing nested secondSeen)

/-- Where nothing is bound, all names are apart. -/
theorem NamesApart.of_entries_eq_nil {scope : Scope} {tables : NameTables}
    (inside : ∀ id, scope.Sees id → id < tables.size)
    (empty : ∀ id, (tables.table id).entries = []) : scope.NamesApart tables where
  inside := inside
  faithful id := NameTable.Faithful.of_entries_eq_nil (empty id)
  apart name first second _ _ held _ := by
    rw [NameTable.isFree_of_entries_eq_nil (empty first)] at held
    cases held

section Create

variable {id : TableId} {tables : NameTables} {shared : Category → Option TableId}
  {uniquifier : String}

theorem size_create (enclosing : List TableSet) :
    (create tables shared enclosing uniquifier).1.size = tables.size + 7 := by
  change (tables ++ _).size = _
  rw [Array.size_append]
  rfl

theorem table_create_of_lt (enclosing : List TableSet) (old : id < tables.size) :
    (create tables shared enclosing uniquifier).1.table id = tables.table id :=
  NameTables.table_append_of_lt tables _ old

theorem entries_fresh (uniquifier : String) (id : TableId) :
    (NameTables.table (Category.all.map fun category =>
      ({ category, uniquifier } : NameTable)).toArray id).entries = [] := by
  rw [NameTables.table, getElem?_toArray, getElem?_map]
  cases Category.all[id]? <;> rfl

/-- A created scope brings no names along. -/
theorem entries_create (enclosing : List TableSet) (id : TableId) :
    ((create tables shared enclosing uniquifier).1.table id).entries =
      (tables.table id).entries := by
  by_cases old : id < tables.size
  · rw [table_create_of_lt _ old]
  · have new := Nat.le_of_not_lt old
    change (NameTables.table (tables ++ _) id).entries = _
    rw [NameTables.table, Array.getElem?_append_right new, NameTables.entries_of_size_le new]
    exact entries_fresh uniquifier (id - tables.size)

/-- A created scope sees what it was given to share, what is around it, and new tables. -/
theorem sees_create {outer : Scope}
    (given : ∀ category id, shared category = some id → outer.Sees id)
    (seen : (create tables shared outer.chain uniquifier).2.Sees id) :
    outer.Sees id ∨ (tables.size ≤ id ∧ id < tables.size + 7) := by
  obtain ⟨set, member, category, rfl⟩ := seen
  rcases mem_cons.mp member with rfl | around
  · have own : (create tables shared outer.chain uniquifier).2.own category =
        (shared category).getD (tables.size + category.index) := rfl
    rw [own]
    cases found : shared category with
    | some id => exact .inl (given category id found)
    | none =>
      exact .inr ⟨Nat.le_add_right _ _, Nat.add_lt_add_left category.index_lt _⟩
  · exact .inl ⟨set, around, category, rfl⟩

theorem NamesApart.create {outer : Scope} (apart : outer.NamesApart tables)
    (given : ∀ category id, shared category = some id → outer.Sees id) :
    (create tables shared outer.chain uniquifier).2.NamesApart
      (create tables shared outer.chain uniquifier).1 where
  inside id seen := by
    rw [size_create]
    rcases sees_create given seen with old | new
    · exact Nat.lt_add_right 7 (apart.inside id old)
    · exact new.2
  faithful id := (apart.faithful id).of_entries_eq (entries_create _ id)
  apart name first second firstSeen secondSeen firstHolds secondHolds := by
    -- A table that holds a name is not new.
    have origin : ∀ id, (Scope.create tables shared outer.chain uniquifier).2.Sees id →
        ((Scope.create tables shared outer.chain uniquifier).1.table id).isFree name = false →
        outer.Sees id ∧ (tables.table id).isFree name = false := by
      intro id seen holds
      rw [NameTable.isFree, NameTable.lookup?, entries_create] at holds
      rcases sees_create given seen with old | new
      · exact ⟨old, holds⟩
      · rw [NameTables.entries_of_size_le new.1] at holds
        cases holds
    obtain ⟨firstOld, firstHeld⟩ := origin first firstSeen firstHolds
    obtain ⟨secondOld, secondHeld⟩ := origin second secondSeen secondHolds
    exact apart.apart name first second firstOld secondOld firstHeld secondHeld

end Create

end Scope

end Retarget
