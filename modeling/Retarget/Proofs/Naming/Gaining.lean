import Retarget.Proofs.Naming.Visibility

/-!
# What actions on names bind

An action on the names of a scope makes entities, moves counters and binds at most one new name, in
the table of its category. It changes only the tables of that scope, counters included, and takes no
entity away (`Naming.Confined`). Where it binds a name, the entity is known then (`Naming.Gains`).
-/

namespace Retarget

/-- A name that an entity was given in a category. -/
structure Binding where
  category : Category
  name : String
  id : EntityId
  entity : Entity
deriving DecidableEq, Repr

namespace Binding

/-- The binding in a table of names. -/
def entry (binding : Binding) : String × EntityId :=
  (binding.name, binding.id)

/-- Some bindings as the entries of the table at a place, for the tables of a scope. -/
def entriesAt (own : TableSet) (id : TableId) (bindings : List Binding) :
    List (String × EntityId) :=
  (bindings.filter fun binding => own binding.category = id).map entry

/-- The entities of bindings are known. -/
def Known (entities : Entities) (binding : Binding) : Prop :=
  entities[binding.id]? = some binding.entity

end Binding

theorem NameTables.table_setIfInBounds_of_ne (tables : NameTables) {target id : TableId}
    (table : NameTable) (apart : target ≠ id) :
    NameTables.table (tables.setIfInBounds target table) id = tables.table id := by
  rw [table_setIfInBounds, if_neg fun both => apart both.1]

namespace Scope

/-- The name that some table of the scope has for an entity is not free. -/
theorem not_isFree_of_nameOf? (scope : Scope) {tables : NameTables} {set : TableSet}
    (member : set ∈ scope.chain) {category : Category} {id : EntityId} {name : String}
    (named : (tables.table (set category)).nameOf? id = some name) :
    scope.isFree tables name = false := by
  rw [← Bool.not_eq_true, isFree_iff]
  intro free
  have absent := free (set category) ⟨set, member, category, rfl⟩
  have present := (OrderedMap.mem_keys_iff_lookup name _).mp
    (List.mem_map.mpr ⟨_, NameTable.mem_entries_of_nameOf? named, rfl⟩)
  rw [NameTable.isFree_iff] at absent
  rw [NameTable.lookup?] at absent
  rw [absent] at present
  cases present

theorem isFree_of_sameEntries (scope : Scope) {before after : NameTables}
    (same : before.SameEntries after) (name : String) :
    scope.isFree after name = scope.isFree before name := by
  simp only [isFree, TableSet.isFree, NameTable.isFree, same.lookup?]

theorem table_nextConstantName (scope : Scope) (stem : String) (tries : Nat)
    (tables : NameTables) (candidate : String) {id : TableId} (apart : scope.own .constant ≠ id) :
    (scope.nextConstantName stem tries tables candidate).2.table id = tables.table id := by
  induction tries generalizing tables candidate with
  | zero => rfl
  | succ tries ih =>
    unfold nextConstantName
    split
    · rfl
    · rw [ih, NameTables.table_setIfInBounds_of_ne _ _ apart]

end Scope

namespace Naming

/-- The tables of the scope's own categories exist. -/
def Founded (naming : Naming) : Prop :=
  ∀ category, naming.scope.own category < naming.tables.size

/-- At most one name was bound, and all tables but the scope's own are as they were. -/
structure Confined (before after : Naming) (new : Option Binding) : Prop where
  chain : after.scope.chain = before.scope.chain
  size : after.tables.size = before.tables.size
  entries : ∀ id, (after.tables.table id).entries =
    (before.tables.table id).entries ++ Binding.entriesAt before.scope.own id new.toList
  elsewhere : ∀ id, (∀ category, before.scope.own category ≠ id) →
    after.tables.table id = before.tables.table id
  entities : ∀ (id : EntityId) (entity : Entity), before.entities[id]? = some entity →
    after.entities[id]? = some entity

/-- Counters moved and entities were made, and at most one name was bound, of a known entity. -/
structure Gains (before after : Naming) (new : Option Binding) : Prop
    extends Confined before after new where
  known : ∀ binding ∈ new, binding.Known after.entities

namespace Confined

variable {before middle after : Naming} {new : Option Binding}

/-- An action that binds nothing. -/
theorem of_sameEntries (chain : after.scope.chain = before.scope.chain)
    (same : before.tables.SameEntries after.tables)
    (elsewhere : ∀ id, (∀ category, before.scope.own category ≠ id) →
      after.tables.table id = before.tables.table id)
    (entities : ∀ (id : EntityId) (entity : Entity), before.entities[id]? = some entity →
      after.entities[id]? = some entity) : Confined before after none :=
  ⟨chain, same.size, fun id => (same.entries id).trans (List.append_nil _).symm, elsewhere, entities⟩

theorem refl (naming : Naming) : Confined naming naming none :=
  .of_sameEntries rfl (.refl _) (fun _ _ => rfl) fun _ _ => id

theorem own (confined : Confined before after new) : after.scope.own = before.scope.own :=
  (List.cons.inj confined.chain).1

/-- Whatever binds nothing may come first. -/
theorem trans (left : Confined before middle none) (right : Confined middle after new) :
    Confined before after new where
  chain := right.chain.trans left.chain
  size := right.size.trans left.size
  entries id := by
    rw [right.entries, left.entries, left.own]
    exact congrArg (· ++ _) (List.append_nil _)
  elsewhere id apart := by
    rw [right.elsewhere id (by rw [left.own]; exact apart), left.elsewhere id apart]
  entities id entity known := right.entities id entity (left.entities id entity known)

theorem founded (confined : Confined before after new) (founded : before.Founded) :
    after.Founded := by
  intro category
  rw [confined.own, confined.size]
  exact founded category

section

variable (confined : Confined before after none)

include confined

theorem gains : Gains before after none :=
  ⟨confined, nofun⟩

theorem sameEntries : before.tables.SameEntries after.tables :=
  ⟨confined.size, fun id => (confined.entries id).trans (List.append_nil _)⟩

/-- Without a new binding, the same names are free. -/
theorem isFree_eq (name : String) :
    after.scope.isFree after.tables name = before.scope.isFree before.tables name := by
  rw [← before.scope.isFree_of_sameEntries confined.sameEntries, Scope.isFree, Scope.isFree,
    confined.chain]

end

end Confined

theorem alloc_confined (entity : Entity) (naming : Naming) :
    Confined naming (finalState (alloc entity naming)) none := by
  refine .of_sameEntries rfl (.refl _) (fun _ _ => rfl) fun id known found => ?_
  obtain ⟨inside, rfl⟩ := Array.getElem?_eq_some_iff.mp found
  exact Array.getElem?_push_lt inside

theorem freeName_confined (stem : String) (naming : Naming) :
    Confined naming (finalState (freeName stem naming)) none :=
  .of_sameEntries (naming.scope.chain_freeName naming.tables stem) (.refl _) (fun _ _ => rfl)
    fun _ _ => id

theorem freeConstantName_confined (stem : String) (naming : Naming) :
    Confined naming (finalState (freeConstantName stem naming)) none := by
  refine .of_sameEntries rfl (naming.scope.sameEntries_freeConstantName naming.tables stem)
    (fun id apart => ?_) fun _ _ => id
  change (naming.scope.freeConstantName naming.tables stem).2.table id = _
  unfold Scope.freeConstantName
  rw [Scope.table_nextConstantName _ _ _ _ _ (apart .constant),
    NameTables.table_setIfInBounds_of_ne _ _ (apart .constant)]

theorem alloc_eq_ok (entity : Entity) (naming : Naming) :
    alloc entity naming = .ok naming.entities.size (finalState (alloc entity naming)) := rfl

theorem freeName_eq_ok (stem : String) (naming : Naming) :
    freeName stem naming =
      .ok (naming.scope.freeName naming.tables stem).1 (finalState (freeName stem naming)) := rfl

end Naming

end Retarget
