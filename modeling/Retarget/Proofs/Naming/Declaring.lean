import Retarget.Proofs.Naming.Gaining

/-!
# What actions on names keep

No action on the names of a scope takes a binding or an entity away or changes which tables the
scope sees, and all of them keep names apart (`Naming.Grows`). A declaration that succeeds binds the
name that it gives.
-/

namespace Retarget

namespace Naming

/-- What stays when names are taken and entities are declared. -/
structure Grows (before after : Naming) : Prop where
  chain : after.scope.chain = before.scope.chain
  size : after.tables.size = before.tables.size
  bound : before.tables.Persist after.tables
  entities : ∀ (id : EntityId) (entity : Entity), before.entities[id]? = some entity →
    after.entities[id]? = some entity
  apart : before.scope.NamesApart before.tables → after.scope.NamesApart after.tables

namespace Grows

theorem refl (naming : Naming) : Grows naming naming :=
  ⟨rfl, rfl, fun _ _ _ => id, fun _ _ => id, id⟩

theorem trans {first second third : Naming} (left : Grows first second)
    (right : Grows second third) : Grows first third where
  chain := right.chain.trans left.chain
  size := right.size.trans left.size
  bound := left.bound.trans right.bound
  entities id entity known := right.entities id entity (left.entities id entity known)
  apart names := right.apart (left.apart names)

instance : Std.Refl Grows := ⟨refl⟩

instance : IsTrans Naming Grows := ⟨fun _ _ _ => trans⟩

theorem own {before after : Naming} (grows : Grows before after) :
    after.scope.own = before.scope.own :=
  (List.cons.inj grows.chain).1

end Grows

/-- Without a new binding, names stay apart. -/
theorem Confined.grows {before after : Naming} (confined : Confined before after none) :
    Grows before after where
  chain := confined.chain
  size := confined.size
  bound id name _ known := (confined.sameEntries.lookup? id name).trans known
  entities := confined.entities
  apart names := names.of_sameEntries confined.chain confined.sameEntries

theorem declare_grows (category : Category) (name : String) (entity : EntityId) :
    Changes Grows (declare category name entity) := by
  refine .get_bind fun naming => ?_
  cases declared : naming.scope.declare naming.tables category name entity with
  | error fault => exact .refl naming
  | ok tables =>
    exact ⟨rfl, Scope.size_declare declared,
      fun id other bound known => Scope.lookup?_declare_of_lookup? declared known,
      fun _ _ => id, fun names => names.declare declared⟩

section

variable {naming : Naming} {category : Category} {name : String} {entity : EntityId}

theorem declare_of_eq_ok {tables : NameTables}
    (declared : naming.scope.declare naming.tables category name entity = .ok tables) :
    declare category name entity naming = .ok () { naming with tables } := by
  rw [declare, bind_of_eq_ok (get_eq_ok naming), declared]
  rfl

theorem declare_of_eq_error {fault : Fault}
    (failed : naming.scope.declare naming.tables category name entity = .error fault) :
    declare category name entity naming = .error fault naming := by
  rw [declare, bind_of_eq_ok (get_eq_ok naming), failed]
  rfl

theorem declareSignal_of_named (named : naming.scope.signalName? naming.tables entity = some name)
    (stem : String) : declareSignal entity stem naming = .ok name naming := by
  rw [declareSignal, bind_of_eq_ok (get_eq_ok naming), named]
  rfl

theorem declareSignal_of_unnamed (unnamed : naming.scope.signalName? naming.tables entity = none)
    (stem : String) : declareSignal entity stem naming = declareFree .signal stem entity naming := by
  rw [declareSignal, bind_of_eq_ok (get_eq_ok naming), unnamed]

theorem declareTable_of_named (named : naming.scope.tableName? naming.tables entity = some name)
    (stem : String) :
    declareTable entity stem naming = .ok { name, reused := true } naming := by
  rw [declareTable, bind_of_eq_ok (get_eq_ok naming), named]
  rfl

section

variable (unnamed : naming.scope.tableName? naming.tables entity = none) (stem : String)

include unnamed

theorem declareTable_of_unnamed :
    declareTable entity stem naming =
      (do return { name := ← declareFree .table stem entity, reused := false } :
        NamingM TableName) naming := by
  rw [declareTable, bind_of_eq_ok (get_eq_ok naming), unnamed]

theorem name_declareTable_of_unnamed :
    (TableName.name <$> declareTable entity stem) naming =
      declareFree .table stem entity naming := by
  have same := declareTable_of_unnamed unnamed stem
  rw [map_eq_pure_bind]
  cases outcome : declareFree .table stem entity naming with
  | error fault after => rw [bind_of_eq_error (same.trans (bind_of_eq_error outcome))]
  | ok name after =>
    rw [bind_of_eq_ok (same.trans (bind_of_eq_ok outcome))]
    rfl

end

end

/-- A declaration that succeeds changes the tables only, and one that fails changes nothing. -/
theorem declare_cases (category : Category) (name : String) (entity : EntityId) (naming : Naming) :
    (∃ tables, naming.scope.declare naming.tables category name entity = .ok tables ∧
      declare category name entity naming = .ok () { naming with tables }) ∨
    ∃ fault, declare category name entity naming = .error fault naming := by
  cases declared : naming.scope.declare naming.tables category name entity with
  | ok tables => exact .inl ⟨tables, rfl, declare_of_eq_ok declared⟩
  | error fault => exact .inr ⟨fault, declare_of_eq_error declared⟩

/-- A relation that holds where nothing is bound and where a name is declared, and so along all
actions on names. -/
structure Permits (related : Naming → Naming → Prop) : Prop where
  unbound : ∀ {before after : Naming}, Confined before after none → related before after
  declare : ∀ category name entity, Changes related (declare category name entity)

namespace Permits

variable {related : Naming → Naming → Prop} (permits : Permits related)

include permits

theorem alloc (entity : Entity) : Changes related (alloc entity) :=
  fun naming => permits.unbound (alloc_confined entity naming)

theorem freeName (stem : String) : Changes related (freeName stem) :=
  fun naming => permits.unbound (freeName_confined stem naming)

theorem freeConstantName (stem : String) : Changes related (freeConstantName stem) :=
  fun naming => permits.unbound (freeConstantName_confined stem naming)

variable [Std.Refl related] [IsTrans Naming related]

theorem declareFree (category : Category) (stem : String) (entity : EntityId) :
    Changes related (declareFree category stem entity) :=
  .bind (permits.freeName stem) fun name => .bind (permits.declare category name entity) fun _ =>
    .pure name

theorem declareNew (category : Category) (stem : String) (entity : Entity) :
    Changes related (declareNew category stem entity) :=
  .bind (permits.freeName stem) fun name => .bind (permits.alloc entity) fun id =>
    .bind (permits.declare category name id) fun _ => .pure name

theorem declareSignal (entity : EntityId) (stem : String) :
    Changes related (declareSignal entity stem) := by
  refine .get_bind fun naming => ?_
  cases naming.scope.signalName? naming.tables entity with
  | some name => exact Std.Refl.refl naming
  | none => exact permits.declareFree .signal stem entity naming

theorem declareConstant (entity : EntityId) (stem : String) :
    Changes related (declareConstant entity stem) :=
  .bind (permits.freeConstantName stem) fun name =>
    .bind (permits.declare .constant name entity) fun _ => .pure name

theorem declareConstantValue (value : Scalar) (format : Format) (stem : String) :
    Changes related (declareConstantValue value format stem) :=
  .bind (permits.alloc _) fun id => permits.declareConstant id stem

theorem declareTable (entity : EntityId) (stem : String) :
    Changes related (declareTable entity stem) := by
  refine .get_bind fun naming => ?_
  cases naming.scope.tableName? naming.tables entity with
  | some name => exact Std.Refl.refl naming
  | none =>
    exact Changes.bind (permits.declareFree .table stem entity) (fun _ => .pure _) naming

end Permits

theorem grows_permits : Permits Grows := ⟨Confined.grows, declare_grows⟩

section Binds

variable {naming after : Naming} {category : Category} {name stem : String} {entity : EntityId}

section

variable (names : naming.scope.NamesApart naming.tables)

include names

theorem declare_binds (done : declare category name entity naming = .ok () after) :
    after.scope.Binds after.tables category name entity := by
  rcases declare_cases category name entity naming with ⟨tables, declared, ok⟩ | ⟨fault, failed⟩
  · cases ok.symm.trans done
    refine ⟨naming.scope.own, List.mem_cons_self, ?_⟩
    exact (Scope.lookup?_declare declared _ name).trans
      (if_pos ⟨⟨rfl, names.inside _ (naming.scope.sees_own category)⟩, rfl⟩)
  · cases failed.symm.trans done

theorem declareFree_binds (done : declareFree category stem entity naming = .ok name after) :
    after.scope.Binds after.tables category name entity := by
  obtain ⟨taken, middle, taking, rest⟩ := bind_eq_ok.mp done
  obtain ⟨_, last, declared, finished⟩ := bind_eq_ok.mp rest
  obtain ⟨rfl, rfl⟩ := pure_eq_ok.mp finished
  exact declare_binds (((grows_permits.freeName stem).of_eq_ok taking).apart names) declared

/-- A new entity stands behind the others. -/
theorem declareNew_binds {made : Entity}
    (done : declareNew category stem made naming = .ok name after) :
    after.scope.Binds after.tables category name naming.entities.size := by
  obtain ⟨taken, middle, taking, rest⟩ := bind_eq_ok.mp done
  obtain ⟨id, filled, allocated, rest⟩ := bind_eq_ok.mp rest
  obtain ⟨_, last, declared, finished⟩ := bind_eq_ok.mp rest
  obtain ⟨rfl, rfl⟩ := pure_eq_ok.mp finished
  cases allocated
  have kept := ((grows_permits.freeName stem).of_eq_ok taking).apart names
  cases taking
  exact declare_binds ((grows_permits.alloc made _).apart kept) declared

theorem declareSignal_binds (done : declareSignal entity stem naming = .ok name after) :
    after.scope.Binds after.tables .signal name entity := by
  cases named : naming.scope.signalName? naming.tables entity with
  | some known =>
    cases (declareSignal_of_named named stem).symm.trans done
    exact ⟨naming.scope.own, List.mem_cons_self, (names.faithful _).lookup?_of_nameOf? named⟩
  | none => exact declareFree_binds names ((declareSignal_of_unnamed named stem).symm.trans done)

theorem declareConstant_binds (done : declareConstant entity stem naming = .ok name after) :
    after.scope.Binds after.tables .constant name entity := by
  obtain ⟨taken, middle, taking, rest⟩ := bind_eq_ok.mp done
  obtain ⟨_, last, declared, finished⟩ := bind_eq_ok.mp rest
  obtain ⟨rfl, rfl⟩ := pure_eq_ok.mp finished
  exact declare_binds (((grows_permits.freeConstantName stem).of_eq_ok taking).apart names) declared

theorem declareConstantValue_binds {value : Scalar} {format : Format}
    (done : declareConstantValue value format stem naming = .ok name after) :
    after.scope.Binds after.tables .constant name naming.entities.size := by
  obtain ⟨id, filled, allocated, declared⟩ := bind_eq_ok.mp done
  cases allocated
  exact declareConstant_binds ((grows_permits.alloc _ naming).apart names) declared

theorem declareTable_binds {reused : Bool}
    (done : declareTable entity stem naming = .ok { name, reused } after) :
    after.scope.Binds after.tables .table name entity := by
  cases named : naming.scope.tableName? naming.tables entity with
  | some known =>
    cases (declareTable_of_named named stem).symm.trans done
    obtain ⟨set, member, found⟩ := List.exists_of_findSome?_eq_some named
    exact ⟨set, member, (names.faithful _).lookup?_of_nameOf? found⟩
  | none =>
    rw [declareTable_of_unnamed named] at done
    obtain ⟨taken, middle, declared, finished⟩ := bind_eq_ok.mp done
    obtain ⟨same, rfl⟩ := pure_eq_ok.mp finished
    cases same
    exact declareFree_binds names declared

end

end Binds

end Naming

end Retarget
