import Retarget.Proofs.Naming.Declaring

/-!
# Where actions on names leave traces

A declaration binds the name that it gives where the name was free before, and otherwise binds
nothing: then the entity had that name already, or the declaration failed (`Naming.Confines`). This
holds also of entities that were never made.
-/

namespace Retarget

namespace Naming

/-- The outcome of giving a name to an entity in a category: the name is bound where it was free
before, and nothing is bound where it was not or where the action failed. -/
def Confines (naming : Naming) (category : Category) (id : EntityId) :
    EStateM.Result Fault Naming String → Prop
  | .ok name after =>
    Confined naming after
      (if naming.scope.isFree naming.tables name then
        some { category, name, id, entity := after.entities.entity id }
      else none)
  | .error _ after => Confined naming after none

/-- A declaration that begins with an action that binds nothing. -/
theorem Confines.bind {α : Type} {action : NamingM α} {next : α → NamingM String} {value : α}
    {before middle : Naming} {category : Category} {id : EntityId}
    (confined : Confined before (finalState (action before)) none)
    (done : action before = .ok value middle)
    (rest : Confined before middle none → Confines middle category id (next value middle)) :
    Confines before category id ((action >>= next) before) := by
  rw [bind_of_eq_ok done]
  rw [done] at confined
  replace confined : Confined before middle none := confined
  have confines := rest confined
  cases outcome : next value middle with
  | error fault after =>
    rw [outcome] at confines
    exact confined.trans confines
  | ok name after =>
    rw [outcome] at confines
    dsimp only [Confines] at confines ⊢
    rw [confined.isFree_eq] at confines
    exact confined.trans confines

/-- A name that the scope has for an entity already. -/
theorem Confines.reuse {naming : Naming} {category : Category} {id : EntityId} {name : String}
    (held : naming.scope.isFree naming.tables name = false) :
    Confines naming category id (.ok name naming) := by
  dsimp only [Confines]
  rw [held]
  exact .refl naming

section

variable {naming : Naming}

section

variable (category : Category) (founded : naming.Founded)

include founded

/-- Giving a name as it is. -/
theorem declare_confines (name : String) (id : EntityId) :
    Confines naming category id ((do declare category name id; return name) naming) := by
  rcases declare_cases category name id naming with ⟨tables, declared, done⟩ | ⟨fault, failed⟩
  · obtain ⟨free, -, rfl⟩ := Scope.declare_eq_ok declared
    rw [bind_of_eq_ok done]
    change Confined naming _ (if naming.scope.isFree naming.tables name then _ else none)
    rw [if_pos ((naming.scope.isFree_iff naming.tables name).mpr free)]
    refine ⟨rfl, Array.size_setIfInBounds, fun place => ?_, fun place apart => ?_, ?_⟩
    · rw [NameTables.table_setIfInBounds]
      by_cases here : naming.scope.own category = place
      · subst here
        rw [if_pos ⟨rfl, founded category⟩]
        simp [Binding.entriesAt, Binding.entry, NameTable.bind]
      · rw [if_neg fun both => here both.1]
        simp [Binding.entriesAt, here]
    · exact NameTables.table_setIfInBounds_of_ne _ _ (apart category)
    · exact fun _ _ known => known
  · rw [bind_of_eq_error failed]
    exact .refl naming

theorem declareFree_confines (stem : String) (id : EntityId) :
    Confines naming category id (declareFree category stem id naming) := by
  refine .bind (freeName_confined stem naming) rfl fun taken => ?_
  exact declare_confines category (taken.founded founded) _ id

theorem declareNew_confines (stem : String) (made : Entity) :
    Confines naming category naming.entities.size (declareNew category stem made naming) := by
  refine .bind (freeName_confined stem naming) rfl fun taken => ?_
  refine .bind (alloc_confined made _) rfl fun allocated => ?_
  exact declare_confines category (allocated.founded (taken.founded founded)) _ _

end

section

variable (founded : naming.Founded)

include founded

theorem declareSignal_confines (id : EntityId) (stem : String) :
    Confines naming .signal id (declareSignal id stem naming) := by
  cases named : naming.scope.signalName? naming.tables id with
  | some name =>
    rw [declareSignal_of_named named]
    exact .reuse (naming.scope.not_isFree_of_nameOf? List.mem_cons_self named)
  | none =>
    rw [declareSignal_of_unnamed named]
    exact declareFree_confines .signal founded stem id

theorem declareConstant_confines (id : EntityId) (stem : String) :
    Confines naming .constant id (declareConstant id stem naming) := by
  refine .bind (freeConstantName_confined stem naming) rfl fun taken => ?_
  exact declare_confines .constant (taken.founded founded) _ id

theorem declareConstantValue_confines (value : Scalar) (format : Format) (stem : String) :
    Confines naming .constant naming.entities.size
      (declareConstantValue value format stem naming) := by
  refine .bind (alloc_confined _ naming) rfl fun allocated => ?_
  exact declareConstant_confines (allocated.founded founded) _ stem

theorem declareTable_confines (id : EntityId) (stem : String) :
    Confines naming .table id ((TableName.name <$> declareTable id stem) naming) := by
  cases named : naming.scope.tableName? naming.tables id with
  | some name =>
    rw [map_eq_pure_bind, bind_of_eq_ok (declareTable_of_named named stem)]
    obtain ⟨set, member, found⟩ := List.exists_of_findSome?_eq_some named
    exact .reuse (naming.scope.not_isFree_of_nameOf? member found)
  | none =>
    rw [name_declareTable_of_unnamed named]
    exact declareFree_confines .table founded stem id

end

end

/-! ## Entities that were made -/

section

variable {naming after : Naming} {category : Category} {entity : Entity} {name : String}

/-- What is bound to an entity that was made is known. -/
theorem Confines.gains {id : EntityId} (confines : Confines naming category id (.ok name after))
    (made : after.entities[id]? = some entity) :
    Gains naming after
      (if naming.scope.isFree naming.tables name then some { category, name, id, entity }
      else none) := by
  have found : after.entities.entity id = entity := by
    rw [Entities.entity, made, Option.getD_some]
  dsimp only [Confines] at confines
  rw [found] at confines
  refine ⟨confines, ?_⟩
  split
  · rintro binding ⟨⟩
    exact made
  · exact nofun

theorem entities_of_alloc {next : EntityId → NamingM String}
    (grows : ∀ id, Changes Grows (next id))
    (done : (alloc entity >>= next) naming = .ok name after) :
    after.entities[naming.entities.size]? = some entity := by
  rw [bind_of_eq_ok (alloc_eq_ok entity naming)] at done
  have kept := (grows naming.entities.size).of_eq_ok done
  exact kept.entities _ _ Array.getElem?_push_size

theorem entities_of_declareNew {stem : String}
    (done : declareNew category stem entity naming = .ok name after) :
    after.entities[naming.entities.size]? = some entity := by
  have same : (finalState (freeName stem naming)).entities = naming.entities := rfl
  rw [declareNew, bind_of_eq_ok (freeName_eq_ok stem naming)] at done
  have made := entities_of_alloc
    (fun id => .bind (declare_grows category _ id) fun _ => .pure _) done
  rwa [same] at made

end

end Naming

end Retarget
