import Retarget.Proofs.Output.Balance

/-!
# Names that a flat document assigns

Constants and temporaries of a verification script are assigned in one scope that is never closed,
and so are the results, which are its goals. Actions on names give up no name and bind only what was
free (`Naming.Adds`); some only reserve names and leave what is assigned as it is
(`Naming.Reserves`). A document moves its names along with the actions on it (`Document.Moves`).
-/

namespace Retarget

open List

namespace Naming

variable {before after : Naming} {name : String}

/-- The scope's own table of a category has the name. -/
def Holds (naming : Naming) (category : Category) (name : String) : Prop :=
  (naming.tables.table (naming.scope.own category)).isFree name = false

/-- A name that is taken stays taken. -/
theorem Grows.isFree_eq_false (grows : Grows before after)
    (taken : before.scope.isFree before.tables name = false) :
    after.scope.isFree after.tables name = false := by
  rw [← Bool.not_eq_true] at taken ⊢
  intro free
  refine taken ((before.scope.isFree_iff before.tables name).mpr fun id seen => ?_)
  have seenAfter : after.scope.Sees id := by
    rw [Scope.Sees, grows.chain]
    exact seen
  have absent := (after.scope.isFree_iff after.tables name).mp free id seenAfter
  by_contra held
  rw [Bool.not_eq_true] at held
  obtain ⟨entity, known⟩ := (NameTable.not_isFree_iff _ _).mp held
  rw [NameTable.isFree, grows.bound id name entity known] at absent
  cases absent

theorem Confined.holds_iff (confined : Confined before after none) (category : Category)
    (name : String) : after.Holds category name ↔ before.Holds category name := by
  unfold Holds
  rw [confined.own, NameTable.isFree, NameTable.isFree, confined.sameEntries.lookup?]

/-- No name is given up, and a name that comes to be held was free. -/
structure Adds (before after : Naming) : Prop where
  grows : Grows before after
  kept : ∀ category name, before.Holds category name → after.Holds category name
  new : ∀ category name, after.Holds category name →
    before.Holds category name ∨ before.scope.isFree before.tables name = true

namespace Adds

instance : Std.Refl Adds := ⟨fun naming => ⟨.refl naming, fun _ _ => id, fun _ _ => .inl⟩⟩

instance : IsTrans Naming Adds where
  trans first second third left right := by
    refine ⟨left.grows.trans right.grows, fun category name held =>
      right.kept category name (left.kept category name held), fun category name held => ?_⟩
    rcases right.new category name held with earlier | free
    · exact left.new category name earlier
    · refine .inr ?_
      by_contra taken
      rw [Bool.not_eq_true] at taken
      rw [left.grows.isFree_eq_false taken] at free
      cases free

/-- An action that binds nothing. -/
theorem of_confined (confined : Confined before after none) : Adds before after :=
  ⟨confined.grows, fun category name => (confined.holds_iff category name).mpr,
    fun category name held => .inl ((confined.holds_iff category name).mp held)⟩

end Adds

theorem declare_adds (category : Category) (name : String) (entity : EntityId) :
    Changes Adds (declare category name entity) := by
  intro naming
  have grows := declare_grows category name entity naming
  rcases declare_cases category name entity naming with ⟨tables, declared, ended⟩ | ⟨fault, ended⟩
  · rw [ended] at grows ⊢
    refine ⟨grows, fun place other held => ?_, fun place other held => ?_⟩
    · obtain ⟨bound, known⟩ := (NameTable.not_isFree_iff _ _).mp held
      exact (NameTable.not_isFree_iff _ _).mpr
        ⟨bound, Scope.lookup?_declare_of_lookup? declared known⟩
    · change (tables.table (naming.scope.own place)).isFree other = false at held
      rw [NameTable.isFree, Scope.lookup?_declare declared] at held
      by_cases same : name = other
      · subst same
        exact .inr ((naming.scope.isFree_iff naming.tables name).mpr
          (Scope.declare_eq_ok declared).1)
      · rw [if_neg fun both => same both.2] at held
        exact .inl held
  · rw [ended]
    exact Std.Refl.refl naming

theorem adds_permits : Permits Adds := ⟨.of_confined, declare_adds⟩

/-- What is declared is taken. -/
theorem isFree_of_declare {category : Category} {entity : EntityId} (founded : before.Founded)
    (done : declare category name entity before = .ok () after) :
    after.scope.isFree after.tables name = false := by
  rcases declare_cases category name entity before with ⟨tables, declared, ended⟩ | ⟨fault, ended⟩
  · cases ended.symm.trans done
    rw [← Bool.not_eq_true]
    intro free
    have absent := (before.scope.isFree_iff tables name).mp free _
      (before.scope.sees_own category)
    rw [NameTable.isFree, Scope.lookup?_declare declared,
      if_pos ⟨⟨rfl, founded category⟩, rfl⟩] at absent
    cases absent
  · cases ended.symm.trans done

/-- Names are added to the reserved ones only. -/
structure Reserves (before after : Naming) : Prop where
  adds : Adds before after
  same : ∀ category, before.scope.own category ≠ before.scope.own .reserved → ∀ name,
    after.Holds category name → before.Holds category name

namespace Reserves

instance : Std.Refl Reserves := ⟨fun naming => ⟨Std.Refl.refl naming, fun _ _ _ => id⟩⟩

instance : IsTrans Naming Reserves where
  trans first second third left right := by
    refine ⟨IsTrans.trans _ _ _ left.adds right.adds, fun category apart name held => ?_⟩
    refine left.same category apart name (right.same category ?_ name held)
    rw [left.adds.grows.own]
    exact apart

theorem of_confined (confined : Confined before after none) : Reserves before after :=
  ⟨.of_confined confined, fun category _ name => (confined.holds_iff category name).mp⟩

end Reserves

theorem declare_reserves (name : String) (entity : EntityId) :
    Changes Reserves (declare .reserved name entity) := by
  intro naming
  have adds := declare_adds .reserved name entity naming
  rcases declare_cases .reserved name entity naming with ⟨tables, declared, ended⟩ | ⟨fault, ended⟩
  · rw [ended] at adds ⊢
    refine ⟨adds, fun category apart other held => ?_⟩
    change (tables.table (naming.scope.own category)).isFree other = false at held
    rw [NameTable.isFree, Scope.lookup?_declare declared,
      if_neg fun both => apart both.1.1.symm] at held
    exact held
  · rw [ended]
    exact Std.Refl.refl naming

theorem reserve_reserves (name : String) (format : Format) :
    Changes Reserves (do declare .reserved name (← alloc (.reserved format))) :=
  .bind (fun naming => .of_confined (alloc_confined _ naming)) (declare_reserves name)

end Naming

/-- The results that are goals of a verification script. -/
def Draft.results (draft : Draft) : List String :=
  match draft.flavor with
  | .verification obligations => obligations.goals.map fun goal => goal.1.code
  | _ => []

theorem Draft.mem_results_addGoal (draft : Draft) (term : Term) (enclosure : Enclosure)
    (name : String) (known : name ∈ (draft.modifyObligations (·.addGoal term enclosure)).results) :
    name ∈ draft.results ∨ term.code = name := by
  obtain ⟨_, flavor, _⟩ := draft
  unfold results modifyObligations at known
  cases flavor with
  | plain => exact .inl known
  | hardware sharedSignals mainLevel => exact .inl known
  | verification obligations =>
    simp only [Obligations.addGoal, map_append, mem_append, map_cons,
      map_nil, mem_singleton] at known
    exact known.imp id Eq.symm

theorem Draft.results_subset_addGoal (draft : Draft) (term : Term) (enclosure : Enclosure)
    (name : String) (known : name ∈ draft.results) :
    name ∈ (draft.modifyObligations (·.addGoal term enclosure)).results := by
  obtain ⟨_, flavor, _⟩ := draft
  unfold results modifyObligations
  cases flavor with
  | plain => exact known
  | hardware sharedSignals mainLevel => exact known
  | verification obligations =>
    simp only [Obligations.addGoal, map_append, mem_append]
    exact .inl known

theorem Draft.results_append (draft : Draft) (text : String) :
    (draft.append text).results = draft.results := by
  unfold append
  split <;> rfl

namespace Document

/-- The categories of a document have tables of their own. -/
theorem own_create_ne (language : Language) (policy : SharingPolicy) {first second : Category}
    (other : first ≠ second) :
    (create language policy).current.scope.own first ≠
      (create language policy).current.scope.own second := by
  change (staticTable? policy first).getD (7 + first.index) ≠
    (staticTable? policy second).getD (7 + second.index)
  have bound := first.index_lt
  have bound' := second.index_lt
  have apart : first.index ≠ second.index := fun same => other (Category.index_inj same)
  unfold staticTable?
  split <;> split
  · exact apart
  · exact Nat.ne_of_lt (Nat.lt_of_lt_of_le bound (Nat.le_add_right 7 _))
  · exact Nat.ne_of_gt (Nat.lt_of_lt_of_le bound' (Nat.le_add_right 7 _))
  · exact fun same => apart (Nat.add_left_cancel same)

/-- The names that a verification script assigns: its constants, its temporaries and its results. -/
def assigned (document : Document) : List String :=
  let names (category : Category) :=
    (document.names.tables.table (document.current.scope.own category)).entries.map Prod.fst
  names .constant ++ names .variable ++ document.current.results

theorem mem_assigned {document : Document} {name : String} :
    name ∈ document.assigned ↔ document.naming.Holds .constant name ∨
      document.naming.Holds .variable name ∨ name ∈ document.current.results := by
  have held (category : Category) :
      name ∈ (document.names.tables.table (document.current.scope.own category)).entries.map
        Prod.fst ↔ document.naming.Holds category name := by
    rw [Naming.Holds, NameTable.isFree, Option.isNone_eq_false_iff]
    exact OrderedMap.mem_keys_iff_lookup name _
  unfold assigned
  rw [mem_append, mem_append, held, held, or_assoc]

/-- In a flat document the names move as a relation has it, and the results stay as they are. -/
def Moves (related : Naming → Naming → Prop) (before after : Document) : Prop :=
  before.enclosing = [] →
    after.enclosing = [] ∧ related before.naming after.naming ∧
      after.current.results = before.current.results

section Moves

variable {related : Naming → Naming → Prop} [Std.Refl related]

instance : Std.Refl (Moves related) := ⟨fun _ flat => ⟨flat, Std.Refl.refl _, rfl⟩⟩

theorem modifyRoot_of_flat {document : Document} (flat : document.enclosing = [])
    (change : Draft → Draft) : document.modifyRoot change = document.modifyCurrent change := by
  unfold modifyRoot
  rw [flat]
  rfl

section

variable {change : Draft → Draft} (scope : ∀ draft, (change draft).scope = draft.scope)
  (results : ∀ draft, (change draft).results = draft.results)

include scope results

theorem modifyCurrent_moves (document : Document) :
    Moves related document (document.modifyCurrent change) := by
  intro flat
  have same : (document.modifyCurrent change).naming = document.naming := by
    unfold naming modifyCurrent
    rw [scope]
  refine ⟨flat, ?_, results document.current⟩
  rw [same]
  exact Std.Refl.refl _

theorem modifyRoot_moves (document : Document) :
    Moves related document (document.modifyRoot change) := by
  intro flat
  rw [modifyRoot_of_flat flat]
  exact modifyCurrent_moves scope results document flat

end

theorem append_moves (text : String) : Changes (Moves related) (append text) :=
  .modify (modifyCurrent_moves (·.scope_append text) (·.results_append text))

omit [Std.Refl related] in
theorem withNames_moves {α : Type} {action : NamingM α} (moves : Changes related action) :
    Changes (Moves related) (withNames action) := by
  intro document flat
  rw [finalState_withNames]
  exact ⟨flat, moves document.naming, rfl⟩

end Moves

theorem declareTemporary_moves (stem : String) (format : Format) :
    Changes (Moves Naming.Adds) (declareTemporary stem format) := by
  refine .get_bind fun document => ?_
  refine withNames_moves ?_ document
  unfold Draft.declareTemporary
  split
  · exact Naming.adds_permits.declareNew _ _ _
  · exact Naming.adds_permits.declareNew _ _ _

end Document

end Retarget
