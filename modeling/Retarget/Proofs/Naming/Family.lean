import Retarget.Proofs.Naming.Fresh

/-!
# Families of scopes

Tables of names, and scopes that use some of them for themselves and see others through the scopes
around them. A family is built up step by step (`ScopeFamily.Step`), and any scope and any table can
be acted on at any time. Whatever is done, no binding is lost, tables stay one-to-one, and scopes
keep what they see while their counters grow (`ScopeFamily.Extends`).
-/

namespace Retarget

namespace Scope

/-- The number from which the scope goes on to number a stem. -/
def counter (scope : Scope) (stem : String) : Nat :=
  (scope.counters.get? stem).getD 0

/-- A scope later in a run: it sees the same tables, and its counters have grown. -/
structure Advances (before after : Scope) : Prop where
  chain : after.chain = before.chain
  uniquifier : after.uniquifier = before.uniquifier
  counter : ∀ stem, before.counter stem ≤ after.counter stem

namespace Advances

theorem refl (scope : Scope) : scope.Advances scope :=
  ⟨rfl, rfl, fun _ => Nat.le_refl _⟩

theorem trans {first second third : Scope} (left : first.Advances second)
    (right : second.Advances third) : first.Advances third :=
  ⟨right.chain.trans left.chain, right.uniquifier.trans left.uniquifier,
    fun stem => Nat.le_trans (left.counter stem) (right.counter stem)⟩

end Advances

/-- A scope gives a stem itself where it is free. Elsewhere it gives the stem with the least number
from its counter on that makes a free name, and moves the counter past that number. -/
theorem freeName_cases (scope : Scope) (tables : NameTables) (stem : String) :
    (scope.isFree tables (scope.uniquifier ++ stem) = true ∧
      scope.freeName tables stem = (scope.uniquifier ++ stem, scope)) ∨
    ∃ number, scope.isFree tables (scope.uniquifier ++ stem) = false ∧
      scope.counter (scope.uniquifier ++ stem) ≤ number ∧
      (∀ smaller, scope.counter (scope.uniquifier ++ stem) ≤ smaller → smaller < number →
        scope.isFree tables (scope.uniquifier ++ stem ++ toString smaller) = false) ∧
      scope.freeName tables stem = (scope.uniquifier ++ stem ++ toString number,
        { scope with
          counters := scope.counters.insert (scope.uniquifier ++ stem) (number + 1) }) := by
  unfold freeName
  dsimp only
  split
  · rename_i free
    exact .inl ⟨free, rfl⟩
  · rename_i taken
    exact .inr ⟨_, Bool.not_eq_true _ ▸ taken, start_le_firstFree _ _ _ _,
      fun smaller => isFree_of_lt_firstFree _ _, rfl⟩

theorem advances_freeName (scope : Scope) (tables : NameTables) (stem : String) :
    scope.Advances (scope.freeName tables stem).2 := by
  rcases scope.freeName_cases tables stem with ⟨_, given⟩ | ⟨number, _, later, _, given⟩
  · rw [given]
    exact .refl scope
  · rw [given]
    refine ⟨rfl, rfl, fun other => ?_⟩
    unfold counter at later ⊢
    rw [OrderedMap.get?_insert]
    split
    · rename_i same
      exact same ▸ Nat.le_succ_of_le later
    · exact Nat.le_refl _

end Scope

/-- Tables of names, and the scopes that use them. -/
structure ScopeFamily where
  tables : NameTables := #[]
  scopes : List Scope := []

namespace ScopeFamily

/-- What can be done in a family. Declarations that fail do nothing. -/
inductive Step (family : ScopeFamily) : ScopeFamily → Prop where
  /-- Makes a table that no scope has yet. -/
  | table (category : Category) (uniquifier : String) :
      Step family { family with tables := family.tables.push { category, uniquifier } }
  /-- Opens a scope with some tables that there are, inside any of the scopes. -/
  | scope {shared : Category → Option TableId} {enclosing : List TableSet}
      (known : ∀ category, ∀ id ∈ shared category, id < family.tables.size)
      (around : ∀ set ∈ enclosing, ∃ scope ∈ family.scopes, set ∈ scope.chain)
      (uniquifier : String) :
      Step family
        { tables := (Scope.create family.tables shared enclosing uniquifier).1
          scopes :=
            family.scopes ++ [(Scope.create family.tables shared enclosing uniquifier).2] }
  | copy {scope : Scope} (member : scope ∈ family.scopes) :
      Step family { family with scopes := family.scopes ++ [scope] }
  | freeName {place : Nat} {scope : Scope} (found : family.scopes[place]? = some scope)
      (stem : String) :
      Step family { family with
        scopes := family.scopes.set place (scope.freeName family.tables stem).2 }
  | freeConstantName {scope : Scope} (member : scope ∈ family.scopes) (stem : String) :
      Step family { family with tables := (scope.freeConstantName family.tables stem).2 }
  | declare {scope : Scope} (member : scope ∈ family.scopes) {category : Category} {name : String}
      {entity : EntityId} {tables : NameTables}
      (declared : scope.declare family.tables category name entity = .ok tables) :
      Step family { family with tables }
  /-- Takes a name from a table alone. -/
  | freeInTable (id : TableId) (stem : String) :
      Step family { family with
        tables := family.tables.setIfInBounds id ((family.tables.table id).freeName stem).2 }
  | numberedInTable (id : TableId) (stem : String) :
      Step family { family with
        tables := family.tables.setIfInBounds id ((family.tables.table id).numberedName stem).2 }
  /-- Declares in a table alone, whatever scopes have it. -/
  | declareInTable (id : TableId) {name : String} {entity : EntityId} {table : NameTable}
      (declared : (family.tables.table id).declare name entity = .ok table) :
      Step family { family with tables := family.tables.setIfInBounds id table }

/-- What some steps lead to. -/
abbrev Reaches : ScopeFamily → ScopeFamily → Prop :=
  Relation.ReflTransGen Step

/-- Tables are one-to-one, and scopes see tables that exist. -/
structure Sound (family : ScopeFamily) : Prop where
  faithful : ∀ id, (family.tables.table id).Faithful
  inside : ∀ scope ∈ family.scopes, ∀ id, scope.Sees id → id < family.tables.size

/-- What steps keep of a family. -/
structure Extends (before after : ScopeFamily) : Prop where
  entries : ∀ id, (before.tables.table id).entries <+: (after.tables.table id).entries
  scopes : ∀ (place : Nat) (scope : Scope), before.scopes[place]? = some scope →
    ∃ later, after.scopes[place]? = some later ∧ scope.Advances later
  sound : before.Sound → after.Sound

namespace Extends

variable {family : ScopeFamily}

theorem refl (family : ScopeFamily) : Extends family family :=
  ⟨fun _ => List.prefix_rfl, fun _ scope found => ⟨scope, found, .refl scope⟩, id⟩

theorem trans {first second third : ScopeFamily} (left : Extends first second)
    (right : Extends second third) : Extends first third where
  entries id := (left.entries id).trans (right.entries id)
  scopes place scope found := by
    obtain ⟨middle, there, advances⟩ := left.scopes place scope found
    obtain ⟨later, reached, further⟩ := right.scopes place middle there
    exact ⟨later, reached, advances.trans further⟩
  sound sound := right.sound (left.sound sound)

/-- A step that moves counters of tables. -/
theorem of_sameEntries {tables : NameTables} (same : family.tables.SameEntries tables) :
    Extends family { family with tables } where
  entries id := by rw [same.entries]
  scopes _ scope found := ⟨scope, found, .refl scope⟩
  sound sound := by
    refine ⟨fun id => (sound.faithful id).of_entries_eq (same.entries id), ?_⟩
    rw [same.size]
    exact sound.inside

/-- A step that binds a name. -/
theorem of_bind {id : TableId} {name : String} {entity : EntityId}
    (free : (family.tables.table id).isFree name)
    (unnamed : (family.tables.table id).nameOf? entity = none) :
    Extends family { family with
      tables := family.tables.setIfInBounds id ((family.tables.table id).bind name entity) } where
  entries other := by
    rw [NameTables.table_setIfInBounds]
    split
    · rename_i here
      rw [← here.1]
      exact List.prefix_append _ _
    · exact List.prefix_rfl
  scopes _ scope found := ⟨scope, found, .refl scope⟩
  sound sound := by
    refine ⟨NameTables.faithful_bind sound.faithful free unnamed, ?_⟩
    rw [Array.size_setIfInBounds]
    exact sound.inside

/-- A step that adds tables without names and, behind the others, scopes that see what exists. -/
theorem of_append {tables : NameTables} {scopes : List Scope}
    (same : ∀ id, (tables.table id).entries = (family.tables.table id).entries)
    (more : family.tables.size ≤ tables.size)
    (inside : family.Sound → ∀ scope ∈ scopes, ∀ id, scope.Sees id → id < tables.size) :
    Extends family { tables, scopes := family.scopes ++ scopes } where
  entries id := by rw [same]
  scopes place scope found := by
    refine ⟨scope, ?_, .refl scope⟩
    rw [List.getElem?_append_left (List.getElem?_eq_some_iff.mp found).1, found]
  sound sound := by
    refine ⟨fun id => (sound.faithful id).of_entries_eq (same id), fun scope member id seen => ?_⟩
    rcases List.mem_append.mp member with old | new
    · exact Nat.lt_of_lt_of_le (sound.inside scope old id seen) more
    · exact inside sound scope new id seen

end Extends

/-- What one step keeps. -/
theorem Step.extends {family after : ScopeFamily} (step : Step family after) :
    Extends family after := by
  cases step with
  | table category uniquifier =>
    refine (List.append_nil family.scopes) ▸ .of_append (fun id => ?_) ?_ fun _ _ member => ?_
    · rw [NameTables.table, NameTables.table, Array.getElem?_push]
      split
      · rename_i last
        rw [last, Array.getElem?_eq_none (Nat.le_refl _)]
        rfl
      · rfl
    · rw [Array.size_push]
      exact Nat.le_succ _
    · cases member
  | @scope shared enclosing known around uniquifier =>
    refine .of_append (Scope.entries_create enclosing) ?_ fun sound scope member id seen => ?_
    · rw [Scope.size_create]
      exact Nat.le_add_right _ 7
    · rw [Scope.size_create]
      obtain ⟨set, inChain, category, rfl⟩ := List.mem_singleton.mp member ▸ seen
      rcases List.mem_cons.mp inChain with rfl | outer
      · change (shared category).getD (family.tables.size + category.index) < _
        cases given : shared category with
        | none => exact Nat.add_lt_add_left category.index_lt _
        | some id => exact Nat.lt_add_right 7 (known category id given)
      · obtain ⟨other, there, seen⟩ := around set outer
        exact Nat.lt_add_right 7 (sound.inside other there _ ⟨set, seen, category, rfl⟩)
  | @copy scope member =>
    refine .of_append (fun _ => rfl) (Nat.le_refl _) fun sound other copied => ?_
    exact sound.inside other (List.mem_singleton.mp copied ▸ member)
  | @freeName place scope found stem =>
    have advances := scope.advances_freeName family.tables stem
    refine ⟨fun _ => List.prefix_rfl, fun other known there => ?_, fun sound => ?_⟩
    · rw [List.getElem?_set]
      split
      · rename_i here
        subst here
        cases found.symm.trans there
        exact ⟨_, if_pos (List.getElem?_eq_some_iff.mp found).1, advances⟩
      · exact ⟨known, there, .refl known⟩
    · refine ⟨sound.faithful, fun other member id seen => ?_⟩
      rcases List.mem_or_eq_of_mem_set member with old | rfl
      · exact sound.inside other old id seen
      · rw [Scope.Sees, advances.chain] at seen
        exact sound.inside scope (List.mem_of_getElem? found) id seen
  | @freeConstantName scope member stem =>
    exact .of_sameEntries (scope.sameEntries_freeConstantName family.tables stem)
  | declare member declared =>
    obtain ⟨free, unnamed, rfl⟩ := Scope.declare_eq_ok declared
    exact .of_bind (free _ (Scope.sees_own _ _)) unnamed
  | freeInTable id stem =>
    exact .of_sameEntries (.setIfInBounds _ id (NameTable.entries_freeName _ stem))
  | numberedInTable id stem =>
    exact .of_sameEntries (.setIfInBounds _ id (NameTable.entries_numberedName _ stem))
  | declareInTable id declared =>
    obtain ⟨free, unnamed, rfl⟩ := NameTable.declare_eq_ok declared
    exact .of_bind free unnamed

/-- What all steps of a run keep. -/
theorem Reaches.extends {family after : ScopeFamily} (reaches : Reaches family after) :
    Extends family after := by
  induction reaches with
  | refl => exact .refl family
  | tail _ step ih => exact ih.trans step.extends

theorem Reaches.sound {family : ScopeFamily} (reached : Reaches {} family) : family.Sound := by
  refine reached.extends.sound ⟨fun id => ?_, fun _ member => by cases member⟩
  exact .of_entries_eq_nil (NameTables.entries_of_size_le (Nat.zero_le id))

/-- A scope without names. -/
def root : NameTables × Scope :=
  Scope.create #[] (fun _ => none) [] ""

end ScopeFamily

end Retarget
