import Retarget.Proofs.Naming.Declaring

/-!
# Fresh names

A stem has more numbered names than there are names taken, so the search for a free name always
finds one, whichever counter it starts from. Declarations under such names cannot fail.
-/

namespace Retarget

open List

theorem numbered_inj {stem : String} {first second : Nat}
    (same : stem ++ toString first = stem ++ toString second) : first = second := by
  have lists := congrArg String.toList same
  rw [String.toList_append, String.toList_append] at lists
  have digits : Nat.toDigits 10 first = Nat.toDigits 10 second := by
    simpa only [Nat.toString_eq_repr, Nat.toList_repr] using append_cancel_left lists
  simpa using congrArg (fun digits => Nat.ofDigitChars 10 digits 0) digits

theorem stem_ne_numbered (stem : String) (number : Nat) : stem ≠ stem ++ toString number := by
  intro same
  have lists := congrArg (fun text : String => text.toList.length) same
  have digits : (toString number).toList ≠ [] := by
    intro empty
    have nonempty : number.repr ≠ "" := Nat.repr_ne_empty
    exact nonempty (String.toList_inj.mp empty)
  have positive := length_pos_of_ne_nil digits
  simp only [String.toList_append, length_append] at lists
  omega

section FirstFree

variable (isFree : String → Bool) (stem : String)

theorem start_le_firstFree (tries start : Nat) : start ≤ firstFree isFree stem tries start := by
  induction tries generalizing start with
  | zero => exact Nat.le_refl start
  | succ tries ih =>
    unfold firstFree
    split
    · exact Nat.le_refl start
    · exact Nat.le_of_succ_le (ih (start + 1))

/-- All numbers that the search passed make names that are taken. -/
theorem isFree_of_lt_firstFree {tries start number : Nat} (later : start ≤ number)
    (passed : number < firstFree isFree stem tries start) :
    isFree (stem ++ toString number) = false := by
  induction tries generalizing start with
  | zero => exact absurd passed (Nat.not_lt_of_le later)
  | succ tries ih =>
    unfold firstFree at passed
    split at passed
    · exact absurd passed (Nat.not_lt_of_le later)
    · rename_i taken
      rcases Nat.eq_or_lt_of_le later with rfl | beyond
      · exact Bool.not_eq_true _ ▸ taken
      · exact ih beyond passed

theorem isFree_firstFree_of_exists {tries start number : Nat} (later : start ≤ number)
    (near : number < start + tries) (free : isFree (stem ++ toString number) = true) :
    isFree (stem ++ toString (firstFree isFree stem tries start)) = true := by
  induction tries generalizing start with
  | zero => omega
  | succ tries ih =>
    unfold firstFree
    split
    · assumption
    · rename_i taken
      have different : start ≠ number := by
        rintro rfl
        exact taken free
      exact ih (by omega) (by omega)

/-- More tries than names taken find a free one. -/
theorem isFree_firstFree (taken : List String)
    (covers : ∀ name, isFree name = false → name ∈ taken) {tries : Nat}
    (many : taken.length < tries) (start : Nat) :
    isFree (stem ++ toString (firstFree isFree stem tries start)) = true := by
  by_contra occupied
  have all : ∀ number ∈ List.range tries, stem ++ toString (start + number) ∈ taken := by
    intro number member
    apply covers
    by_contra free
    have inside := mem_range.mp member
    exact occupied (isFree_firstFree_of_exists isFree stem (Nat.le_add_right start number)
      (by omega) (by simpa using free))
  let candidates := (List.range tries).map fun number => stem ++ toString (start + number)
  have distinct : candidates.Nodup := by
    refine List.Nodup.map (fun first second same => ?_) nodup_range
    exact Nat.add_left_cancel (numbered_inj same)
  have inside : candidates ⊆ taken := by
    intro name member
    obtain ⟨number, known, rfl⟩ := mem_map.mp member
    exact all number known
  have bound := (distinct.subperm inside).length_le
  rw [length_map, length_range] at bound
  omega

end FirstFree

namespace Scope

variable {scope : Scope} {tables : NameTables} {name : String}

/-- All names in the tables that a scope sees. -/
def names (scope : Scope) (tables : NameTables) : List String :=
  (scope.chain.flatMap fun set =>
    Category.all.flatMap fun category => (tables.table (set category)).entries).map Prod.fst

theorem length_names (scope : Scope) (tables : NameTables) :
    (scope.names tables).length = scope.nameCount tables :=
  length_map _

theorem mem_names (held : scope.isFree tables name = false) : name ∈ scope.names tables := by
  rw [isFree, all_eq_false] at held
  obtain ⟨set, member, occupied⟩ := held
  rw [Bool.not_eq_true, TableSet.isFree, all_eq_false] at occupied
  obtain ⟨category, known, present⟩ := occupied
  rw [Bool.not_eq_true, NameTable.not_isFree_iff] at present
  obtain ⟨entity, found⟩ := present
  have inTable : name ∈ (tables.table (set category)).entries.map Prod.fst := by
    rw [OrderedMap.mem_keys_iff_lookup]
    exact Option.isSome_iff_exists.mpr ⟨entity, found⟩
  obtain ⟨entry, inside, rfl⟩ := mem_map.mp inTable
  refine mem_map.mpr ⟨entry, ?_, rfl⟩
  exact mem_flatMap.mpr ⟨set, member, mem_flatMap.mpr ⟨category, known, inside⟩⟩

theorem isFree_freeName (scope : Scope) (tables : NameTables) (stem : String) :
    scope.isFree tables (scope.freeName tables stem).1 = true := by
  unfold freeName
  dsimp only
  split
  · assumption
  · apply isFree_firstFree _ _ (scope.names tables)
    · intro name held
      exact mem_names held
    · rw [length_names]
      omega

/-- Numbered names of a table never repeat: each has a number from its counter on, and the counter
moves past it. -/
theorem numberedName_spec (table : NameTable) (stem : String) :
    ∃ number, (table.counters.get? (table.uniquify stem)).getD 0 ≤ number ∧
      (table.numberedName stem).1 = table.uniquify stem ++ toString number ∧
      ((table.numberedName stem).2.counters.get? (table.uniquify stem)).getD 0 = number + 1 := by
  refine ⟨_, start_le_firstFree table.isFree (table.uniquify stem) (table.entries.length + 1) _,
    rfl, ?_⟩
  simp [NameTable.numberedName, OrderedMap.get?_insert]

/-- The search for the name of a constant, after some candidates were rejected. All of them differ
from the candidates to come, so there are fewer of them than names taken. -/
theorem isFree_nextConstantName (scope : Scope) (stem : String) {first : NameTables} {tries : Nat}
    {candidate : String} (rejected : List String) (inside : scope.own .constant < tables.size)
    (same : first.SameEntries tables) (distinct : (candidate :: rejected).Nodup)
    (held : ∀ name ∈ rejected, scope.isFree first name = false)
    (past : ∀ name ∈ candidate :: rejected, ∀ number,
      ((tables.table (scope.own .constant)).counters.get?
        ((tables.table (scope.own .constant)).uniquify stem)).getD 0 ≤ number →
      name ≠ (tables.table (scope.own .constant)).uniquify stem ++ toString number)
    (many : scope.nameCount first < tries + rejected.length) :
    scope.isFree first (scope.nextConstantName stem tries tables candidate).1 = true := by
  induction tries generalizing tables candidate rejected with
  | zero =>
    have known : rejected ⊆ scope.names first := fun name member => mem_names (held name member)
    have bound := ((nodup_cons.mp distinct).2.subperm known).length_le
    rw [length_names] at bound
    omega
  | succ tries ih =>
    unfold nextConstantName
    have free := scope.isFree_of_sameEntries same candidate
    split
    · rename_i found
      exact free.symm.trans found
    · rename_i occupied
      obtain ⟨number, later, named, moved⟩ :=
        numberedName_spec (tables.table (scope.own .constant)) stem
      refine ih (candidate :: rejected) ?_ ?_ ?_ ?_ ?_ ?_
      · rwa [Array.size_setIfInBounds]
      · exact same.trans (.setIfInBounds tables _ (NameTable.entries_numberedName _ stem))
      · refine nodup_cons.mpr ⟨fun repeated => ?_, distinct⟩
        exact past _ repeated number later named
      · intro name member
        rcases mem_cons.mp member with rfl | earlier
        · rw [← free]
          exact Bool.eq_false_iff.mpr occupied
        · exact held name earlier
      · intro name member next beyond
        rw [NameTables.table_setIfInBounds, if_pos ⟨rfl, inside⟩] at beyond ⊢
        have after : number + 1 ≤ next := moved ▸ beyond
        rcases mem_cons.mp member with rfl | earlier
        · intro repeated
          have equal := numbered_inj (named.symm.trans repeated)
          omega
        · exact past name earlier next (by omega)
      · rw [length_cons]
        omega

theorem isFree_freeConstantName (scope : Scope) (inside : scope.own .constant < tables.size)
    (stem : String) : scope.isFree tables (scope.freeConstantName tables stem).1 = true := by
  change scope.isFree tables (scope.nextConstantName stem _
    (tables.setIfInBounds _ ((tables.table (scope.own .constant)).freeName stem).2)
    ((tables.table (scope.own .constant)).freeName stem).1).1 = true
  refine isFree_nextConstantName scope stem [] ?_
    (.setIfInBounds tables _ (NameTable.entries_freeName _ stem)) (nodup_singleton _)
    (fun _ member => by cases member) ?_ (Nat.lt_succ_self _)
  · rwa [Array.size_setIfInBounds]
  · intro name member number
    rw [NameTables.table_setIfInBounds, if_pos ⟨rfl, inside⟩, mem_singleton.mp member]
    unfold NameTable.freeName
    split
    · exact fun _ => stem_ne_numbered _ number
    · obtain ⟨taken, _, named, moved⟩ :=
        numberedName_spec (tables.table (scope.own .constant)) stem
      intro beyond repeated
      have after : taken + 1 ≤ number := moved ▸ beyond
      have equal := numbered_inj (named.symm.trans repeated)
      omega

/-- A free name can be given to an entity that has none in the category. -/
theorem declare_of_isFree {category : Category} {id : EntityId}
    (free : scope.isFree tables name = true)
    (unnamed : (tables.table (scope.own category)).nameOf? id = none) :
    ∃ after, scope.declare tables category name id = .ok after := by
  have here := (scope.isFree_iff tables name).mp free _ (scope.sees_own category)
  unfold declare
  rw [holder?_eq_none_iff.mpr free]
  simp only [NameTable.declare, here, unnamed, Bool.not_true, Bool.false_eq_true, ↓reduceIte]
  exact ⟨_, rfl⟩

end Scope

/-- Entities in tables of names were made before. -/
def Names.Recorded (names : Names) : Prop :=
  ∀ id, ∀ entry ∈ (names.tables.table id).entries, entry.2 < names.entities.size

theorem Names.Recorded.nameOf?_eq_none {names : Names} (recorded : names.Recorded) (id : TableId)
    {entity : EntityId} (new : names.entities.size ≤ entity) :
    (names.tables.table id).nameOf? entity = none := by
  rw [NameTable.nameOf?, Option.map_eq_none_iff, find?_eq_none]
  intro entry member same
  have old := recorded id entry member
  rw [of_decide_eq_true same] at old
  exact Nat.not_lt_of_le new old

namespace Naming

section

variable {naming : Naming} {category : Category} {id : EntityId}

section

variable {after : Naming} {new : Option Binding} (gains : Gains naming after new)

include gains

theorem Gains.size_entities : naming.entities.size ≤ after.entities.size := by
  by_contra fewer
  have inside : after.entities.size < naming.entities.size := Nat.lt_of_not_le fewer
  have kept := gains.entities _ _ (Array.getElem?_eq_getElem inside)
  rw [Array.getElem?_eq_none (Nat.le_refl _)] at kept
  cases kept

theorem Gains.recorded (recorded : naming.Recorded) : after.Recorded := by
  intro place entry member
  rw [gains.entries, mem_append] at member
  have grown := gains.size_entities
  rcases member with old | fresh
  · exact Nat.lt_of_lt_of_le (recorded place entry old) grown
  · obtain ⟨binding, kept, rfl⟩ := mem_map.mp fresh
    have bound := (mem_filter.mp kept).1
    obtain ⟨inside, _⟩ := Array.getElem?_eq_some_iff.mp
      (gains.known binding (Option.mem_toList.mp bound))
    exact inside

end

theorem declare_of_isFree {name : String} (free : naming.scope.isFree naming.tables name = true)
    (unnamed : (naming.tables.table (naming.scope.own category)).nameOf? id = none) :
    ∃ after, declare category name id naming = .ok () after := by
  obtain ⟨tables, declared⟩ := Scope.declare_of_isFree free unnamed
  exact ⟨{ naming with tables }, declare_of_eq_ok declared⟩

/-- What is free stays so where nothing is bound. -/
theorem Confined.declare_of_isFree {middle : Naming} (confined : Confined naming middle none)
    {name : String} (free : naming.scope.isFree naming.tables name = true)
    (unnamed : (naming.tables.table (naming.scope.own category)).nameOf? id = none) :
    ∃ after, declare category name id middle = .ok () after := by
  apply Naming.declare_of_isFree
  · rw [confined.isFree_eq]
    exact free
  · rw [confined.own, NameTable.nameOf?, confined.sameEntries.entries]
    exact unnamed

/-- Under a name made from a stem, an entity without a name in the category is always declared. -/
theorem declareFree_succeeds (stem : String)
    (unnamed : (naming.tables.table (naming.scope.own category)).nameOf? id = none) :
    ∃ name after, naming.scope.isFree naming.tables name = true ∧
      declareFree category stem id naming = .ok name after := by
  have confined := freeName_confined stem naming
  have free := naming.scope.isFree_freeName naming.tables stem
  obtain ⟨after, declared⟩ := confined.declare_of_isFree free unnamed
  refine ⟨_, after, free, ?_⟩
  rw [declareFree, bind_of_eq_ok (freeName_eq_ok stem naming)]
  exact bind_of_eq_ok declared

theorem declareNew_succeeds (recorded : naming.Recorded) (category : Category) (stem : String)
    (entity : Entity) :
    ∃ name after, naming.scope.isFree naming.tables name = true ∧
      declareNew category stem entity naming = .ok name after := by
  have taken := freeName_confined stem naming
  have confined := taken.trans (alloc_confined entity _)
  have free := naming.scope.isFree_freeName naming.tables stem
  have unnamed := recorded.nameOf?_eq_none (naming.scope.own category) (Nat.le_refl _)
  obtain ⟨after, declared⟩ := confined.declare_of_isFree free unnamed
  refine ⟨_, after, free, ?_⟩
  rw [declareNew, bind_of_eq_ok (freeName_eq_ok stem naming), bind_of_eq_ok (alloc_eq_ok entity _)]
  exact bind_of_eq_ok declared

theorem declareConstant_succeeds (founded : naming.Founded) (stem : String)
    (unnamed : (naming.tables.table (naming.scope.own .constant)).nameOf? id = none) :
    ∃ name after, naming.scope.isFree naming.tables name = true ∧
      declareConstant id stem naming = .ok name after := by
  have confined := freeConstantName_confined stem naming
  have free := naming.scope.isFree_freeConstantName (founded .constant) stem
  obtain ⟨after, declared⟩ := confined.declare_of_isFree free unnamed
  refine ⟨_, after, free, ?_⟩
  exact bind_of_eq_ok declared

theorem declareConstantValue_succeeds (founded : naming.Founded) (recorded : naming.Recorded)
    (value : Scalar) (format : Format) (stem : String) :
    ∃ name after, naming.scope.isFree naming.tables name = true ∧
      declareConstantValue value format stem naming = .ok name after := by
  have confined := alloc_confined (.constant value format) naming
  have unnamed := recorded.nameOf?_eq_none (naming.scope.own .constant) (Nat.le_refl _)
  obtain ⟨name, after, free, declared⟩ :=
    declareConstant_succeeds (confined.founded founded) stem unnamed
  refine ⟨name, after, (confined.isFree_eq name).symm.trans free, ?_⟩
  rw [declareConstantValue, bind_of_eq_ok (alloc_eq_ok _ naming)]
  exact declared

theorem declareTable_succeeds (id : EntityId) (stem : String) :
    ∃ named after, declareTable id stem naming = .ok named after := by
  cases unnamed : naming.scope.tableName? naming.tables id with
  | some name => exact ⟨_, naming, declareTable_of_named unnamed stem⟩
  | none =>
    have here := findSome?_eq_none_iff.mp unnamed naming.scope.own mem_cons_self
    obtain ⟨name, after, _, declared⟩ := declareFree_succeeds stem here
    exact ⟨_, after, (declareTable_of_unnamed unnamed stem).trans (bind_of_eq_ok declared)⟩

end

end Naming

end Retarget
