import Retarget.Proofs.Output.Restoring

/-!
# Names that are used again

A signal is looked up in the innermost scope alone, and gets a second name wherever that scope does
not share its signals with the scope that named it (`run_signal_reused`). A table is looked up in all
open scopes, and has one name in them at most (`run_table_reused`).
-/

namespace Retarget.Document

open List

variable {document : Document}

/-- A signal that another scope named with a table of its own gets a second name. -/
theorem WellNested.declareSignal_of_ne (well : document.WellNested) {scope : Scope}
    (member : scope ∈ document.scopes) {id : EntityId} {name : String}
    (named : (document.names.tables.table (scope.own .signal)).nameOf? id = some name)
    (apart : document.current.scope.own .signal ≠ scope.own .signal) (stem : String) :
    ∃ other after, other ≠ name ∧
      withNames (Naming.declareSignal id stem) document = .ok other after := by
  have outer := well.own_mem_chain member
  cases here : document.current.scope.signalName? document.names.tables id with
  | some other =>
    refine ⟨other, document, ?_, withNames_of_eq_ok (Naming.declareSignal_of_named here stem)⟩
    rintro rfl
    have taken {place : TableId}
        (named : (document.names.tables.table place).nameOf? id = some other) :
        (document.names.tables.table place).isFree other = false :=
      (NameTable.not_isFree_iff _ _).mpr
        ⟨id, (well.apart.faithful place).lookup?_of_nameOf? named⟩
    exact apart (well.apart.apart other _ _ (document.current.scope.sees_own .signal)
      ⟨scope.own, outer, .signal, rfl⟩ (taken here) (taken named))
  | none =>
    obtain ⟨other, after, free, declared⟩ := Naming.declareFree_succeeds stem
      (show (document.naming.tables.table (document.naming.scope.own .signal)).nameOf? id = none
        from here)
    refine ⟨other, document.renamed after, ?_, withNames_of_eq_ok
      ((Naming.declareSignal_of_unnamed here stem).trans declared)⟩
    rintro rfl
    cases (document.current.scope.not_isFree_of_nameOf? outer named).symm.trans free

/-- A signal that has a name in an open scope keeps it where the innermost scope has the same table
of signals, and nothing changes then. Elsewhere it has or gets another name. All scopes have one
table where signals are static; other than that, a new scope has the table of the scope around it
if it is asked to share it. -/
theorem run_signal_reused (language : Language) (policy : SharingPolicy)
    (operations : List Operation) :
    let document := run operations (create language policy)
    (∀ scope ∈ document.scopes, ∀ id name,
      (document.names.tables.table (scope.own .signal)).nameOf? id = some name → ∀ stem,
        (document.current.scope.own .signal = scope.own .signal →
          (Operation.signal id stem).perform document = .ok (some name) document) ∧
        (document.current.scope.own .signal ≠ scope.own .signal → ∃ other after, other ≠ name ∧
          (Operation.signal id stem).perform document = .ok (some other) after)) ∧
    (policy.shares .signal = true → ∀ scope ∈ document.scopes,
      document.current.scope.own .signal = scope.own .signal) ∧
    ∀ extra, (run [.openSharing extra] document).current.scope.own .signal =
        document.current.scope.own .signal ↔
      .signal ∈ extra ∨ policy.shares .signal = true := by
  intro document
  have well : document.WellNested := run_wellNested language policy operations
  have placed {scope : Scope} (member : scope ∈ document.scopes) : scope.Placed policy 7 :=
    run_placed language policy operations member
  have policy_eq : document.policy = policy := (run_create_within language policy _).policy_eq
  refine ⟨?_, ?_, ?_⟩
  · intro scope member id name named stem
    constructor
    · intro same
      rw [← same] at named
      have here : document.naming.scope.signalName? document.naming.tables id = some name := named
      have done := withNames_of_eq_ok (Naming.declareSignal_of_named here stem)
      exact map_eq_ok.mpr ⟨name, done, rfl⟩
    · intro apart
      obtain ⟨other, after, different, done⟩ := well.declareSignal_of_ne member named apart stem
      exact ⟨other, after, different, map_eq_ok.mpr ⟨other, done, rfl⟩⟩
  · intro static scope member
    rw [(placed mem_cons_self).shared .signal static, (placed member).shared .signal static]
  · intro extra
    have same : SameScopes document (document.modifyCurrent Draft.openBlock) :=
      modifyCurrent_sameScopes Draft.scope_openBlock document
    have scope := (List.cons.inj same.scopes).1
    change ((document.modifyCurrent Draft.openBlock).push extra).current.scope.own .signal = _ ↔ _
    rw [own_push, scope, same.policy, same.names, policy_eq]
    split_ifs with asked static
    · exact ⟨fun _ => .inl asked, fun _ => rfl⟩
    · have own := (placed mem_cons_self).shared .signal static
      exact ⟨fun _ => .inr static, fun _ => own.symm⟩
    · refine ⟨fun equal => ?_, fun either => (either.elim asked static).elim⟩
      exact absurd (equal ▸ well.founded .signal) (Nat.not_lt.mpr (Nat.le_add_right _ _))

/-- A signal of the file, and a scope that does not share it. -/
def signalOutside (extra : List Category) : List Operation :=
  [.alloc (.signal .bool), .signal 0 "s", .openSharing extra]

theorem run_signalOutside_shared :
    (Operation.signal 0 "other").perform (run (signalOutside [.signal]) (create .vhdl {})) =
      .ok (some "s") (run (signalOutside [.signal]) (create .vhdl {})) := by
  have shared := (run_signal_reused .vhdl {} (signalOutside [.signal])).1
  exact (shared _ mem_cons_self 0 "s" (by cbv) "other").1 rfl

/-- The file names the signal, and the scope names it once more. -/
theorem run_signalOutside_renamed :
    (∃ scope ∈ (run (signalOutside []) (create .vhdl {})).scopes,
      ((run (signalOutside []) (create .vhdl {})).names.tables.table
        (scope.own .signal)).nameOf? 0 = some "s") ∧
    (Operation.signal 0 "s").perform (run (signalOutside []) (create .vhdl {})) =
      .ok (some "s0") (run [.signal 0 "s"] (run (signalOutside []) (create .vhdl {}))) := by
  refine ⟨⟨_, mem_cons_of_mem _ mem_cons_self, ?_⟩, ?_⟩ <;> cbv

/-! ## Tables -/

/-- The names that the open scopes have for a table. -/
def tableNames (document : Document) (id : EntityId) : Set String :=
  {name | ∃ scope ∈ document.scopes,
    (name, id) ∈ (document.names.tables.table (scope.own .table)).entries}

/-- Tables of names stand in groups of seven, one for each category, and no entity has two names
among the tables of the open scopes. -/
structure TablesOnce (document : Document) : Prop where
  size : 7 ∣ document.names.tables.size
  aligned : ∀ scope ∈ document.scopes, ∀ category, scope.own category % 7 = category.index
  static : document.policy.shares .table = true → ∀ scope ∈ document.scopes,
    scope.own .table = Category.table.index
  once : ∀ id, (document.tableNames id).Subsingleton

namespace TablesOnce

variable {after : Document}

section

variable (tables : document.TablesOnce)

include tables

theorem sameScopes (same : SameScopes document after) : after.TablesOnce := by
  obtain ⟨policy, names, scopes⟩ := same
  refine ⟨?_, ?_, ?_, fun id => ?_⟩
  · exact names ▸ tables.size
  · exact scopes ▸ tables.aligned
  · exact policy ▸ scopes ▸ tables.static
  · unfold tableNames
    rw [names, scopes]
    exact tables.once id

theorem abandon (inner : document.enclosing ≠ []) : document.abandon.TablesOnce := by
  have outer {scope : Scope} (member : scope ∈ document.abandon.scopes) :
      scope ∈ document.scopes := by
    rw [scopes_abandon inner] at member
    exact mem_of_mem_tail member
  refine ⟨document.names_abandon ▸ tables.size, fun scope member => tables.aligned scope
    (outer member), fun shared scope member => ?_, fun id => (tables.once id).anti ?_⟩
  · exact tables.static (document.policy_abandon ▸ shared) scope (outer member)
  · rintro name ⟨scope, member, bound⟩
    exact ⟨scope, outer member, document.names_abandon ▸ bound⟩

/-- A new scope has the tables of the scope around it or a table without names. -/
theorem push (extra : List Category) : (document.push extra).TablesOnce := by
  have current : document.current.scope ∈ document.scopes := mem_cons_self
  have scopes : (document.push extra).scopes =
      (document.push extra).current.scope :: document.scopes := rfl
  refine ⟨?_, ?_, fun shared => ?_, fun id => (tables.once id).anti ?_⟩
  · rw [tables_push, Scope.size_create]
    exact Nat.dvd_add tables.size (Nat.dvd_refl 7)
  · rw [scopes, forall_mem_cons]
    refine ⟨fun category => ?_, tables.aligned⟩
    obtain ⟨groups, count⟩ := tables.size
    have small := Nat.mod_eq_of_lt category.index_lt
    rw [own_push, count]
    split_ifs
    · exact tables.aligned _ current category
    · exact small
    · exact (Nat.mul_add_mod 7 groups _).trans small
  · rw [scopes, forall_mem_cons]
    refine ⟨?_, tables.static shared⟩
    rw [own_push]
    split
    · exact tables.static shared _ current
    · exact if_pos shared
  · rintro name ⟨scope, member, bound⟩
    rw [entries_push] at bound
    rw [scopes] at member
    rcases mem_cons.mp member with rfl | old
    · rw [own_push] at bound
      split_ifs at bound with _ shared
      · exact ⟨_, current, bound⟩
      · exact ⟨_, current, tables.static shared _ current ▸ bound⟩
      · rw [NameTables.entries_of_size_le (Nat.le_add_right _ _)] at bound
        cases bound
    · exact ⟨scope, old, bound⟩

/-- Actions on names keep an entity from a second name as long as they name none that has one. -/
theorem renamed {naming : Naming} {new : Option Binding}
    (confined : Naming.Confined document.naming naming new)
    (unnamed : ∀ binding ∈ new, binding.category = .table →
      document.tableNames binding.id = ∅) : (document.renamed naming).TablesOnce := by
  have old {scope : Scope} (member : scope ∈ (document.renamed naming).scopes) :
      ∃ before ∈ document.scopes, scope.own = before.own := by
    rcases mem_cons.mp member with rfl | outer
    · exact ⟨_, mem_cons_self, confined.own⟩
    · exact ⟨scope, mem_cons_of_mem _ outer, rfl⟩
  have origin {name : String} {id : EntityId} (bound : name ∈ (document.renamed naming).tableNames id) :
      name ∈ document.tableNames id ∨
        ∃ binding ∈ new, binding.category = .table ∧ binding.id = id ∧ binding.name = name := by
    obtain ⟨scope, member, entry⟩ := bound
    obtain ⟨before, known, own⟩ := old member
    replace entry : (name, id) ∈ (naming.tables.table (scope.own .table)).entries := entry
    rw [confined.entries, own, mem_append] at entry
    rcases entry with entry | fresh
    · exact .inl ⟨before, known, entry⟩
    · obtain ⟨binding, kept, same⟩ := mem_map.mp fresh
      obtain ⟨member, place⟩ := mem_filter.mp kept
      cases same
      refine .inr ⟨binding, Option.mem_toList.mp member, Category.index_inj ?_, rfl, rfl⟩
      rw [← tables.aligned _ mem_cons_self binding.category,
        ← tables.aligned before known .table]
      exact congrArg (· % 7) (of_decide_eq_true place)
  refine ⟨?_, fun scope member => ?_, fun shared scope member => ?_, fun id => ?_⟩
  · exact (confined.size.symm ▸ tables.size : 7 ∣ naming.tables.size)
  · obtain ⟨before, known, own⟩ := old member
    exact own ▸ tables.aligned before known
  · obtain ⟨before, known, own⟩ := old member
    exact own ▸ tables.static shared before known
  · intro first firstBound second secondBound
    rcases origin firstBound with left | ⟨binding, member, inTables, rfl, rfl⟩
    · rcases origin secondBound with right | ⟨binding, member, inTables, rfl, rfl⟩
      · exact tables.once id left right
      · exact absurd left (unnamed binding member inTables ▸ Set.notMem_empty _)
    · rcases origin secondBound with right | ⟨other, again, _, _, rfl⟩
      · exact absurd right (unnamed binding member inTables ▸ Set.notMem_empty _)
      · rw [Option.mem_unique member again]

theorem shifts {new : Option Binding} (shifts : Shifts document after new)
    (unnamed : ∀ binding ∈ new, binding.category = .table →
      document.tableNames binding.id = ∅) : after.TablesOnce := by
  cases shifts with
  | stay same => exact tables.sameScopes same
  | enter extra same => exact (tables.sameScopes same).push extra
  | leave inner same => exact (tables.abandon inner).sameScopes same
  | replace inner same => exact ((tables.abandon inner).sameScopes same).push []
  | name confined => exact tables.renamed confined unnamed

end

theorem create (language : Language) (policy : SharingPolicy) :
    (create language policy).TablesOnce := by
  refine ⟨⟨2, rfl⟩, fun scope member category => ?_, fun shared scope member => ?_, fun id => ?_⟩
  · have small := Nat.mod_eq_of_lt category.index_lt
    rw [mem_singleton.mp member, own_create]
    split
    · exact small
    · exact (Nat.add_mod_left 7 _).trans small
  · rw [mem_singleton.mp member, own_create]
    exact if_pos shared
  · rintro name ⟨scope, _, bound⟩
    rw [entries_create] at bound
    cases bound

end TablesOnce

section

variable (well : document.WellNested)

include well

theorem WellNested.mem_tableNames {id : EntityId} {name : String}
    (named : document.current.scope.tableName? document.names.tables id = some name) :
    name ∈ document.tableNames id := by
  obtain ⟨set, member, found⟩ := exists_of_findSome?_eq_some named
  rw [well.chain_eq] at member
  obtain ⟨scope, opened, rfl⟩ := mem_map.mp member
  exact ⟨scope, opened, NameTable.mem_entries_of_nameOf? found⟩

theorem WellNested.tableNames_eq_empty {id : EntityId}
    (unnamed : document.current.scope.tableName? document.names.tables id = none) :
    document.tableNames id = ∅ := by
  refine Set.eq_empty_of_forall_notMem fun name ⟨scope, opened, bound⟩ => ?_
  have here := findSome?_eq_none_iff.mp unnamed _ (well.own_mem_chain opened)
  rw [NameTable.nameOf?, Option.map_eq_none_iff, find?_eq_none] at here
  exact here _ bound (decide_eq_true rfl)

/-- Operations bind no second name to a table, unless they declare one as it is given. -/
theorem Operation.tableNames_of_binding? {operation : Operation}
    (other : ∀ category name id, operation = .declare category name id → category ≠ .table) :
    ∀ binding ∈ operation.binding? document, binding.category = .table →
      document.tableNames binding.id = ∅ := by
  intro binding member inTables
  unfold binding? at member
  split at member
  · rename_i category id name after inCategory declared done
    split at member
    · rename_i free
      cases member
      cases inTables
      cases operation with
      | table given stem =>
        cases declared
        cases named : document.current.scope.tableName? document.names.tables id with
        | none => exact well.tableNames_eq_empty named
        | some known =>
          obtain ⟨set, seen, found⟩ := exists_of_findSome?_eq_some named
          have reused : (Operation.table id stem).perform document = .ok (some known) document :=
            map_eq_ok.mpr
              ⟨_, withNames_of_eq_ok (Naming.declareTable_of_named named stem), rfl⟩
          cases reused.symm.trans done
          cases (Scope.not_isFree_of_nameOf? _ seen found).symm.trans free
      | declare category given entity =>
        cases inCategory
        exact absurd rfl (other .table given entity rfl)
      | temporary stem format =>
        exact absurd inCategory (by unfold category?; cases document.current.flavor <;> nofun)
      | _ => cases inCategory
    · cases member
  · cases member

theorem run_tablesOnce {operations : List Operation} (tables : document.TablesOnce)
    (other : ∀ category name id, .declare category name id ∈ operations → category ≠ .table) :
    (run operations document).TablesOnce := by
  induction operations generalizing document with
  | nil => exact tables
  | cons operation rest ih =>
    refine ih ((operation.perform_keeps document).nested well)
      (tables.shifts (operation.perform_shifts well.founded) ?_) fun category name id member =>
        other category name id (mem_cons_of_mem _ member)
    refine operation.tableNames_of_binding? well fun category name id same => ?_
    exact other category name id (same ▸ mem_cons_self)

theorem TablesOnce.declareTable_of_mem (tables : document.TablesOnce) {id : EntityId}
    {name : String} (named : name ∈ document.tableNames id) (stem : String) :
    withNames (Naming.declareTable id stem) document = .ok { name, reused := true } document := by
  cases found : document.current.scope.tableName? document.names.tables id with
  | none => exact absurd named (well.tableNames_eq_empty found ▸ Set.notMem_empty name)
  | some known =>
    cases tables.once id (well.mem_tableNames found) named
    exact withNames_of_eq_ok (Naming.declareTable_of_named found stem)

theorem WellNested.declareTable_of_empty {id : EntityId} (unnamed : document.tableNames id = ∅)
    (stem : String) :
    ∃ name after,
      withNames (Naming.declareTable id stem) document = .ok { name, reused := false } after ∧
      document.current.scope.isFree document.names.tables name = true ∧
      ∀ place, (after.names.tables.table place).entries =
        (document.names.tables.table place).entries ++
          if place = document.current.scope.own .table then [(name, id)] else [] := by
  cases found : document.naming.scope.tableName? document.naming.tables id with
  | some known => exact absurd (well.mem_tableNames found) (unnamed ▸ Set.notMem_empty known)
  | none =>
    have here := findSome?_eq_none_iff.mp found _ mem_cons_self
    obtain ⟨name, naming, free, declared⟩ := Naming.declareFree_succeeds stem here
    have confines := Naming.declareFree_confines .table well.founded stem id
    rw [declared, Naming.Confines, if_pos free] at confines
    refine ⟨name, document.renamed naming, withNames_of_eq_ok
      ((Naming.declareTable_of_unnamed found stem).trans (bind_of_eq_ok declared)), free,
      fun place => (confines.entries place).trans (congrArg _ ?_)⟩
    split
    · rename_i same
      simp [Binding.entriesAt, Binding.entry, same, Document.naming]
    · rename_i apart
      simp [Binding.entriesAt, Ne.symm apart, Document.naming]

end

/-- A table that has a name in an open scope keeps it, and nothing changes then. A table without one
is declared in the innermost scope, under a name that is free in all scopes. So it never has two
names at a time, and where tables are static it has one name to the end. Functions, components and
reserved names are declared as they are given, and tables are not. -/
theorem run_table_reused (language : Language) (policy : SharingPolicy)
    {operations : List Operation}
    (other : ∀ category name id, .declare category name id ∈ operations → category ≠ .table) :
    let document := run operations (create language policy)
    ∀ id, (document.tableNames id).Subsingleton ∧
      (∀ name ∈ document.tableNames id, ∀ stem,
        withNames (Naming.declareTable id stem) document =
          .ok { name, reused := true } document) ∧
      (document.tableNames id = ∅ → ∀ stem, ∃ name after,
        withNames (Naming.declareTable id stem) document = .ok { name, reused := false } after ∧
        document.current.scope.isFree document.names.tables name = true ∧
        ∀ place, (after.names.tables.table place).entries =
          (document.names.tables.table place).entries ++
            if place = document.current.scope.own .table then [(name, id)] else []) ∧
      (policy.shares .table = true → ∀ stem named after,
        withNames (Naming.declareTable id stem) document = .ok named after → ∀ more,
        (∀ category name id, .declare category name id ∈ more → category ≠ .table) → ∀ again,
          withNames (Naming.declareTable id again) (run more after) =
            .ok { name := named.name, reused := true } (run more after)) := by
  intro document id
  have well : document.WellNested := run_wellNested language policy operations
  have tables : document.TablesOnce :=
    run_tablesOnce (create_wellNested language policy) (.create language policy) other
  have reuses {name : String} (named : name ∈ document.tableNames id) (stem : String) :=
    tables.declareTable_of_mem well named stem
  have declares (unnamed : document.tableNames id = ∅) (stem : String) :=
    well.declareTable_of_empty unnamed stem
  refine ⟨tables.once id, fun name => reuses, declares, ?_⟩
  intro shared stem named after done more others again
  have policy_eq : document.policy = policy := (run_create_within language policy _).policy_eq
  have static := tables.static (policy_eq ▸ shared)
  have bound : (named.name, id) ∈ (after.names.tables.table Category.table.index).entries := by
    rcases (document.tableNames id).eq_empty_or_nonempty with unnamed | ⟨name, member⟩
    · obtain ⟨name, last, declared, _, entries⟩ := declares unnamed stem
      cases declared.symm.trans done
      rw [entries, if_pos (static _ mem_cons_self).symm]
      exact mem_append_cons_self
    · cases (reuses member stem).symm.trans done
      obtain ⟨scope, opened, entry⟩ := member
      exact static scope opened ▸ entry
  -- The call is an operation of the run, and what it bound is bound ever after.
  have called : finalState ((Operation.table id stem).perform document) = after :=
    (finalState_map _ _ document).trans (congrArg finalState done)
  have kept : (named.name, id) ∈
      ((run more after).names.tables.table Category.table.index).entries := by
    have nested : after.WellNested := called ▸ (Operation.perform_keeps _ document).nested well
    refine OrderedMap.mem_of_lookup ((run_keeps more after).bound _ _ _ ?_)
    exact OrderedMap.lookup_eq_some_of_mem (nested.apart.faithful _).names bound
  have whole : run more after =
      run (operations ++ .table id stem :: more) (Document.create language policy) := by
    rw [run_append, ← called]
    rfl
  rw [whole] at kept ⊢
  refine TablesOnce.declareTable_of_mem (run_wellNested language policy _)
    (run_tablesOnce (create_wellNested language policy) (.create language policy) ?_)
    ⟨_, mem_cons_self, ?_⟩ again
  · intro category name entity member
    rcases mem_append.mp member with earlier | later
    · exact other category name entity earlier
    · rcases mem_cons.mp later with call | later
      · cases call
      · exact others category name entity later
  · rw [(run_placed language policy _ mem_cons_self).shared .table shared]
    exact kept

/-- A table of the file is found from the scope inside, which has tables of its own, and keeps its
name. -/
theorem run_table_reused_inside :
    let document := run [.alloc (.table [.int 1] .int32), .table 0 "t", .openSharing []]
      (create .c { staticTables := false })
    withNames (Naming.declareTable 0 "other") document = .ok { name := "t", reused := true }
      document := by
  intro document
  have named : "t" ∈ document.tableNames 0 :=
    ⟨_, mem_cons_of_mem _ mem_cons_self, by decide +kernel⟩
  have other : ∀ category name id, Operation.declare category name id ∈
      [Operation.alloc (.table [.int 1] .int32), .table 0 "t", .openSharing []] →
      category ≠ .table := by
    intro category name id member
    simp at member
  exact (run_table_reused .c { staticTables := false } other 0).2.1 "t" named "other"

end Retarget.Document
