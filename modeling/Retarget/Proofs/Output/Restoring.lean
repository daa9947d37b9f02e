import Retarget.Proofs.Output.Closing

/-!
# Scopes that are restored

What each operation does to the open scopes and their names, whatever it writes
(`Document.Shifts`): it leaves them, enters or leaves a scope, replaces the innermost one, or acts
on the names of the innermost one. A scope that was opened has tables of its own for all categories
but the shared ones, and so have the scopes inside it (`Document.Within`). Once it is closed again,
the scopes around it are as they were, and the names that were bound in shared categories are all
that is left of it.
-/

namespace Retarget

open List

namespace Document

/-! ## What an operation does to the scopes -/

/-- What an operation can do to the scopes of a document, and what it binds on the way. -/
inductive Shifts (document : Document) : Document → Option Binding → Prop where
  | stay {after : Document} (same : SameScopes document after) : Shifts document after none
  | enter {middle : Document} (extra : List Category) (same : SameScopes document middle) :
      Shifts document (middle.push extra) none
  | leave {after : Document} (inner : document.enclosing ≠ [])
      (same : SameScopes document.abandon after) : Shifts document after none
  | replace {middle : Document} (inner : document.enclosing ≠ [])
      (same : SameScopes document.abandon middle) : Shifts document (middle.push []) none
  | name {after : Naming} {new : Option Binding}
      (confined : Naming.Confined document.naming after new) :
      Shifts document (document.renamed after) new

section Shifts

variable {document : Document}

/-- Whether it is written or not, the innermost draft is left. -/
theorem merge_leaves (inner : document.enclosing ≠ []) :
    SameScopes document.abandon (finalState (merge document)) := by
  obtain ⟨parent, enclosing, around⟩ := exists_cons_of_ne_nil inner
  rw [finalState_merge around, abandon_of_enclosing around]
  have same := document.current.mergeInto_sameScope document.names (closing document.policy) parent
  exact ⟨rfl, rfl, congrArg (· :: _) same⟩

theorem closeScope_leaves (inner : document.enclosing ≠ []) :
    SameScopes document.abandon (finalState (closeScope document)) := by
  unfold closeScope
  exact Changes.andThen (merge_leaves inner) fun _ =>
    tryCurrent_sameScopes fun _ _ => Draft.scope_closeBlock

theorem closeScope_shifts : Shifts document (finalState (closeScope document)) none := by
  by_cases alone : document.enclosing = []
  · rw [closeScope_of_outermost alone]
    exact .stay (.refl document)
  · exact .leave alone (closeScope_leaves alone)

theorem linkScope_shifts (transition : String) :
    Shifts document (finalState (linkScope transition document)) none := by
  cases linked : document.language.blockLink? transition with
  | none =>
    rw [linkScope_of_noBlocks linked]
    exact .stay (.refl document)
  | some link =>
    by_cases alone : document.enclosing = []
    · rw [linkScope_of_outermost linked alone]
      exact .stay (.refl document)
    have left : SameScopes document.abandon
        (finalState ((merge >>= fun _ => tryCurrent (·.linkBlock transition)) document)) :=
      Changes.andThen (merge_leaves alone) fun _ =>
        tryCurrent_sameScopes fun _ _ => Draft.scope_linkBlock
    rw [linkScope_of_blockLink? linked, ← bind_assoc]
    cases outcome : (merge >>= fun _ => tryCurrent (·.linkBlock transition)) document with
    | error fault middle =>
      rw [bind_of_eq_error outcome]
      rw [outcome] at left
      exact .leave alone left
    | ok value middle =>
      rw [bind_of_eq_ok outcome]
      rw [outcome] at left
      exact .replace alone left

namespace Operation

/-- What one operation does to the scopes, and what it binds. -/
theorem perform_shifts (operation : Operation) (founded : document.naming.Founded) :
    Shifts document (finalState (operation.perform document)) (operation.binding? document) := by
  cases naming : operation.isNaming with
  | true =>
    obtain ⟨after, performed, confined⟩ := perform_names naming founded
    rw [performed]
    exact .name confined
  | false =>
    cases operation with
    | openSharing extra =>
      exact .enter extra (modifyCurrent_sameScopes Draft.scope_openBlock document)
    | close =>
      rw [perform, finalState_andThen]
      exact closeScope_shifts
    | link transition =>
      rw [perform, finalState_andThen]
      exact linkScope_shifts transition
    | _ => first | exact .stay (perform_sameScopes rfl document) | cases naming

end Operation

end Shifts

end Document

/-! ## The tables of inner scopes -/

/-- A scope has the static tables of shared categories and, for the others, tables from a given
place on. -/
structure Scope.Placed (policy : SharingPolicy) (base : Nat) (scope : Scope) : Prop where
  shared : ∀ category, policy.shares category = true → scope.own category = category.index
  fresh : ∀ category, policy.shares category = false → base ≤ scope.own category

theorem NameTable.isFree_iff_notMem (table : NameTable) (name : String) :
    table.isFree name = true ↔ name ∉ table.entries.map Prod.fst := by
  rw [OrderedMap.mem_keys_iff_lookup, isFree, lookup?, Option.not_isSome_iff_eq_none,
    Option.isNone_iff_eq_none]

/-- Among the tables of a scope, a static one belongs to its category alone. -/
theorem Scope.Placed.own_eq_index_iff {policy : SharingPolicy} {base : Nat} {scope : Scope}
    (placed : scope.Placed policy base) (high : 7 ≤ base) {category : Category}
    (shared : policy.shares category = true) (other : Category) :
    scope.own other = category.index ↔ other = category := by
  constructor
  · intro same
    cases shares : policy.shares other with
    | true => exact Category.index_inj ((placed.shared other shares).symm.trans same)
    | false =>
      have above := placed.fresh other shares
      rw [same] at above
      have below := category.index_lt
      omega
  · rintro rfl
    exact placed.shared other shared

namespace Document

variable {document : Document}

/-- The scopes inside some outer ones have their tables from the place on that was next when they
were opened. The tables that the outer ones have for themselves are as they were then, and the
static ones have gained some bindings. -/
structure Within (policy : SharingPolicy) (tables : NameTables) (outer : List Scope)
    (bindings : List Binding) (document : Document) : Prop where
  policy_eq : document.policy = policy
  stacked : ∃ inner, document.scopes = inner ++ outer ∧
    ∀ scope ∈ inner, scope.Placed policy tables.size
  size : tables.size ≤ document.names.tables.size
  framed : ∀ id, 7 ≤ id → id < tables.size → document.names.tables.table id = tables.table id
  statics : ∀ category, policy.shares category = true →
    (document.names.tables.table category.index).entries =
      (tables.table category.index).entries ++
        (bindings.filter (·.category = category)).map Binding.entry

theorem length_scopes (document : Document) : document.scopes.length = document.depth := by
  rw [scopes, length_cons, length_map, depth]

theorem scopes_abandon (inner : document.enclosing ≠ []) :
    document.abandon.scopes = document.scopes.tail := by
  obtain ⟨parent, enclosing, around⟩ := exists_cons_of_ne_nil inner
  rw [abandon_of_enclosing around, scopes, scopes, around]
  rfl

theorem own_push (document : Document) (extra : List Category) (category : Category) :
    (document.push extra).current.scope.own category =
      if category ∈ extra then document.current.scope.own category
      else if document.policy.shares category then category.index
      else document.names.tables.size + category.index := by
  change (document.sharedTables extra category).getD _ = _
  unfold sharedTables staticTable?
  split
  · rfl
  · split <;> rfl

namespace Within

variable {policy : SharingPolicy} {tables : NameTables} {outer : List Scope}
  {bindings : List Binding} {document after : Document}

section

variable (within : document.Within policy tables outer bindings)

include within

/-- Inside the outer scopes, the current scope is an inner one. -/
theorem exists_inner (above : outer.length < document.depth) :
    ∃ inner, document.scopes = document.current.scope :: inner ++ outer ∧
      document.current.scope.Placed policy tables.size ∧
      ∀ scope ∈ inner, scope.Placed policy tables.size := by
  obtain ⟨inner, stacked, placed⟩ := within.stacked
  cases inner with
  | nil =>
    have same := congrArg List.length stacked
    rw [length_scopes, nil_append] at same
    omega
  | cons scope inner =>
    obtain ⟨head, rest⟩ := List.cons.inj stacked
    obtain ⟨first, others⟩ := forall_mem_cons.mp placed
    exact ⟨inner, congrArg₂ List.cons rfl rest, head ▸ first, others⟩

theorem sameScopes (same : SameScopes document after) :
    after.Within policy tables outer bindings := by
  obtain ⟨policy_eq, names, scopes⟩ := same
  refine ⟨policy_eq.trans within.policy_eq, ?_, ?_, ?_, ?_⟩
  · rw [scopes]
    exact within.stacked
  · rw [names]
    exact within.size
  · rw [names]
    exact within.framed
  · rw [names]
    exact within.statics

theorem abandon (above : outer.length < document.depth) (inside : document.enclosing ≠ []) :
    document.abandon.Within policy tables outer bindings := by
  obtain ⟨inner, stacked, _, placed⟩ := within.exists_inner above
  obtain ⟨parent, enclosing, around⟩ := exists_cons_of_ne_nil inside
  have scopes : document.abandon.scopes = inner ++ outer := by
    rw [scopes_abandon inside, stacked]
    rfl
  rw [abandon_of_enclosing around] at scopes ⊢
  exact ⟨within.policy_eq, ⟨inner, scopes, placed⟩, within.size, within.framed, within.statics⟩

/-- A new scope has new tables, apart from the static ones and those that it shares with an inner
scope. -/
theorem push (high : 7 ≤ tables.size) {extra : List Category}
    (given : extra = [] ∨ outer.length < document.depth) :
    (document.push extra).Within policy tables outer bindings := by
  obtain ⟨inner, stacked, placed⟩ := within.stacked
  have old {id : TableId} (low : id < tables.size) :
      (document.push extra).names.tables.table id = document.names.tables.table id := by
    rw [tables_push, Scope.table_create_of_lt _ (Nat.lt_of_lt_of_le low within.size)]
  refine ⟨within.policy_eq, ⟨_ :: inner, congrArg (_ :: ·) stacked, ?_⟩, ?_, ?_, ?_⟩
  · refine forall_mem_cons.mpr ⟨?_, placed⟩
    have current (category : Category) (member : category ∈ extra) :
        document.current.scope.Placed policy tables.size := by
      rcases given with rfl | above
      · cases member
      · obtain ⟨_, _, inside, _⟩ := within.exists_inner above
        exact inside
    constructor
    · intro category shared
      rw [own_push, within.policy_eq, shared]
      split
      · rename_i member
        exact (current category member).shared category shared
      · rfl
    · intro category unshared
      rw [own_push, within.policy_eq, unshared]
      split
      · rename_i member
        exact (current category member).fresh category unshared
      · exact Nat.le_add_right_of_le within.size
  · rw [tables_push, Scope.size_create]
    exact Nat.le_add_right_of_le within.size
  · intro id low below
    exact (old below).trans (within.framed id low below)
  · intro category shared
    rw [old (Nat.lt_of_lt_of_le category.index_lt high)]
    exact within.statics category shared

/-- Actions on the names of an inner scope. -/
theorem renamed (high : 7 ≤ tables.size) (above : outer.length < document.depth) {naming : Naming}
    {new : Option Binding} (confined : Naming.Confined document.naming naming new) :
    (document.renamed naming).Within policy tables outer (bindings ++ new.toList) := by
  obtain ⟨inner, stacked, current, placed⟩ := within.exists_inner above
  refine ⟨within.policy_eq, ⟨naming.scope :: inner, ?_, ?_⟩, ?_, ?_, ?_⟩
  · exact congrArg (naming.scope :: ·) (List.cons.inj stacked).2
  · refine forall_mem_cons.mpr ⟨?_, placed⟩
    constructor <;> rw [confined.own]
    exacts [current.shared, current.fresh]
  · exact Nat.le_trans within.size (Nat.le_of_eq confined.size.symm)
  · intro id low below
    refine (confined.elsewhere id fun category same => ?_).trans (within.framed id low below)
    replace same : document.current.scope.own category = id := same
    cases shares : policy.shares category with
    | true =>
      have static := (current.shared category shares).symm.trans same
      exact Nat.not_le_of_lt (static ▸ category.index_lt) low
    | false => exact Nat.not_le_of_lt below (same ▸ current.fresh category shares)
  · intro category shared
    have added : Binding.entriesAt document.current.scope.own category.index new.toList =
        (new.toList.filter (·.category = category)).map Binding.entry := by
      unfold Binding.entriesAt
      congr 2
      funext binding
      rw [decide_eq_decide]
      exact current.own_eq_index_iff high shared binding.category
    rw [filter_append, map_append, ← append_assoc, ← within.statics category shared,
      ← added]
    exact confined.entries category.index

theorem shifts (high : 7 ≤ tables.size) (above : outer.length < document.depth)
    {new : Option Binding} (shifts : Shifts document after new) :
    after.Within policy tables outer (bindings ++ new.toList) := by
  cases shifts with
  | name confined => exact within.renamed high above confined
  | stay same =>
    rw [Option.toList_none, append_nil]
    exact within.sameScopes same
  | enter extra same =>
    rw [Option.toList_none, append_nil]
    refine (within.sameScopes same).push high (.inr ?_)
    rw [← length_scopes, same.scopes, length_scopes]
    exact above
  | leave inside same =>
    rw [Option.toList_none, append_nil]
    exact (within.abandon above inside).sameScopes same
  | replace inside same =>
    rw [Option.toList_none, append_nil]
    exact ((within.abandon above inside).sameScopes same).push high (.inl rfl)

end

end Within

/-- The names of the current scope have their tables. -/
theorem WellNested.founded (well : document.WellNested) : document.naming.Founded :=
  fun category => well.apart.inside _ (document.current.scope.sees_own category)

/-- A run that stays inside the outer scopes. -/
theorem run_within {policy : SharingPolicy} {tables : NameTables} {outer : List Scope}
    (high : 7 ≤ tables.size) {operations : List Operation} {bindings : List Binding}
    (well : document.WellNested) (within : document.Within policy tables outer bindings)
    (inside : ∀ front ∈ operations.inits, outer.length < (run front document).depth) :
    (run operations document).Within policy tables outer
      (bindings ++ bound operations document) := by
  induction operations generalizing document bindings with
  | nil =>
    rw [bound, append_nil]
    exact within
  | cons operation rest ih =>
    rw [inits_cons, forall_mem_cons] at inside
    obtain ⟨here, later⟩ := inside
    have stepped := within.shifts high here (operation.perform_shifts well.founded)
    rw [bound, ← append_assoc]
    refine ih ((operation.perform_keeps document).nested well) stepped fun front member => ?_
    exact later (operation :: front) (mem_map.mpr ⟨front, member, rfl⟩)

/-! ## What is left of a closed scope -/

/-- The static tables of a new document, one for each category. -/
def staticTables (policy : SharingPolicy) : NameTables :=
  (Category.all.map fun category =>
    ({ category, uniquifier := policy.uniquifier } : NameTable)).toArray

section

variable (language : Language) (policy : SharingPolicy)

theorem own_create (category : Category) :
    (create language policy).current.scope.own category =
      if policy.shares category then category.index else 7 + category.index := by
  change (staticTable? policy category).getD (7 + category.index) = _
  unfold staticTable?
  split <;> rfl

theorem create_within : (create language policy).Within policy (staticTables policy) [] [] := by
  have old {id : TableId} (low : id < 7) :
      (create language policy).names.tables.table id = (staticTables policy).table id := by
    change (Scope.create (staticTables policy) (staticTable? policy) [] policy.uniquifier).1.table
      id = _
    exact Scope.table_create_of_lt [] low
  refine ⟨rfl, ⟨[_], rfl, forall_mem_singleton.mpr ⟨?_, ?_⟩⟩, ?_, ?_, ?_⟩
  · exact fun category shared => (own_create language policy category).trans (if_pos shared)
  · intro category unshared
    rw [own_create, unshared]
    exact Nat.le_add_right 7 _
  · exact Nat.le_add_right 7 7
  · exact fun id _ below => old below
  · intro category _
    rw [old category.index_lt]
    exact (append_nil _).symm

/-- After every run the open scopes have static tables for the shared categories and others behind
these. -/
theorem run_create_within (operations : List Operation) :
    (run operations (create language policy)).Within policy (staticTables policy) []
      (bound operations (create language policy)) :=
  run_within (show 7 ≤ (staticTables policy).size from Nat.le_refl 7)
    (create_wellNested language policy) (create_within language policy) fun _ _ => Nat.succ_pos _

theorem run_placed (operations : List Operation) {scope : Scope}
    (member : scope ∈ (run operations (create language policy)).scopes) :
    scope.Placed policy 7 := by
  obtain ⟨stack, stacked, placed⟩ := (run_create_within language policy operations).stacked
  rw [stacked, append_nil] at member
  exact placed scope member

end

/-- A scope sees nothing but the tables of the scopes from itself outwards. -/
theorem Stacked.exists_own_of_mem_chain {scopes : List Scope} (stacked : Stacked scopes)
    {scope : Scope} (member : scope ∈ scopes) {set : TableSet} (seen : set ∈ scope.chain) :
    ∃ other ∈ scopes, other.own = set := by
  induction scopes with
  | nil => cases member
  | cons first rest ih =>
    rcases mem_cons.mp member with rfl | later
    · rw [Scope.chain, stacked.1] at seen
      exact mem_map.mp (show set ∈ (scope :: rest).map Scope.own from seen)
    · obtain ⟨other, outer, same⟩ := ih stacked.2 later
      exact ⟨other, mem_cons_of_mem _ outer, same⟩

theorem WellNested.own_mem_chain (well : document.WellNested) {scope : Scope}
    (member : scope ∈ document.scopes) : scope.own ∈ document.current.scope.chain := by
  rw [well.chain_eq]
  exact mem_map.mpr ⟨scope, member, rfl⟩

namespace Within

variable {policy : SharingPolicy} {bindings : List Binding} {before document : Document}

section

variable (within : document.Within policy before.names.tables before.scopes bindings)

include within

/-- The tables that outer scopes have for themselves are as they were. -/
theorem table_own (well : before.WellNested) {scope : Scope} (member : scope ∈ before.scopes)
    (placed : scope.Placed policy 7) {category : Category}
    (unshared : policy.shares category = false) :
    document.names.tables.table (scope.own category) =
      before.names.tables.table (scope.own category) :=
  within.framed _ (placed.fresh category unshared)
    (well.apart.inside _ ⟨scope.own, well.own_mem_chain member, category, rfl⟩)

/-- A static table holds a name where it did before or where the name was bound since. -/
theorem isFree_static {category : Category} (shared : policy.shares category = true)
    (name : String) :
    (document.names.tables.table category.index).isFree name = true ↔
      (before.names.tables.table category.index).isFree name = true ∧
        ∀ binding ∈ bindings, binding.category = category → binding.name ≠ name := by
  rw [NameTable.isFree_iff_notMem, NameTable.isFree_iff_notMem, within.statics category shared,
    map_append, mem_append, not_or, map_map]
  refine and_congr_right fun _ => ?_
  constructor
  · rintro absent binding member rfl same
    exact absent (mem_map.mpr ⟨binding, mem_filter.mpr ⟨member, by simp⟩, same⟩)
  · intro unbound member
    obtain ⟨binding, kept, same⟩ := mem_map.mp member
    obtain ⟨bound, inCategory⟩ := mem_filter.mp kept
    exact unbound binding bound (of_decide_eq_true inCategory) same

/-- Outer scopes have lost the names that were bound since in shared categories, and no others. -/
theorem isFree_iff (well : before.WellNested)
    (placed : ∀ scope ∈ before.scopes, scope.Placed policy 7) {scope : Scope}
    (member : scope ∈ before.scopes) (name : String) :
    scope.isFree document.names.tables name = true ↔
      scope.isFree before.names.tables name = true ∧
        ∀ binding ∈ bindings, policy.shares binding.category = true → binding.name ≠ name := by
  rw [Scope.isFree_iff, Scope.isFree_iff]
  constructor
  · intro free
    refine ⟨fun id seen => ?_, fun binding bound shared => ?_⟩
    · have now := free id seen
      obtain ⟨set, inChain, category, rfl⟩ := seen
      obtain ⟨other, outer, rfl⟩ := well.nested.exists_own_of_mem_chain member inChain
      cases shares : policy.shares category with
      | false =>
        rw [within.table_own well outer (placed other outer) shares] at now
        exact now
      | true =>
        rw [(placed other outer).shared category shares] at now ⊢
        exact ((within.isFree_static shares name).mp now).1
    · have static := (placed scope member).shared binding.category shared
      have now := free _ (static ▸ scope.sees_own binding.category)
      exact ((within.isFree_static shared name).mp now).2 binding bound rfl
  · rintro ⟨free, unbound⟩ id seen
    have earlier := free id seen
    obtain ⟨set, inChain, category, rfl⟩ := seen
    obtain ⟨other, outer, rfl⟩ := well.nested.exists_own_of_mem_chain member inChain
    cases shares : policy.shares category with
    | false =>
      rw [within.table_own well outer (placed other outer) shares]
      exact earlier
    | true =>
      rw [(placed other outer).shared category shares] at earlier ⊢
      refine (within.isFree_static shares name).mpr ⟨earlier, fun binding bound same => ?_⟩
      exact unbound binding bound (same ▸ shares)

end

end Within

/-- A run that opens a scope, does anything in it and in scopes inside it or beside it, and closes
it. The scopes around it are then as they were, with their counters, and so are their tables for the
categories that are not shared. A name is free in one of them where it was free before and was not
bound on the way in a shared category. -/
theorem run_close_restores {language : Language} {policy : SharingPolicy}
    {operations inner : List Operation} {before opened after : Document}
    (reached : run operations (create language policy) = before)
    (opens : run [.openSharing []] before = opened)
    (inside : ∀ front ∈ inner.inits, before.depth < (run front opened).depth)
    (balanced : (run inner opened).depth = opened.depth)
    (closes : run [.close] (run inner opened) = after) :
    after.scopes = before.scopes ∧
    (∀ scope ∈ before.scopes, ∀ category, policy.shares category = false →
      after.names.tables.table (scope.own category) =
        before.names.tables.table (scope.own category)) ∧
    ∀ scope ∈ before.scopes, ∀ name, scope.isFree after.names.tables name = true ↔
      scope.isFree before.names.tables name = true ∧
        ∀ binding ∈ bound inner opened, policy.shares binding.category = true →
          binding.name ≠ name := by
  have well : before.WellNested :=
    reached ▸ (run_keeps operations _).nested (create_wellNested language policy)
  obtain ⟨policy_eq, ⟨stack, stacked, placed⟩, high, _, _⟩ :
      before.Within policy (staticTables policy) [] (bound operations (create language policy)) :=
    reached ▸ run_create_within language policy operations
  rw [append_nil] at stacked
  subst stacked
  have start : before.Within policy before.names.tables before.scopes [] :=
    ⟨policy_eq, ⟨[], rfl, fun _ member => by cases member⟩, Nat.le_refl _, fun _ _ _ => rfl,
      fun _ _ => (append_nil _).symm⟩
  have entered : opened.Within policy before.names.tables before.scopes [] :=
    opens ▸ (start.sameScopes (modifyCurrent_sameScopes Draft.scope_openBlock before)).push high
      (.inl rfl)
  have nested : opened.WellNested := opens ▸ (run_keeps [.openSharing []] before).nested well
  have within := run_within high nested entered fun front member => by
    rw [length_scopes]
    exact inside front member
  rw [nil_append] at within
  -- The scope that is left is the only one inside the outer ones.
  have depth : (run inner opened).depth = before.scopes.length + 1 := by
    rw [balanced, length_scopes, ← opens]
    rfl
  have surrounded : (run inner opened).enclosing ≠ [] := by
    intro alone
    rw [Document.depth, alone] at depth
    cases depth
  have left : SameScopes (run inner opened).abandon after := by
    have closed := closeScope_leaves surrounded
    rw [← finalState_andThen closeScope (none : Option String)] at closed
    exact closes ▸ closed
  have scopes : after.scopes = before.scopes := by
    obtain ⟨rest, whole, _, _⟩ := within.exists_inner (by omega)
    have counted := congrArg List.length whole
    rw [length_scopes, length_append, length_cons] at counted
    have none : rest = [] := length_eq_zero_iff.mp (by omega)
    rw [left.scopes, scopes_abandon surrounded, whole, none]
    rfl
  rw [left.names, names_abandon]
  exact ⟨scopes, fun scope member category => within.table_own well member (placed scope member),
    fun scope member => within.isFree_iff well placed member⟩

/-- A scope with a local and a table, and one beside it with a local of the same name. -/
def besideEachOther : List Operation :=
  [.temporary "y" .int32, .table 0 "t", .link "else", .temporary "y" .int32]

/-- Of the two locals nothing is left, and the table keeps its name. -/
theorem run_close_restores_besideEachOther :
    let before := run [.alloc (.table [.int 1] .int32)] (create .c {})
    let opened := run [.openSharing []] before
    let after := run [.close] (run besideEachOther opened)
    ((∀ front ∈ besideEachOther.inits, before.depth < (run front opened).depth) ∧
      (run besideEachOther opened).depth = opened.depth) ∧
    after.scopes = before.scopes ∧
      ∀ name, before.current.scope.isFree after.names.tables name = true ↔
        before.current.scope.isFree before.names.tables name = true ∧ name ≠ "t" := by
  intro before opened after
  have inside : ∀ front ∈ besideEachOther.inits, before.depth < (run front opened).depth := by
    decide +kernel
  have balanced : (run besideEachOther opened).depth = opened.depth := by decide +kernel
  have bindings : bound besideEachOther opened =
      [⟨.variable, "y", 1, .variable .int32⟩, ⟨.table, "t", 0, .table [.int 1] .int32⟩,
        ⟨.variable, "y", 2, .variable .int32⟩] := by
    decide +kernel
  obtain ⟨scopes, _, free⟩ := run_close_restores rfl rfl inside balanced rfl
  refine ⟨⟨inside, balanced⟩, scopes, fun name => ?_⟩
  rw [free before.current.scope mem_cons_self name, bindings]
  refine and_congr_right fun _ => ⟨fun unbound same => ?_, ?_⟩
  · exact unbound _ (mem_cons_of_mem _ mem_cons_self) rfl same.symm
  · intro other binding member shared same
    rcases mem_cons.mp member with rfl | member
    · cases shared
    rcases mem_cons.mp member with rfl | member
    · exact other same.symm
    rw [mem_singleton.mp member] at shared
    cases shared

end Document

end Retarget
