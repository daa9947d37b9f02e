import Retarget.Proofs.Output.Retaining

/-!
# Declarations that are lost

Where a policy does not declare a category, a name of that category is lost as soon as it is bound
in a scope that closes: the scope leaves it out, and the head of the file does not have it either.
The finished file is then without a single semicolon. So a policy loses no declaration exactly when
it declares every category, which not all policies do.
-/

namespace Retarget

open List

/-- Nothing is declared and no statement ends in a text. -/
def Bare (text : String) : Prop :=
  ';' ∉ text.toList

theorem Bare.append {front back : String} (first : Bare front) (second : Bare back) :
    Bare (front ++ back) := by
  unfold Bare
  rw [String.toList_append, mem_append, not_or]
  exact ⟨first, second⟩

theorem Bare.empty : Bare "" :=
  not_mem_nil

theorem Bare.not_holds {text lines : String} (bare : Bare text) (declared : ¬ Bare lines) :
    ¬ Holds text lines :=
  fun holds => declared fun member => bare (holds.mem member)

namespace Draft

variable {names : Names} {draft child parent outer : Draft} {text : String}

section

variable (bare : Bare draft.text)

include bare

theorem bare_append (more : Bare text) : Bare (draft.append text).text := by
  unfold append
  split
  · exact bare.append more
  · refine bare.append ?_
    unfold Bare Language.continueLines indentation
    rw [String.toList_ofList, String.toList_ofList, mem_flatMap]
    rintro ⟨other, member, inside⟩
    split at inside
    · rcases mem_cons.mp inside with broken | margin
      · cases broken
      · cases eq_of_mem_replicate margin
    · rw [← mem_singleton.mp inside] at member
      exact more member

theorem bare_indent : Bare draft.indent.text :=
  bare.append (by unfold Bare; decide)

theorem bare_dedent (stepped : draft.dedent = .ok outer) : Bare outer.text := by
  obtain ⟨depth, _, rfl⟩ := exists_of_dedent stepped
  obtain ⟨cut, _, same⟩ := dropStep_append draft.text
  unfold Bare at bare
  rw [same] at bare
  exact fun member => bare (mem_append_left _ member)

theorem bare_closeBlock (closed : draft.closeBlock = .ok outer) : Bare outer.text := by
  obtain ⟨outside, stepped, rfl⟩ := exists_of_closeBlock closed
  refine bare_append (bare_dedent bare stepped) ?_
  unfold Bare
  cases outside.language <;> decide

end

/-- A new draft without declarations is written as line breaks and the start of a body. -/
theorem bare_mergeInto {policy : SharingPolicy} {language : Language} {flavor : Flavor}
    {scope : Scope} (fits : flavor.Fits policy language)
    (undeclared : Draft.declarations { language, flavor, scope } names
      (Document.closing policy) = "") (bare : Bare parent.text)
    (merged : Draft.mergeInto { language, flavor, scope } names (Document.closing policy) parent =
      .ok () outer) : Bare outer.text := by
  obtain ⟨body, _, _, written, rfl⟩ := exists_of_mergeInto merged
  have start : Bare (parent.append "").text := bare_append bare .empty
  have breaks : Bare "\n" := by unfold Bare; decide
  have begins : Bare "begin\n" := by unfold Bare; decide
  rw [undeclared] at written
  change Bare body.text
  cases language with
  | gappa => exact fits.elim
  | c =>
    rw [show flavor = .plain from fits] at written
    cases written
    exact bare_append start .empty
  | vhdl =>
    obtain ⟨mainLevel, rfl⟩ := fits
    obtain ⟨outside, stepped, rfl⟩ := mergeBody_hardware rfl written
    have broken := bare_append (bare_dedent start stepped) breaks
    refine bare_append (bare_append (bare_indent ?_) breaks) .empty
    split
    · exact broken
    · exact bare_append broken begins

/-- A draft whose tables are empty, those of the categories it leaves out apart. -/
theorem declarations_eq_empty {emission : Emission}
    (empty : ∀ category, category ∉ draft.exclusions emission →
      (names.tables.table (draft.scope.own category)).entries = []) :
    draft.declarations names emission = "" := by
  unfold declarations
  rw [Scope.initializations_eq, String.append_empty]
  refine join_map_empty fun category member => ?_
  have included : category ∉ draft.exclusions emission := by
    simpa using (mem_filter.mp member).2
  rw [NameTable.declarations, empty category included]
  rfl

/-- A draft without declarations is rendered as its text, apart from the start of a body. -/
theorem bare_render {policy : SharingPolicy} {language : Language}
    (fits : draft.flavor.Fits policy language) (undeclared : draft.declarations names {} = "")
    (bare : Bare draft.text) (rendered : draft.render names {} = .ok text) : Bare text := by
  unfold render checkBalanced at rendered
  split at rendered
  · rw [undeclared] at rendered
    cases language with
    | gappa => exact fits.elim
    | c =>
      rw [show draft.flavor = .plain from fits] at rendered
      cases rendered
      exact (Bare.empty.append bare).append .empty
    | vhdl =>
      obtain ⟨mainLevel, flavor⟩ := fits
      rw [flavor] at rendered
      cases mainLevel with
      | true =>
        cases rendered
        exact (Bare.empty.append bare).append .empty
      | false =>
        cases rendered
        have head : Bare ("begin\n" ++ "\n") := by unfold Bare; decide
        exact (head.append bare).append .empty
  · cases rendered

end Draft

namespace Document

/-- The tables of new scopes differ, unless they are static. -/
theorem staticTable?_getD_inj {policy : SharingPolicy} {low high : Nat} (above : 7 ≤ low)
    (apart : low = high ∨ low + 7 ≤ high) {first second : Category}
    (same : (staticTable? policy first).getD (low + first.index) =
      (staticTable? policy second).getD (high + second.index)) :
    first = second ∧ (low = high ∨ policy.shares second = true) := by
  have bound := first.index_lt
  have bound' := second.index_lt
  unfold staticTable? at same
  split at same <;> split at same
  · rename_i shared
    exact ⟨Category.index_inj same, .inr shared⟩
  · replace same : first.index = high + second.index := same
    omega
  · replace same : low + first.index = second.index := same
    omega
  · replace same : low + first.index = high + second.index := same
    exact ⟨Category.index_inj (by omega), by omega⟩

section

variable (first second : List Operation) (document : Document)

theorem isPlainRun_append :
    isPlainRun (first ++ second) document =
      (isPlainRun first document && isPlainRun second (run first document)) := by
  induction first generalizing document with
  | nil => rfl
  | cons operation rest ih =>
    rw [cons_append, isPlainRun, isPlainRun, ih, Bool.and_assoc]
    rfl

theorem bound_append :
    bound (first ++ second) document =
      bound first document ++ bound second (run first document) := by
  induction first generalizing document with
  | nil => rfl
  | cons operation rest ih =>
    rw [cons_append, bound, bound, ih, append_assoc]
    rfl

end

section Lost

variable {language : Language} {policy : SharingPolicy} {document : Document}
  {bindings : List Binding} {category : Category}

/-- A name that is bound in a document without names. -/
theorem declare_of_unnamed (empty : ∀ id, (document.names.tables.table id).entries = [])
    (category : Category) :
    ∃ tables : NameTables,
      (Operation.declare category "x" 0).perform document =
        .ok (some "x") (document.renamed { document.naming with tables }) ∧
      (∀ id, document.current.scope.own category ≠ id → (tables.table id).entries = []) ∧
      (Operation.declare category "x" 0).binding? document =
        some ⟨category, "x", 0, document.names.entities.entity 0⟩ := by
  have free : document.current.scope.isFree document.names.tables "x" = true := by
    rw [Scope.isFree_iff]
    exact fun id _ => NameTable.isFree_of_entries_eq_nil (empty id)
  have unnamed : (document.names.tables.table (document.current.scope.own category)).nameOf? 0 =
      none := by
    rw [NameTable.nameOf?, empty]
    rfl
  rcases Naming.declare_cases category "x" 0 document.naming with
    ⟨tables, declared, done⟩ | ⟨fault, failed⟩
  · obtain ⟨_, _, same⟩ := Scope.declare_eq_ok declared
    have performed : (Operation.declare category "x" 0).perform document =
        .ok (some "x") (document.renamed { document.naming with tables }) :=
      bind_of_eq_ok (withNames_of_eq_ok done)
    refine ⟨tables, performed, fun id apart => ?_, ?_⟩
    · rw [same]
      exact (congrArg NameTable.entries (NameTables.table_setIfInBounds_of_ne _ _ apart)).trans
        (empty id)
    · unfold Operation.binding?
      rw [performed]
      exact if_pos free
  · have declared : ∃ after, Naming.declare category "x" 0 document.naming = .ok () after :=
      Naming.declare_of_isFree free unnamed
    obtain ⟨after, done⟩ := declared
    cases failed.symm.trans done

/-- A file in which no table is declared, neither where its only scope closes nor at its head. -/
theorem bare_finish {parent : Draft} {flavor : Flavor} {scope : Scope} {text : String}
    (retains : document.Retains language policy bindings)
    (around : document.enclosing = [parent])
    (new : document.current = { language, flavor, scope })
    (inner : ∀ category, category ∉ document.current.exclusions (closing policy) →
      (document.names.tables.table (document.current.scope.own category)).entries = [])
    (outer : ∀ category, category ∉ parent.exclusions {} →
      (document.names.tables.table (parent.scope.own category)).entries = [])
    (bare : Bare parent.text)
    (finished : (finalState (closeScope document)).finish false = .ok text) : Bare text := by
  obtain ⟨merged, current, merging, closed, _, done⟩ :=
    retains.anchored.closeScope_of_flat around retains.flat
  obtain ⟨fits, outside⟩ := forall_mem_cons.mp
    (show ∀ draft ∈ document.drafts, _ from retains.flavors)
  rw [around, forall_mem_singleton] at outside
  have undeclared := Draft.declarations_eq_empty inner
  have advances := Draft.mergeInto_advances merging
  have written : Bare merged.text := by
    rw [retains.within.policy_eq, new] at merging
    rw [new] at fits undeclared
    exact Draft.bare_mergeInto fits undeclared bare merging
  obtain ⟨_, continues, flavor⟩ := Draft.closeBlock_eq_ok closed
  have same : current.flavor = parent.flavor := flavor.trans advances.flavor
  have fits : current.flavor.Fits policy language := by
    rw [same]
    exact outside
  rw [done] at finished
  refine Draft.bare_render fits ?_ (Draft.bare_closeBlock written closed) finished
  refine Draft.declarations_eq_empty fun category included => ?_
  rw [continues.own.trans advances.own]
  refine outer category ?_
  unfold Draft.exclusions at included ⊢
  rwa [same] at included

theorem omits_or_hoists (undeclared : policy.declares language category = false) :
    policy.omits language category = true ∨
      policy.hoists category = true ∧ policy.shares category = false := by
  unfold SharingPolicy.declares at undeclared
  cases omitted : policy.omits language category with
  | true => exact .inl rfl
  | false =>
    rw [omitted] at undeclared
    cases hoisted : policy.hoists category with
    | false =>
      rw [hoisted] at undeclared
      cases undeclared
    | true =>
      rw [hoisted] at undeclared
      exact .inr ⟨rfl, undeclared⟩

/-- The outermost scope and one inside it that is as new as it. -/
structure Opened (language : Language) (policy : SharingPolicy) (document : Document) : Prop where
  retains : document.Retains language policy []
  made : document.names.entities = #[.variable .bool]
  unnamed : ∀ id, (document.names.tables.table id).entries = []
  new : ∃ flavor scope, document.current = { language, flavor, scope }
  own : ∀ category, document.current.scope.own category =
    (staticTable? policy category).getD (14 + category.index)
  around : ∃ parent, document.enclosing = [parent] ∧ Bare parent.text ∧ ∀ category,
    parent.scope.own category = (staticTable? policy category).getD (7 + category.index)

section

variable (opened : document.Opened language policy)

include opened

/-- A name is bound in the scope, and only in the table of its category, before the scope closes. -/
theorem Opened.run_eq (blocks : language ≠ .gappa) (category : Category) :
    ∃ (tables : NameTables) (bindings : List Binding),
      (∀ id, document.current.scope.own category ≠ id → (tables.table id).entries = []) ∧
      (document.renamed { document.naming with tables }).Retains language policy bindings ∧
      run [.declare category "x" 0, .close] document =
        finalState (closeScope (document.renamed { document.naming with tables })) := by
  obtain ⟨tables, performed, others, _⟩ := declare_of_unnamed opened.unnamed category
  have retains := opened.retains.perform blocks
    (show (Operation.declare category "x" 0).isPlain document = true from
      decide_eq_true (opened.made ▸ Nat.one_pos))
  rw [performed] at retains
  refine ⟨tables, _, others, retains, ?_⟩
  rw [← finalState_andThen closeScope (none : Option String)]
  change finalState (Operation.close.perform
    (finalState ((Operation.declare category "x" 0).perform document))) = _
  rw [performed]
  rfl

theorem Opened.depth_run (blocks : language ≠ .gappa) (category : Category) :
    (run [.declare category "x" 0, .close] document).depth = 1 := by
  obtain ⟨tables, bindings, _, retains, ran⟩ := opened.run_eq blocks category
  obtain ⟨parent, around, _⟩ := opened.around
  obtain ⟨_, _, _, _, _, done⟩ := retains.anchored.closeScope_of_flat around retains.flat
  rw [ran, done]
  rfl

theorem Opened.isPlainRun (category : Category) :
    Document.isPlainRun [.declare category "x" 0, .close] document = true :=
  Bool.and_eq_true_iff.mpr ⟨decide_eq_true (opened.made ▸ Nat.one_pos), rfl⟩

theorem Opened.mem_bound (category : Category) :
    ⟨category, "x", 0, .variable .bool⟩ ∈ bound [.declare category "x" 0, .close] document := by
  obtain ⟨_, _, _, binding⟩ := declare_of_unnamed opened.unnamed category
  rw [opened.made] at binding
  exact mem_append_left _ (Option.mem_toList.mpr binding)

/-- The only table with an entry belongs to a category that is left out where the scope closes and
at the head of the file. -/
theorem Opened.bare (blocks : language ≠ .gappa)
    (undeclared : policy.declares language category = false) {text : String}
    (finished : (run [.declare category "x" 0, .close] document).finish false = .ok text) :
    Bare text := by
  obtain ⟨tables, bindings, others, retains, ran⟩ := opened.run_eq blocks category
  obtain ⟨flavor, scope, new⟩ := opened.new
  obtain ⟨parent, around, bare, above⟩ := opened.around
  obtain ⟨fits, outside⟩ := forall_mem_cons.mp
    (show ∀ draft ∈ document.drafts, _ from opened.retains.flavors)
  rw [around, forall_mem_singleton] at outside
  rw [ran] at finished
  have created : (document.renamed { document.naming with tables }).current =
      { language, flavor, scope } := new
  refine bare_finish retains around created ?_ ?_ bare finished
  · intro other included
    refine others _ fun same => included ?_
    replace same : document.current.scope.own category = document.current.scope.own other := same
    rw [opened.own, opened.own] at same
    obtain ⟨rfl, _⟩ := staticTable?_getD_inj (by decide) (.inl rfl) same
    refine (Draft.mem_exclusions_closing fits).mpr ?_
    exact (omits_or_hoists undeclared).symm.imp_left And.left
  · intro other included
    refine others _ fun same => included ?_
    rw [opened.own, above] at same
    obtain ⟨rfl, shared⟩ := staticTable?_getD_inj (Nat.le_refl 7) (.inr (Nat.le_refl 14)) same.symm
    refine (Draft.mem_exclusions_file outside false).mpr ?_
    rcases omits_or_hoists undeclared with omitted | ⟨_, unshared⟩
    · exact omitted
    · rw [unshared] at shared
      rcases shared with apart | shared
      · cases apart
      · cases shared

end

/-- A scope inside the outermost one, and an entity to bind. -/
theorem run_open_opened (blocks : language ≠ .gappa) (policy : SharingPolicy) :
    (run [.alloc (.variable .bool), .openSharing []] (create language policy)).Opened
      language policy := by
  have retains : (run [.alloc (.variable .bool), .openSharing []] (create language policy)).Retains
      language policy ([] ++ bound [.alloc (.variable .bool), .openSharing []]
        (create language policy)) :=
    (Retains.create policy blocks).run blocks rfl
  refine ⟨retains, rfl, fun id => ?_, ⟨_, _, rfl⟩, fun _ => rfl,
    _, rfl, ?_, fun _ => rfl⟩
  · exact (entries_push _ [] id).trans (entries_create language policy id)
  · have opens : Bare language.blockOpen := by
      unfold Bare
      cases language <;> decide
    exact Draft.bare_indent (Draft.bare_append .empty opens)

/-- The declaration of a variable ends with a semicolon, in whatever table its name is. -/
theorem not_bare_declaration (blocks : language ≠ .gappa) (category : Category) :
    ¬ Bare (Binding.declaration language ⟨category, "x", 0, .variable .bool⟩) := by
  change ¬ ¬ ';' ∈ (Entity.declaration language "x" (.variable .bool)).toList
  cases language with
  | c => decide
  | vhdl => decide
  | gappa => exact absurd rfl blocks

/-- A name that is bound in a scope is lost where its category is not declared. -/
theorem exists_lost (blocks : language ≠ .gappa)
    (undeclared : policy.declares language category = false) :
    ∃ operations, isPlainRun operations (create language policy) = true ∧
      (run operations (create language policy)).depth = 1 ∧
      ∃ binding ∈ bound operations (create language policy), binding.category = category ∧
        ∀ text, (run operations (create language policy)).finish false = .ok text →
          ¬ Holds text (binding.declaration language) := by
  have opened := run_open_opened blocks policy
  refine ⟨[.alloc (.variable .bool), .openSharing []] ++ [.declare category "x" 0, .close], ?_⟩
  rw [isPlainRun_append, run_append, bound_append]
  refine ⟨?_, opened.depth_run blocks category, ⟨category, "x", 0, .variable .bool⟩, ?_, rfl, ?_⟩
  · exact Bool.and_eq_true_iff.mpr ⟨rfl, opened.isPlainRun category⟩
  · exact mem_append_right _ (opened.mem_bound category)
  · exact fun text finished =>
      (opened.bare blocks undeclared finished).not_holds (not_bare_declaration blocks category)

end Lost

/-- A finished file holds the declarations of all names bound in a category, whatever the run,
exactly under the policies that declare the category. -/
theorem finish_declares_iff (language : Language) (blocks : language ≠ .gappa)
    (policy : SharingPolicy) (category : Category) :
    (∀ operations headers, isPlainRun operations (create language policy) = true →
      (run operations (create language policy)).depth = 1 →
      ∃ text, (run operations (create language policy)).finish headers = .ok text ∧
        ∀ binding ∈ bound operations (create language policy), binding.category = category →
          Holds text (binding.declaration language)) ↔
      policy.declares language category = true := by
  constructor
  · intro holds
    by_contra undeclared
    obtain ⟨operations, plain, closed, binding, member, inCategory, lost⟩ :=
      exists_lost blocks (Bool.eq_false_iff.mpr undeclared)
    obtain ⟨text, finished, held⟩ := holds operations false plain closed
    exact lost text finished (held binding member inCategory)
  · intro declares operations headers plain closed
    have retains := (Retains.create policy blocks).run blocks plain
    obtain ⟨text, finished, holds⟩ := retains.finish closed headers
    refine ⟨text, finished, fun binding member inCategory => ?_⟩
    exact holds binding (mem_append_right _ member) (inCategory ▸ declares)


/-- Variables are declared under the policy that files have by default. -/
theorem finish_declares_variables :
    Language.c ≠ .gappa ∧ ∀ operations headers, isPlainRun operations (create .c {}) = true →
      (run operations (create .c {})).depth = 1 →
      ∃ text, (run operations (create .c {})).finish headers = .ok text ∧
        ∀ binding ∈ bound operations (create .c {}), binding.category = .variable →
          Holds text (binding.declaration .c) :=
  ⟨by decide, (finish_declares_iff .c (by decide) {} .variable).mpr (by decide)⟩

/-- A signal that all scopes of a hardware file share is bound, and the file stays empty. -/
theorem finish_sharedSignal :
    bound [.temporary "s" .bool] (create .vhdl { sharedCategories := [.signal] }) =
      [⟨.signal, "s", 0, .signal .bool⟩] ∧
    (run [.temporary "s" .bool] (create .vhdl { sharedCategories := [.signal] })).finish false =
      .ok "" ∧
    ¬ Holds "" (Binding.declaration .vhdl ⟨.signal, "s", 0, .signal .bool⟩) := by
  refine ⟨by decide, by decide, Bare.empty.not_holds ?_⟩
  unfold Bare
  decide

end Document

end Retarget
