import Retarget.Output.Document
import Retarget.Proofs.Naming.Declaring

/-!
# Nested scopes of a document

Each open scope sees the tables of the scopes around it, and every scope sees the tables that all of
them share (`Document.WellNested`). All actions on documents keep this, keep names apart and keep
what is bound (`Document.Keeps`), whether they succeed or not.
-/

namespace Retarget

open List

namespace Draft

variable {draft after : Draft}

@[simp]
theorem scope_append (draft : Draft) (text : String) : (draft.append text).scope = draft.scope := by
  unfold append
  split <;> rfl

@[simp]
theorem scope_addComment (draft : Draft) (text : String) :
    (draft.addComment text).scope = draft.scope :=
  draft.scope_append _

@[simp]
theorem scope_indent (draft : Draft) : draft.indent.scope = draft.scope := rfl

@[simp]
theorem scope_openBlock (draft : Draft) : draft.openBlock.scope = draft.scope :=
  draft.scope_append _

@[simp]
theorem scope_addHeader (draft : Draft) (header : String) :
    (draft.addHeader header).scope = draft.scope := rfl

@[simp]
theorem scope_addLibrary (draft : Draft) (library : String) :
    (draft.addLibrary library).scope = draft.scope := rfl

@[simp]
theorem scope_addHeaderComment (draft : Draft) (comment : String) :
    (draft.addHeaderComment comment).scope = draft.scope := rfl

/-- A draft that steps back was in a block. -/
theorem exists_of_dedent (stepped : draft.dedent = .ok after) :
    ∃ depth, draft.depth = depth + 1 ∧ { draft with depth, text := dropStep draft.text } = after := by
  unfold dedent at stepped
  split at stepped
  · cases stepped
  · rename_i depth deeper
    cases stepped
    exact ⟨depth, deeper, rfl⟩

theorem exists_of_dedent_bind {change : Draft → Draft}
    (done : (do let outside ← draft.dedent; pure (change outside) : Except Fault Draft) =
      .ok after) : ∃ outside, draft.dedent = .ok outside ∧ change outside = after := by
  obtain ⟨outside, stepped, ended⟩ := except_bind_eq_ok.mp done
  cases ended
  exact ⟨outside, stepped, rfl⟩

theorem exists_of_closeBlock (closed : draft.closeBlock = .ok after) :
    ∃ outside, draft.dedent = .ok outside ∧ outside.append outside.language.blockClose = after :=
  exists_of_dedent_bind closed

theorem exists_of_linkBlock {transition : String} (linked : draft.linkBlock transition = .ok after) :
    ∃ link outside, draft.language.blockLink? transition = some link ∧
      draft.dedent = .ok outside ∧ (outside.append link).indent = after := by
  unfold linkBlock at linked
  split at linked
  · cases linked
  · rename_i link known
    exact ⟨link, (exists_of_dedent_bind linked).imp fun _ both => ⟨known, both⟩⟩

theorem scope_dedent (stepped : draft.dedent = .ok after) : after.scope = draft.scope := by
  obtain ⟨_, _, rfl⟩ := exists_of_dedent stepped
  rfl

theorem scope_closeBlock (closed : draft.closeBlock = .ok after) : after.scope = draft.scope := by
  obtain ⟨outside, stepped, rfl⟩ := exists_of_closeBlock closed
  rw [scope_append, scope_dedent stepped]

theorem scope_linkBlock {transition : String} (linked : draft.linkBlock transition = .ok after) :
    after.scope = draft.scope := by
  obtain ⟨link, outside, _, stepped, rfl⟩ := exists_of_linkBlock linked
  rw [scope_indent, scope_append, scope_dedent stepped]

theorem mergeBody_hardware {shared mainLevel : Bool}
    (flavor : draft.flavor = .hardware shared mainLevel) {declarations : String}
    {parent outer : Draft} (merged : draft.mergeBody declarations parent = .ok () outer) :
    ∃ outside, parent.dedent = .ok outside ∧
      ((if mainLevel then outside.append "\n"
        else (outside.append "\n").append "begin\n").indent.append "\n").append draft.text =
          outer := by
  unfold mergeBody at merged
  rw [flavor] at merged
  obtain ⟨_, _, ⟨⟩, merged⟩ := bind_eq_ok.mp merged
  obtain ⟨outside, _, lifted, ended⟩ := bind_eq_ok.mp merged
  obtain ⟨stepped, rfl⟩ := liftExcept_eq_ok.mp lifted
  cases ended
  exact ⟨outside, stepped, rfl⟩

/-- What a draft requires changes neither text nor names. -/
theorem foldl_addHeader_eq (draft : Draft) (headers : List String) :
    ∃ all, headers.foldl Draft.addHeader draft = { draft with headers := all } := by
  induction headers generalizing draft with
  | nil => exact ⟨draft.headers, rfl⟩
  | cons header rest ih => exact ih (draft.addHeader header)

theorem foldl_addLibrary_eq (draft : Draft) (libraries : List String) :
    ∃ all, libraries.foldl Draft.addLibrary draft = { draft with libraries := all } := by
  induction libraries generalizing draft with
  | nil => exact ⟨draft.libraries, rfl⟩
  | cons library rest ih => exact ih (draft.addLibrary library)

theorem foldl_addHeaderComment_eq (draft : Draft) (comments : List String) :
    ∃ all, comments.foldl Draft.addHeaderComment draft = { draft with headerComments := all } := by
  induction comments generalizing draft with
  | nil => exact ⟨draft.headerComments, rfl⟩
  | cons comment rest ih => exact ih (draft.addHeaderComment comment)

/-- What no single change touches is the same after all of them. -/
theorem view_foldl {α β : Type} {view : Draft → β} {change : Draft → α → Draft}
    (same : ∀ draft value, view (change draft value) = view draft) (values : List α)
    (draft : Draft) : view (values.foldl change draft) = view draft := by
  induction values generalizing draft with
  | nil => rfl
  | cons value rest ih => exact (ih _).trans (same draft value)

/-- A draft that is written into another one has no open blocks. -/
theorem exists_of_mergeInto {names : Names} {emission : Emission} {parent outer : Draft}
    (merged : draft.mergeInto names emission parent = .ok () outer) :
    ∃ body headers libraries, draft.mergeBody (draft.declarations names emission)
        ((if emission.headers then (parent.append draft.headerText).append "\n\n"
          else parent).append (draft.declarations names emission)) = .ok () body ∧
      outer = { body with headers, libraries } := by
  obtain ⟨_, _, balanced, headed⟩ := bind_eq_ok.mp merged
  obtain ⟨_, _, ⟨⟩, declared⟩ := bind_eq_ok.mp headed
  obtain ⟨_, _, ⟨⟩, rest⟩ := bind_eq_ok.mp declared
  obtain ⟨_, body, written, ended⟩ := bind_eq_ok.mp rest
  obtain ⟨_, rfl⟩ := liftExcept_eq_ok.mp balanced
  cases ended
  obtain ⟨headers, required⟩ := foldl_addHeader_eq body draft.headers
  obtain ⟨libraries, used⟩ := foldl_addLibrary_eq (draft.headers.foldl addHeader body)
    draft.libraries
  exact ⟨body, headers, libraries, written, used.trans (by rw [required])⟩

/-- Two drafts of the same scope. -/
def SameScope (before after : Draft) : Prop :=
  after.scope = before.scope

instance : Std.Refl SameScope := ⟨fun _ => rfl⟩

instance : IsTrans Draft SameScope := ⟨fun _ _ _ left right => Eq.trans right left⟩

theorem mergeBody_sameScope (draft : Draft) (declarations : String) :
    Changes SameScope (draft.mergeBody declarations) := by
  unfold mergeBody
  split
  · refine .get_bind fun parent => ?_
    cases stepped : parent.dedent with
    | error fault => exact Std.Refl.refl parent
    | ok outside =>
      change SameScope parent (Draft.append (Draft.append (Draft.indent _) _) _)
      rw [SameScope, scope_append, scope_append, scope_indent]
      split <;> simp [scope_dedent stepped]
  · refine .modify fun parent => ?_
    split <;> simp [SameScope]
  · refine .modify fun parent => ?_
    split <;> simp [SameScope]

/-- A draft that is written into another one leaves it its scope. -/
theorem mergeInto_sameScope (draft : Draft) (names : Names) (emission : Emission) :
    Changes SameScope (draft.mergeInto names emission) := by
  refine .bind (.liftExcept _) fun _ => .bind (.modify fun parent => ?_) fun _ =>
    .bind (.modify fun parent => parent.scope_append _) fun _ =>
    .bind (draft.mergeBody_sameScope _) fun _ =>
    .bind (.modify fun parent => view_foldl scope_addHeader _ parent) fun _ =>
    .modify fun parent => view_foldl scope_addLibrary _ parent
  split <;> simp [SameScope]

end Draft

namespace Document

variable {document : Document}

/-- The scopes that are open, the innermost first. -/
def scopes (document : Document) : List Scope :=
  document.current.scope :: document.enclosing.map Draft.scope

/-- Each scope stands in those that follow it. -/
def Stacked : List Scope → Prop
  | [] => True
  | scope :: rest => scope.enclosing = rest.map Scope.own ∧ Stacked rest

/-- Each scope stands in the next one, all of them see the tables shared by all, and the names that
the innermost one sees are apart. -/
structure WellNested (document : Document) : Prop where
  nested : Stacked document.scopes
  statics : ∀ scope ∈ document.scopes, ∀ category id,
    staticTable? document.policy category = some id → scope.Sees id
  apart : document.current.scope.NamesApart document.names.tables

/-- The current scope sees the tables of all open scopes. -/
theorem WellNested.chain_eq (well : document.WellNested) :
    document.current.scope.chain = document.scopes.map Scope.own := by
  rw [Scope.chain, well.nested.1]
  rfl

/-- What all actions on documents keep. -/
structure Keeps (before after : Document) : Prop where
  bound : before.names.tables.Persist after.names.tables
  nested : before.WellNested → after.WellNested

namespace Keeps

theorem refl (document : Document) : Keeps document document :=
  ⟨fun _ _ _ => id, id⟩

theorem trans {first second third : Document} (left : Keeps first second)
    (right : Keeps second third) : Keeps first third where
  bound := left.bound.trans right.bound
  nested before := right.nested (left.nested before)

instance : Std.Refl Keeps := ⟨refl⟩

instance : IsTrans Document Keeps := ⟨fun _ _ _ => trans⟩

end Keeps

/-- The drafts of all open scopes, the innermost first. -/
def drafts (document : Document) : List Draft :=
  document.current :: document.enclosing

/-- The scopes and the names are the same, whatever the texts are. -/
structure SameScopes (before after : Document) : Prop where
  policy : after.policy = before.policy
  names : after.names = before.names
  scopes : after.scopes = before.scopes

theorem SameScopes.refl (document : Document) : SameScopes document document :=
  ⟨rfl, rfl, rfl⟩

theorem SameScopes.trans {first second third : Document} (left : SameScopes first second)
    (right : SameScopes second third) : SameScopes first third :=
  ⟨right.policy.trans left.policy, right.names.trans left.names, right.scopes.trans left.scopes⟩

instance : IsTrans Document SameScopes := ⟨fun _ _ _ => SameScopes.trans⟩

theorem SameScopes.keeps {before after : Document} (same : SameScopes before after) :
    Keeps before after where
  bound id name entity known := by
    rw [same.names]
    exact known
  nested well := by
    refine ⟨same.scopes ▸ well.nested, ?_, ?_⟩
    · rw [same.scopes, same.policy]
      exact well.statics
    · rw [(List.cons.inj same.scopes).1, same.names]
      exact well.apart

theorem modifyRoot_frame (change : Draft → Draft) (document : Document) :
    (document.modifyRoot change).language = document.language ∧
      (document.modifyRoot change).policy = document.policy ∧
      (document.modifyRoot change).names = document.names := by
  unfold modifyRoot
  split <;> exact ⟨rfl, rfl, rfl⟩

/-- A view of drafts that a change keeps. -/
theorem map_modifyRoot {α : Type} {view : Draft → α} {change : Draft → Draft}
    (same : ∀ draft, view (change draft) = view draft) (document : Document) :
    (document.modifyRoot change).drafts.map view = document.drafts.map view := by
  unfold modifyRoot
  cases last : document.enclosing.getLast? with
  | none => exact congrArg (· :: _) (same document.current)
  | some outermost =>
    refine congrArg (view document.current :: ·) ?_
    change (document.enclosing.dropLast ++ [change outermost]).map view = _
    rw [map_append, map_singleton, same, ← map_singleton, ← map_append,
      dropLast_append_getLast? outermost last]

section

variable {change : Draft → Draft} (same : ∀ draft, (change draft).scope = draft.scope)
  (document : Document)

include same

theorem modifyCurrent_sameScopes : SameScopes document (document.modifyCurrent change) :=
  ⟨rfl, rfl, congrArg (· :: _) (same document.current)⟩

theorem modifyCurrent_keeps : Keeps document (document.modifyCurrent change) :=
  (modifyCurrent_sameScopes same document).keeps

theorem modifyRoot_sameScopes : SameScopes document (document.modifyRoot change) :=
  have frame := modifyRoot_frame change document
  ⟨frame.2.1, frame.2.2, map_modifyRoot same document⟩

theorem modifyRoot_keeps : Keeps document (document.modifyRoot change) :=
  (modifyRoot_sameScopes same document).keeps

end

theorem tryCurrent_sameScopes {change : Draft → Except Fault Draft}
    (same : ∀ draft after, change draft = .ok after → after.scope = draft.scope) :
    Changes SameScopes (tryCurrent change) := by
  refine .get_bind fun document => ?_
  cases changed : change document.current with
  | error fault => exact .refl document
  | ok after => exact ⟨rfl, rfl, congrArg (· :: _) (same _ after changed)⟩

theorem tryCurrent_of_ok {change : Draft → Except Fault Draft} {current : Draft}
    (changed : change document.current = .ok current) :
    tryCurrent change document = .ok () { document with current } := by
  rw [tryCurrent, bind_of_eq_ok (get_eq_ok document), changed]
  rfl

theorem tryCurrent_keeps {change : Draft → Except Fault Draft}
    (same : ∀ draft after, change draft = .ok after → after.scope = draft.scope) :
    Changes Keeps (tryCurrent change) :=
  fun document => (tryCurrent_sameScopes same document).keeps

theorem finalState_withNames {α : Type} (action : NamingM α) (document : Document) :
    finalState (withNames action document) =
      let naming :=
        finalState (action { toNames := document.names, scope := document.current.scope })
      { document with
        names := naming.toNames, current := { document.current with scope := naming.scope } } := by
  unfold withNames Draft.withNames
  cases action { toNames := document.names, scope := document.current.scope } <;> rfl

theorem withNames_eq_ok {α : Type} {action : NamingM α} {value : α} {after : Document}
    (done : withNames action document = .ok value after) :
    ∃ naming, action { toNames := document.names, scope := document.current.scope } =
        .ok value naming ∧
      after = { document with
        names := naming.toNames, current := { document.current with scope := naming.scope } } := by
  unfold withNames Draft.withNames at done
  cases outcome : action { toNames := document.names, scope := document.current.scope } with
  | error fault naming =>
    rw [outcome] at done
    cases done
  | ok result naming =>
    rw [outcome] at done
    cases done
    exact ⟨naming, rfl, rfl⟩

theorem withNames_keeps {α : Type} {action : NamingM α} (grows : Changes Naming.Grows action) :
    Changes Keeps (withNames action) := by
  intro document
  rw [finalState_withNames]
  have grown := grows { toNames := document.names, scope := document.current.scope }
  refine ⟨grown.bound, fun well => ⟨?_, ?_, grown.apart well.apart⟩⟩
  · exact ⟨(List.cons.inj grown.chain).2.trans well.nested.1, well.nested.2⟩
  · intro scope member category id static
    rcases mem_cons.mp member with rfl | outer
    · have seen := well.statics _ mem_cons_self category id static
      rw [Scope.Sees] at seen ⊢
      rw [grown.chain]
      exact seen
    · exact well.statics scope (mem_cons_of_mem _ outer) category id static

theorem merge_of_outermost (alone : document.enclosing = []) :
    merge document = .error (.nesting .nothingToClose) document := by
  unfold merge
  rw [alone]

section

variable {parent : Draft} {enclosing : List Draft}
  (around : document.enclosing = parent :: enclosing)

include around

theorem finalState_merge :
    finalState (merge document) =
      { document with
        current := finalState
          (document.current.mergeInto document.names (closing document.policy) parent)
        enclosing } := by
  unfold merge
  rw [around]
  dsimp only
  cases document.current.mergeInto document.names (closing document.policy) parent <;> rfl

theorem merge_of_mergeInto {outer : Draft}
    (merged : document.current.mergeInto document.names (closing document.policy) parent =
      .ok () outer) : merge document = .ok () { document with current := outer, enclosing } := by
  unfold merge
  rw [around]
  dsimp only
  rw [merged]

end

theorem merge_keeps : Changes Keeps merge := by
  intro document
  cases around : document.enclosing with
  | nil =>
    rw [merge_of_outermost around]
    exact .refl document
  | cons parent enclosing =>
    rw [finalState_merge around]
    refine ⟨fun _ _ _ => id, fun well => ?_⟩
    have same := document.current.mergeInto_sameScope document.names
      (closing document.policy) parent
    generalize finalState (document.current.mergeInto document.names (closing document.policy)
      parent) = outer at same ⊢
    have scopes : document.scopes = document.current.scope :: outer.scope ::
        enclosing.map Draft.scope := by
      rw [Document.scopes, around, same]
      rfl
    have stacked := well.nested
    rw [scopes] at stacked
    have nested : document.current.scope.enclosing = outer.scope.chain := by
      rw [stacked.1, Scope.chain, stacked.2.1]
      rfl
    refine ⟨stacked.2, fun scope member => ?_, well.apart.of_enclosing nested⟩
    apply well.statics
    rw [scopes]
    exact mem_cons_of_mem _ member

theorem flavor_push {document : Document} (language : document.language = .c)
    {extra : List Category} : (document.push extra).current.flavor = .plain := by
  simp only [push, Draft.create, language]

section

variable (document : Document) (extra : List Category)

theorem tables_push :
    (document.push extra).names.tables =
      (Scope.create document.names.tables (document.sharedTables extra)
        document.current.scope.chain document.policy.uniquifier).1 := rfl

theorem entries_push (id : TableId) :
    ((document.push extra).names.tables.table id).entries =
      (document.names.tables.table id).entries := by
  rw [tables_push, Scope.entries_create]

theorem push_keeps :
    Keeps document (document.push extra) where
  bound id name entity known := by
    rw [NameTable.lookup?, entries_push]
    exact known
  nested well := by
    have given : ∀ category id, document.sharedTables extra category = some id →
        document.current.scope.Sees id := by
      intro category id shared
      unfold sharedTables at shared
      split at shared
      · cases shared
        exact document.current.scope.sees_own category
      · exact well.statics _ mem_cons_self category id shared
    refine ⟨⟨well.chain_eq, well.nested⟩, ?_, well.apart.create given⟩
    intro scope member category id static
    rcases mem_cons.mp member with rfl | outer
    · exact Scope.sees_of_enclosing rfl
        (well.statics _ mem_cons_self category id static)
    · exact well.statics scope outer category id static

end

theorem openSharing_keeps (extra : List Category) : Changes Keeps (openSharing extra) :=
  .modify fun document =>
    .trans (modifyCurrent_keeps Draft.scope_openBlock document) (push_keeps _ extra)

theorem closeScope_keeps : Changes Keeps closeScope :=
  .bind merge_keeps fun _ => tryCurrent_keeps fun _ _ => Draft.scope_closeBlock

theorem linkScope_of_noBlocks {transition : String}
    (unlinked : document.language.blockLink? transition = none) :
    linkScope transition document = .error (.nesting (.noBlocks document.language)) document := by
  rw [linkScope, bind_of_eq_ok (get_eq_ok document)]
  dsimp only
  rw [unlinked]
  rfl

theorem linkScope_of_blockLink? {transition link : String}
    (linked : document.language.blockLink? transition = some link) :
    linkScope transition document =
      (do merge; tryCurrent (·.linkBlock transition); modify (·.push []) :
        DocumentM Unit) document := by
  rw [linkScope, bind_of_eq_ok (get_eq_ok document)]
  dsimp only
  rw [linked]
  rfl

theorem blockLink?_isSome {language : Language} (blocks : language ≠ .gappa)
    (transition : String) : ∃ link, language.blockLink? transition = some link := by
  cases language with
  | gappa => exact absurd rfl blocks
  | c | vhdl => exact ⟨_, rfl⟩

theorem linkScope_eq (blocks : document.language ≠ .gappa) (transition : String) :
    linkScope transition document =
      (do merge; tryCurrent (·.linkBlock transition); modify (·.push []) :
        DocumentM Unit) document := by
  obtain ⟨link, linked⟩ := blockLink?_isSome blocks transition
  exact linkScope_of_blockLink? linked

theorem linkScope_keeps (transition : String) : Changes Keeps (linkScope transition) := by
  intro document
  cases linked : document.language.blockLink? transition with
  | none =>
    rw [linkScope_of_noBlocks linked]
    exact .refl document
  | some link =>
    rw [linkScope_of_blockLink? linked]
    exact Changes.bind merge_keeps (fun _ => .bind
      (tryCurrent_keeps fun _ _ => Draft.scope_linkBlock) fun _ =>
        .modify fun document => push_keeps document []) document

theorem declareTemporary_keeps (stem : String) (format : Format) :
    Changes Keeps (declareTemporary stem format) := by
  refine .get_bind fun document => withNames_keeps ?_ document
  unfold Draft.declareTemporary
  split <;> exact Naming.grows_permits.declareNew _ _ _

section

variable (language : Language) (policy : SharingPolicy)

theorem entries_create (id : TableId) :
    ((create language policy).names.tables.table id).entries = [] := by
  change (NameTables.table
    (Scope.create _ (staticTable? policy) [] policy.uniquifier).1 id).entries = []
  rw [Scope.entries_create]
  exact Scope.entries_fresh policy.uniquifier id

theorem create_apart :
    (create language policy).current.scope.NamesApart (create language policy).names.tables := by
  refine .of_entries_eq_nil ?_ (entries_create language policy)
  rintro _ ⟨set, member, category, rfl⟩
  rw [mem_singleton.mp member]
  change (staticTable? policy category).getD (7 + category.index) < 14
  have bound := category.index_lt
  unfold staticTable?
  split
  · exact Nat.lt_trans bound (by decide)
  · exact Nat.add_lt_add_left bound 7

theorem create_wellNested :
    (create language policy).WellNested where
  nested := ⟨rfl, trivial⟩
  statics scope member category id static := by
    rw [mem_singleton.mp member]
    refine ⟨_, mem_cons_self, category, ?_⟩
    change (staticTable? policy category).getD _ = id
    rw [show staticTable? policy category = some id from static, Option.getD_some]
  apart := create_apart language policy

end

end Document

end Retarget
