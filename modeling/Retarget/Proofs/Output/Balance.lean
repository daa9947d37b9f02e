import Retarget.Proofs.Output.Driving
import Retarget.Proofs.State.Ending

/-!
# Balanced documents

The open drafts of a document and the blocks that each of them is in. Scopes and blocks that are
closed in the order in which they were opened are closed without a fault, in every language and with
every sharing policy, and declarations in a balanced document under free names do not fail.
-/

namespace Retarget

namespace Draft

/-- The language of a draft and the number of its open blocks. -/
def level (draft : Draft) : Language × Nat :=
  (draft.language, draft.depth)

section

variable (draft : Draft)

theorem level_append (text : String) : (draft.append text).level = draft.level := by
  unfold append
  split <;> rfl

theorem level_addHeader (header : String) :
    (draft.addHeader header).level = draft.level := rfl

theorem level_addLibrary (library : String) :
    (draft.addLibrary library).level = draft.level := rfl

theorem level_addHeaderComment (comment : String) :
    (draft.addHeaderComment comment).level = draft.level := rfl

theorem level_modifyObligations (change : Obligations → Obligations) :
    (draft.modifyObligations change).level = draft.level := by
  unfold modifyObligations
  split <;> rfl

theorem scope_modifyObligations (change : Obligations → Obligations) :
    (draft.modifyObligations change).scope = draft.scope := by
  unfold modifyObligations
  split <;> rfl

end

section

variable {draft : Draft} {language : Language} {depth : Nat}

theorem level_indent (level : draft.level = (language, depth)) :
    draft.indent.level = (language, depth + 1) := by
  obtain ⟨same, inside⟩ := Prod.mk.inj level
  exact Prod.ext same (congrArg (· + 1) inside)

section

variable (level : draft.level = (language, depth + 1))

include level

theorem dedent_of_level : ∃ after, draft.dedent = .ok after ∧ after.level = (language, depth) := by
  obtain ⟨same, inside⟩ := Prod.mk.inj level
  unfold dedent
  rw [inside]
  exact ⟨_, rfl, Prod.ext same rfl⟩

theorem closeBlock_of_level :
    ∃ after, draft.closeBlock = .ok after ∧ after.level = (language, depth) := by
  obtain ⟨stepped, back, below⟩ := dedent_of_level level
  refine ⟨stepped.append stepped.language.blockClose, ?_, (level_append _ _).trans below⟩
  unfold closeBlock
  rw [back]
  rfl

theorem linkBlock_of_level {transition link : String}
    (linked : language.blockLink? transition = some link) :
    ∃ after, draft.linkBlock transition = .ok after ∧ after.level = (language, depth + 1) := by
  obtain ⟨stepped, back, below⟩ := dedent_of_level level
  have same : draft.language = language := congrArg Prod.fst level
  refine ⟨(stepped.append link).indent, ?_, ?_⟩
  · unfold linkBlock
    rw [same, linked, back]
    rfl
  · exact level_indent ((level_append stepped link).trans below)

end

theorem mergeBody_of_level (child : Draft) (declarations : String)
    (level : draft.level = (language, depth + 1)) :
    ∃ after, child.mergeBody declarations draft = .ok () after ∧
      after.level = (language, depth + 1) := by
  have lined : (if declarations.isEmpty then draft else draft.append "\n").level =
      (language, depth + 1) := by
    split
    · exact level
    · rw [level_append]
      exact level
  unfold mergeBody
  cases child.flavor with
  | hardware sharedSignals mainLevel =>
    obtain ⟨stepped, back, below⟩ := dedent_of_level level
    have lifted : (liftExcept draft.dedent : EStateM Fault Draft Draft) draft =
        .ok stepped draft := by
      rw [back]
      rfl
    refine ⟨_, (bind_of_eq_ok (get_eq_ok draft)).trans (bind_of_eq_ok lifted), ?_⟩
    rw [level_append, level_append]
    apply level_indent
    split
    · exact (level_append stepped _).trans below
    · rw [level_append, level_append]
      exact below
  | plain => exact ⟨_, rfl, (level_append _ _).trans lined⟩
  | verification obligations =>
    refine ⟨_, rfl, ?_⟩
    rw [level_append, level_append, level_append, level_append]
    exact lined

/-- A draft without open blocks can be written into one that is in some block. -/
theorem mergeInto_of_level {child : Draft} (flat : child.depth = 0) (names : Names)
    (emission : Emission) (level : draft.level = (language, depth + 1)) :
    ∃ after, child.mergeInto names emission draft = .ok () after ∧
      after.level = (language, depth + 1) := by
  have balanced : child.checkBalanced = .ok () := if_pos flat
  have start : (append (if emission.headers then
      (draft.append child.headerText).append "\n\n" else draft)
      (child.declarations names emission)).level = (language, depth + 1) := by
    rw [level_append]
    split
    · rw [level_append, level_append]
      exact level
    · exact level
  obtain ⟨body, written, kept⟩ := mergeBody_of_level child _ start
  refine ⟨_, ?_, (view_foldl level_addLibrary child.libraries _).trans
    ((view_foldl level_addHeader child.headers _).trans kept)⟩
  unfold mergeInto
  rw [balanced]
  exact bind_of_eq_ok written

end

end Draft

namespace Naming

variable {naming : Naming} {category : Category} {name : String}

/-- A name that is not free is refused. -/
theorem declare_of_not_isFree (taken : naming.scope.isFree naming.tables name = false)
    (id : EntityId) :
    ∃ holder, declare category name id naming = .error (.nameCollision name holder) naming := by
  cases held : naming.scope.holder? naming.tables name with
  | none => cases taken.symm.trans (Scope.holder?_eq_none_iff.mp held)
  | some holder =>
    refine ⟨holder, declare_of_eq_error ?_⟩
    unfold Scope.declare
    rw [held]

/-- A new entity is declared under a given name exactly where the name is free. -/
theorem claim_ends (founded : naming.Founded) (recorded : naming.Recorded) (category : Category)
    (name : String) (entity : Entity) :
    Ends (fun fault => naming.scope.isFree naming.tables name = false ∧
        ∃ holder, fault = .nameCollision name holder)
      (do declare category name (← alloc entity)) naming fun _ after =>
        ∃ new, Gains naming after new := by
  have made := alloc_confined entity naming
  have allocated := alloc_eq_ok entity naming
  cases free : naming.scope.isFree naming.tables name with
  | false =>
    have taken := (made.isFree_eq name).trans free
    obtain ⟨holder, failed⟩ := declare_of_not_isFree taken naming.entities.size
    exact .of_eq_error ((bind_of_eq_ok allocated).trans failed) ⟨rfl, holder, rfl⟩
  | true =>
    have unnamed := recorded.nameOf?_eq_none (naming.scope.own category) (Nat.le_refl _)
    obtain ⟨after, declared⟩ := made.declare_of_isFree free unnamed
    have confines := declare_confines category (made.founded founded) name naming.entities.size
    rw [bind_of_eq_ok declared] at confines
    have kept := ((declare_grows category name naming.entities.size).of_eq_ok declared).entities
      _ _ Array.getElem?_push_size
    have gains := confines.gains kept
    exact .of_eq_ok ((bind_of_eq_ok allocated).trans declared)
      ⟨_, made.trans gains.toConfined, gains.known⟩

end Naming

namespace Document

/-- The open drafts are in the given numbers of blocks, the innermost first, and the names are in
order. At least the given number of entities are known. -/
structure Balanced (language : Language) (known : Nat) (depths : List Nat) (document : Document) :
    Prop where
  written : document.language = language
  levels : document.drafts.map Draft.level = depths.map (Prod.mk language)
  nested : document.WellNested
  recorded : document.names.Recorded
  counted : known ≤ document.names.entities.size

namespace Balanced

variable {change : Draft → Draft} {language : Language} {known depth : Nat} {depths : List Nat}
  {document after : Document} {expected : Fault → Prop}

theorem founded (balanced : document.Balanced language known depths) : document.naming.Founded :=
  fun category => balanced.nested.apart.inside _ (document.current.scope.sees_own category)

section

variable (balanced : document.Balanced language known (depth :: depths))

include balanced

theorem level_current : document.current.level = (language, depth) :=
  (List.cons.inj balanced.levels).1

theorem levels_enclosing : document.enclosing.map Draft.level = depths.map (Prod.mk language) :=
  (List.cons.inj balanced.levels).2

end

section

variable (balanced : document.Balanced language known depths)

include balanced

/-- A change that keeps all scopes and names. -/
theorem keep {others : List Nat} (keeps : Keeps document after)
    (same : after.language = document.language) (names : after.names = document.names)
    (levels : after.drafts.map Draft.level = others.map (Prod.mk language)) :
    after.Balanced language known others where
  written := same.trans balanced.written
  levels := levels
  nested := keeps.nested balanced.nested
  recorded := by
    rw [names]
    exact balanced.recorded
  counted := by
    rw [names]
    exact balanced.counted

section

variable (scope : ∀ draft, (change draft).scope = draft.scope)
  (level : ∀ draft, (change draft).level = draft.level)

include scope level

theorem modifyCurrent : (document.modifyCurrent change).Balanced language known depths := by
  refine balanced.keep (modifyCurrent_keeps scope document) rfl rfl ?_
  rw [← balanced.levels]
  exact congrArg (· :: _) (level document.current)

theorem modifyRoot : (document.modifyRoot change).Balanced language known depths := by
  obtain ⟨written, _, names⟩ := modifyRoot_frame change document
  refine balanced.keep (modifyRoot_keeps scope document) written names ?_
  rw [map_modifyRoot level]
  exact balanced.levels

end

theorem addComment_ends (text : String) :
    Ends expected (addComment text) document fun _ after => after.Balanced language known depths :=
  .of_eq_ok rfl (balanced.modifyCurrent (·.scope_addComment text) fun draft => draft.level_append _)

theorem modifyRoot_ends (scope : ∀ draft, (change draft).scope = draft.scope)
    (level : ∀ draft, (change draft).level = draft.level) :
    Ends expected (modify (·.modifyRoot change) : DocumentM Unit) document fun _ after =>
      after.Balanced language known depths :=
  .of_eq_ok rfl (balanced.modifyRoot scope level)

end

theorem create (language : Language) (policy : SharingPolicy) :
    (Document.create language policy).Balanced language 0 [0] where
  written := rfl
  levels := rfl
  nested := create_wellNested language policy
  recorded := recorded_create language policy
  counted := Nat.zero_le _

/-! ## Blocks and scopes -/

theorem indent_ends (balanced : document.Balanced language known (depth :: depths)) :
    Ends expected indent document fun _ after =>
      after.Balanced language known ((depth + 1) :: depths) := by
  refine .of_eq_ok rfl (balanced.keep (modifyCurrent_keeps Draft.scope_indent document) rfl rfl ?_)
  exact congrArg₂ List.cons (Draft.level_indent balanced.level_current) balanced.levels_enclosing

theorem tryCurrent_ends {change : Draft → Except Fault Draft} {current : Draft} {other : Nat}
    (balanced : document.Balanced language known (depth :: depths))
    (scope : ∀ draft after, change draft = .ok after → after.scope = draft.scope)
    (changed : change document.current = .ok current) (level : current.level = (language, other)) :
    Ends expected (tryCurrent change) document fun _ after =>
      after.Balanced language known (other :: depths) := by
  have done := tryCurrent_of_ok changed
  refine .of_eq_ok done (balanced.keep ((tryCurrent_keeps scope).of_eq_ok done) rfl rfl ?_)
  exact congrArg₂ List.cons level balanced.levels_enclosing

theorem dedent_ends (balanced : document.Balanced language known ((depth + 1) :: depths)) :
    Ends expected dedent document fun _ after =>
      after.Balanced language known (depth :: depths) := by
  obtain ⟨current, stepped, below⟩ := Draft.dedent_of_level balanced.level_current
  exact balanced.tryCurrent_ends (fun _ _ => Draft.scope_dedent) stepped below

theorem push (balanced : document.Balanced language known depths) :
    (document.push []).Balanced language known (0 :: depths) where
  written := balanced.written
  levels := congrArg₂ List.cons (Prod.ext balanced.written rfl) balanced.levels
  nested := (push_keeps document []).nested balanced.nested
  recorded := recorded_push balanced.recorded []
  counted := balanced.counted

theorem openScope_ends (balanced : document.Balanced language known (depth :: depths)) :
    Ends expected openScope document fun _ after =>
      after.Balanced language known (0 :: (depth + 1) :: depths) := by
  have opened : (document.modifyCurrent Draft.openBlock).Balanced language known
      ((depth + 1) :: depths) := by
    refine balanced.keep (modifyCurrent_keeps Draft.scope_openBlock document) rfl rfl ?_
    refine congrArg₂ List.cons (Draft.level_indent ?_) balanced.levels_enclosing
    exact (Draft.level_append _ _).trans balanced.level_current
  exact .of_eq_ok rfl opened.push

section

variable (balanced : document.Balanced language known (0 :: (depth + 1) :: depths))

include balanced

theorem merge_ends :
    Ends expected merge document fun _ after =>
      after.Balanced language known ((depth + 1) :: depths) := by
  obtain ⟨parent, enclosing, around, level, levels⟩ :=
    List.map_eq_cons_iff.mp balanced.levels_enclosing
  have flat : document.current.depth = 0 := congrArg Prod.snd balanced.level_current
  obtain ⟨outer, merged, kept⟩ := Draft.mergeInto_of_level flat document.names
    (closing document.policy) level
  have done := merge_of_mergeInto around merged
  refine .of_eq_ok done (balanced.keep (merge_keeps.of_eq_ok done) rfl rfl ?_)
  exact congrArg₂ List.cons kept levels

theorem closeScope_ends :
    Ends expected closeScope document fun _ after =>
      after.Balanced language known (depth :: depths) := by
  refine balanced.merge_ends.bind fun _ middle merged => ?_
  obtain ⟨current, closed, below⟩ := Draft.closeBlock_of_level merged.level_current
  exact merged.tryCurrent_ends (fun _ _ => Draft.scope_closeBlock) closed below

theorem linkScope_ends (blocks : language ≠ .gappa) (transition : String) :
    Ends expected (linkScope transition) document fun _ after =>
      after.Balanced language known (0 :: (depth + 1) :: depths) := by
  obtain ⟨link, known⟩ := blockLink?_isSome blocks transition
  refine .of_eq (linkScope_of_blockLink? (balanced.written ▸ known)) ?_
  refine balanced.merge_ends.bind fun _ middle merged => ?_
  obtain ⟨current, linked, kept⟩ := Draft.linkBlock_of_level merged.level_current known
  refine (merged.tryCurrent_ends (fun _ _ => Draft.scope_linkBlock) linked kept).bind ?_
  exact fun _ last linked => .of_eq_ok rfl linked.push

end

/-- A document with no open block can be finished. -/
theorem finish_eq_ok (balanced : document.Balanced language known [0]) (headers : Bool) :
    ∃ text, document.finish headers = .ok text := by
  have alone : document.enclosing = [] := List.map_eq_nil_iff.mp balanced.levels_enclosing
  have flat : document.current.depth = 0 := congrArg Prod.snd balanced.level_current
  unfold finish
  rw [alone]
  dsimp only
  unfold Draft.render Draft.checkBalanced
  rw [if_pos flat]
  exact ⟨_, rfl⟩

/-! ## Names -/

section

variable (balanced : document.Balanced language known depths)

include balanced

/-- An action on names that binds at most one of them. -/
theorem withNames_ends {α : Type} {action : NamingM α} {post : α → Naming → Prop}
    (grows : Changes Naming.Grows action)
    (ends : Ends expected action document.naming fun value after =>
      (∃ new, Naming.Gains document.naming after new) ∧ post value after) :
    Ends expected (withNames action) document fun value after =>
      after.Balanced language known depths ∧ post value after.naming := by
  cases outcome : action document.naming with
  | error fault naming =>
    exact .of_eq_error (withNames_of_eq_error outcome) (ends.failing_of_eq_error outcome)
  | ok value naming =>
    have done := withNames_of_eq_ok outcome
    obtain ⟨⟨new, gains⟩, held⟩ := ends.post_of_eq_ok outcome
    refine .of_eq_ok done ⟨⟨balanced.written, balanced.levels, ?_, ?_, ?_⟩, held⟩
    · exact ((withNames_keeps grows).of_eq_ok done).nested balanced.nested
    · exact gains.recorded balanced.recorded
    · exact Nat.le_trans balanced.counted gains.size_entities

theorem alloc_ends (entity : Entity) :
    Ends expected (withNames (Naming.alloc entity)) document fun id after =>
      after.Balanced language known depths ∧ id < after.names.entities.size := by
  have made : Ends expected (Naming.alloc entity) document.naming fun id after =>
      (∃ new, Naming.Gains document.naming after new) ∧ id < after.entities.size := by
    refine .of_eq_ok rfl ⟨⟨none, (Naming.alloc_confined entity _).gains⟩, ?_⟩
    exact Nat.lt_of_lt_of_eq (Nat.lt_succ_self _) (Array.size_push entity).symm
  exact balanced.withNames_ends (Naming.grows_permits.alloc entity) made

theorem freeName_ends (stem : String) :
    Ends expected (withNames (Naming.freeName stem)) document fun name after =>
      after.Balanced language known depths ∧
        after.current.scope.isFree after.names.tables name = true := by
  have confined := Naming.freeName_confined stem document.naming
  have taken : Ends expected (Naming.freeName stem) document.naming fun name after =>
      (∃ new, Naming.Gains document.naming after new) ∧
        after.scope.isFree after.tables name = true := by
    refine .of_eq_ok (Naming.freeName_eq_ok stem document.naming) ⟨⟨none, confined.gains⟩, ?_⟩
    rw [confined.isFree_eq]
    exact document.naming.scope.isFree_freeName _ stem
  exact balanced.withNames_ends (Naming.grows_permits.freeName stem) taken

theorem binds_ends {α : Type} {action : NamingM α} (grows : Changes Naming.Grows action)
    (ends : Ends expected action document.naming fun _ after =>
      ∃ new, Naming.Gains document.naming after new) :
    Ends expected (withNames action) document fun _ after =>
      after.Balanced language known depths :=
  (balanced.withNames_ends grows (ends.mono fun _ _ gained => ⟨gained, trivial⟩)).mono
    fun _ _ held => held.1

/-- A declaration that succeeds, and binds what it declares. -/
theorem declares_ends {category : Category} {id : EntityId} {entity : Entity} {name : String}
    {after : Naming} {action : NamingM String} (grows : Changes Naming.Grows action)
    (confines : Naming.Confines document.naming category id (action document.naming))
    (done : action document.naming = .ok name after) (made : after.entities[id]? = some entity) :
    Ends expected (withNames action) document fun _ after =>
      after.Balanced language known depths := by
  rw [done] at confines
  exact balanced.binds_ends grows (.of_eq_ok done ⟨_, confines.gains made⟩)

theorem declareTemporary_ends (stem : String) (format : Format) :
    Ends expected (declareTemporary stem format) document fun _ after =>
      after.Balanced language known depths := by
  have declareNew (category : Category) (entity : Entity) :
      Ends expected (withNames (Naming.declareNew category stem entity)) document fun _ after =>
        after.Balanced language known depths := by
    have recorded : document.naming.Recorded := balanced.recorded
    obtain ⟨name, after, _, done⟩ := Naming.declareNew_succeeds recorded category stem entity
    exact balanced.declares_ends (Naming.grows_permits.declareNew category stem entity)
      (Naming.declareNew_confines category balanced.founded stem entity) done
      (Naming.entities_of_declareNew done)
  refine .get_bind ?_
  unfold Draft.declareTemporary
  split
  · exact declareNew _ _
  · exact declareNew _ _

theorem declareConstantValue_ends (value : Scalar) (format : Format) (stem : String) :
    Ends expected (withNames (Naming.declareConstantValue value format stem)) document
      fun _ after => after.Balanced language known depths := by
  obtain ⟨name, after, _, done⟩ :=
    Naming.declareConstantValue_succeeds balanced.founded balanced.recorded value format stem
  exact balanced.declares_ends (Naming.grows_permits.declareConstantValue value format stem)
    (Naming.declareConstantValue_confines balanced.founded value format stem) done
    (Naming.entities_of_alloc (fun id => Naming.grows_permits.declareConstant id stem) done)

theorem declareTable_ends {id : EntityId} (inside : id < known) (stem : String) :
    Ends expected (withNames (Naming.declareTable id stem)) document fun _ after =>
      after.Balanced language known depths := by
  obtain ⟨named, after, done⟩ : ∃ named after,
      Naming.declareTable id stem document.naming = .ok named after :=
    Naming.declareTable_succeeds id stem
  have confines := Naming.declareTable_confines balanced.founded id stem
  rw [map_eq_pure_bind, bind_of_eq_ok done] at confines
  have grows := Naming.grows_permits.declareTable id stem
  have made := (grows.of_eq_ok done).entities _ _
    (Array.getElem?_eq_getElem (Nat.lt_of_lt_of_le inside balanced.counted))
  exact balanced.binds_ends grows (.of_eq_ok done ⟨_, confines.gains made⟩)

/-- A new entity is declared under a given name wherever the name is free. -/
theorem claim_ends (category : Category) (name : String) (entity : Entity) :
    Ends (fun fault => document.current.scope.isFree document.names.tables name = false ∧
        ∃ holder, fault = .nameCollision name holder)
      (withNames do Naming.declare category name (← Naming.alloc entity)) document
      fun _ after => after.Balanced language known depths := by
  apply balanced.binds_ends
  · exact .bind (Naming.grows_permits.alloc entity) fun _ => Naming.declare_grows category name _
  · exact Naming.claim_ends balanced.founded balanced.recorded category name entity

end

end Balanced

end Document

end Retarget
