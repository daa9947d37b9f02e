import Retarget.Proofs.Naming.Mirroring
import Retarget.Proofs.Output.Sketching

/-!
# Documents that mirror each other

Two C documents write the same from a point on. What their outermost drafts held before may differ
and is not looked at again: a step of indentation that is taken back was written since then. All
inner drafts are the same but for the places of their tables, so they are written into the drafts
around them in the same way.
-/

namespace Retarget

open List

namespace NameTable.Mirrors

variable {pairing : Pairing} {table other : NameTable} {entities others : Entities}

section

variable (mirrors : table.Mirrors pairing other) (same : entities.Mirrors pairing others)

include mirrors same

theorem map_eq (text : String → Entity → String) :
    (table.entries.map fun entry => text entry.1 (entities.entity entry.2)) =
      other.entries.map fun entry => text entry.1 (others.entity entry.2) := by
  refine (map_eq_map_of_forall₂ mirrors.entries fun entry entry' here => ?_).symm
  rw [here.1, same.same here.2]

/-- Entities that stand for each other are declared in the same way. -/
theorem declarations_eq (language : Language) :
    table.declarations language entities = other.declarations language others :=
  congrArg String.join (mirrors.map_eq same fun name entity => entity.declaration language name)

theorem initializations_eq (language : Language) :
    table.initializations language entities = other.initializations language others :=
  congrArg String.join (mirrors.map_eq same fun name entity => entity.initialization language name)

end

end NameTable.Mirrors

/-- The same tables are added to both. -/
theorem NameTables.Mirrors.append {pairing : NamePairing} {tables other : NameTables}
    (mirrors : tables.Mirrors pairing other) {fresh : NameTables}
    (empty : ∀ id, (fresh.table id).entries = []) :
    NameTables.Mirrors pairing (tables ++ fresh) (other ++ fresh) := by
  refine ⟨?_, fun {id partner} given => ?_, fun {id partner} beyond => ?_⟩
  · rw [Array.size_append, Array.size_append]
    exact mirrors.size.add _
  · have inside := pairing.tables.below given
    have after := mirrors.size.le
    rw [table_append_of_lt _ _ (Nat.lt_of_lt_of_le inside.1 after.1),
      table_append_of_lt _ _ (Nat.lt_of_lt_of_le inside.2 after.2)]
    exact mirrors.given given
  · have same : id < tables.size ↔ partner < other.size := beyond.lt_iff mirrors.size
    by_cases old : id < tables.size
    · rw [table_append_of_lt _ _ old, table_append_of_lt _ _ (same.mp old)]
      exact mirrors.beyond beyond
    · have place : id - tables.size = partner - other.size := by
        obtain ⟨count, rfl, rfl⟩ := beyond
        obtain ⟨distance, size, size'⟩ := mirrors.size
        rw [size, size', Nat.add_sub_add_left, Nat.add_sub_add_left]
      unfold NameTables.table
      rw [Array.getElem?_append_right (Nat.le_of_not_lt old),
        Array.getElem?_append_right (Nat.le_of_not_lt (mt same.mpr old)), place]
      refine ⟨?_, rfl, rfl⟩
      change List.Forall₂ _ (fresh.table (partner - other.size)).entries
        (fresh.table (partner - other.size)).entries
      rw [empty]
      exact .nil

/-- A policy that shares functions, and tables at most. -/
structure SharingPolicy.Standard (policy : SharingPolicy) : Prop where
  categories : policy.sharedCategories = [.constant, .table, .function]
  constants : policy.staticConstants = false

/-- What two documents set out from. -/
structure Footing where
  names : NamePairing
  policy : SharingPolicy
  /-- The outermost scope of both. -/
  scope : Scope
  /-- What the outermost drafts held. -/
  left : String
  right : String
  standard : policy.Standard
  outermost : scope.Mirrors names.tables (fun _ => true) scope
  statics : ∀ {category : Category}, policy.shares category = true →
    names.tables.given category.index category.index

namespace SharingPolicy.Standard

variable {policy : SharingPolicy} (standard : policy.Standard) {category : Category}

include standard

theorem shares_function : policy.shares .function = true := by
  simp [SharingPolicy.shares, standard.categories]

theorem shares_constant : policy.shares .constant = false := by
  simp [SharingPolicy.shares, standard.constants]

theorem shares_eq_false (others : category ∉ [.constant, .table, .function]) :
    policy.shares category = false := by
  simp only [SharingPolicy.shares, standard.categories, others, decide_false, Bool.false_and]

/-- What a scope shares is not declared when it closes. -/
theorem mem_exclusions (draft : Draft) (shared : policy.shares category = true) :
    category ∈ draft.exclusions (Document.closing policy) := by
  have constants := standard.constants
  by_cases member : category ∈ [Category.constant, .table, .function]
  · simp only [mem_cons, not_mem_nil, or_false] at member
    rcases member with rfl | rfl | rfl
    · rw [standard.shares_constant] at shared
      cases shared
    · have tables : policy.staticTables = true := by
        simpa [SharingPolicy.shares, standard.categories] using shared
      simp [Draft.exclusions, Document.closing, tables]
    · simp [Draft.exclusions, Document.closing]
  · rw [standard.shares_eq_false member] at shared
    cases shared

end SharingPolicy.Standard

namespace Draft

/-- Two plain C drafts at one depth, with scopes that are related, which wrote the same after given
texts. -/
structure Mirrors (scopes : Scope → Scope → Prop) (start start' : String) (level : Nat)
    (draft other : Draft) : Prop where
  language : draft.language = .c
  language' : other.language = .c
  plain : draft.flavor = .plain
  plain' : other.flavor = .plain
  depth : draft.depth = level
  depth' : other.depth = level
  text : ∃ written : String, draft.text = start ++ written ∧ other.text = start' ++ written ∧
    4 * level ≤ written.toList.length
  scope : scopes draft.scope other.scope

variable {scopes : Scope → Scope → Prop} {start start' : String} {level : Nat}
  {draft other after after' : Draft}

theorem append_eq (draft : Draft) (text : String) :
    draft.append text =
      { draft with
        text := draft.text ++
          if draft.depth = 0 then text
          else Language.continueLines (indentation draft.depth) text } := by
  unfold Draft.append
  split <;> rfl

section

variable (mirrors : draft.Mirrors scopes start start' level other)

include mirrors

theorem Mirrors.write (added : String) :
    Mirrors scopes start start' level { draft with text := draft.text ++ added }
      { other with text := other.text ++ added } := by
  obtain ⟨written, same, same', long⟩ := mirrors.text
  refine { mirrors with text := ⟨written ++ added, ?_, ?_, ?_⟩ }
  · rw [same, String.append_assoc]
  · rw [same', String.append_assoc]
  · rw [String.toList_append, length_append]
    exact Nat.le_add_right_of_le long

theorem Mirrors.append (text : String) :
    (draft.append text).Mirrors scopes start start' level (other.append text) := by
  have added : (if draft.depth = 0 then text
      else Language.continueLines (indentation draft.depth) text) =
      if other.depth = 0 then text else Language.continueLines (indentation other.depth) text := by
    rw [mirrors.depth, mirrors.depth']
  rw [append_eq, append_eq, ← added]
  exact mirrors.write _

theorem Mirrors.indent : draft.indent.Mirrors scopes start start' (level + 1) other.indent := by
  obtain ⟨written, same, same', long⟩ := mirrors.text
  have four : Draft.step.toList.length = 4 := rfl
  refine { mirrors with
    depth := congrArg Nat.succ mirrors.depth
    depth' := congrArg Nat.succ mirrors.depth'
    text := ⟨written ++ step, ?_, ?_, ?_⟩ }
  · rw [Draft.indent, same, String.append_assoc]
  · rw [Draft.indent, same', String.append_assoc]
  · rw [String.toList_append, length_append, four]
    omega

end

theorem length_dropStep (text : String) :
    text.toList.length ≤ (dropStep text).toList.length + 4 := by
  unfold dropStep
  split
  · rw [String.toList_ofList, length_take]
    omega
  · omega

section

variable (mirrors : draft.Mirrors scopes start start' (level + 1) other)

include mirrors

/-- The step that is taken back was written since the drafts set out. -/
theorem Mirrors.dedent (stepped : draft.dedent = .ok after) (stepped' : other.dedent = .ok after') :
    after.Mirrors scopes start start' level after' := by
  obtain ⟨written, same, same', long⟩ := mirrors.text
  have enough : 4 ≤ written.toList.length := by omega
  have dropped := length_dropStep written
  unfold Draft.dedent at stepped stepped'
  rw [mirrors.depth] at stepped
  rw [mirrors.depth'] at stepped'
  cases stepped
  cases stepped'
  refine { mirrors with depth := rfl, depth' := rfl, text := ⟨dropStep written, ?_, ?_, ?_⟩ }
  · rw [same, dropStep_append_of_le start enough]
  · rw [same', dropStep_append_of_le start' enough]
  · omega

theorem Mirrors.closeBlock (closed : draft.closeBlock = .ok after)
    (closed' : other.closeBlock = .ok after') : after.Mirrors scopes start start' level after' := by
  obtain ⟨outside, stepped, rfl⟩ := exists_of_closeBlock closed
  obtain ⟨outside', stepped', rfl⟩ := exists_of_closeBlock closed'
  have same := mirrors.dedent stepped stepped'
  rw [same.language, same.language']
  exact same.append _

theorem Mirrors.linkBlock {transition : String} (linked : draft.linkBlock transition = .ok after)
    (linked' : other.linkBlock transition = .ok after') :
    after.Mirrors scopes start start' (level + 1) after' := by
  unfold Draft.linkBlock at linked linked'
  rw [mirrors.language] at linked
  rw [mirrors.language'] at linked'
  obtain ⟨outside, stepped, rfl⟩ := exists_of_dedent_bind linked
  obtain ⟨outside', stepped', rfl⟩ := exists_of_dedent_bind linked'
  exact ((mirrors.dedent stepped stepped').append _).indent

end

/-- A plain draft that is written into another one adds its declarations and its text. -/
theorem mergeInto_eq {names : Names} {emission : Emission} {child parent after : Draft}
    (plain : child.flavor = .plain) (headless : emission.headers = false)
    (merged : child.mergeInto names emission parent = .ok () after) :
    ∃ headers libraries, after =
      { (if (child.declarations names emission).isEmpty
          then parent.append (child.declarations names emission)
          else (parent.append (child.declarations names emission)).append "\n").append
            child.text with headers, libraries } := by
  obtain ⟨body, headers, libraries, written, rfl⟩ := exists_of_mergeInto merged
  rw [headless, mergeBody, plain] at written
  cases written
  exact ⟨headers, libraries, rfl⟩

section

variable (mirrors : draft.Mirrors scopes start start' level other)

include mirrors

/-- Drafts that mirror each other are written into drafts that mirror each other. -/
theorem Mirrors.mergeInto {names names' : Names} {emission : Emission} {child child' : Draft}
    {inner : Scope → Scope → Prop} (children : child.Mirrors inner "" "" 0 child')
    (headless : emission.headers = false)
    (declared : child.declarations names emission = child'.declarations names' emission)
    (merged : child.mergeInto names emission draft = .ok () after)
    (merged' : child'.mergeInto names' emission other = .ok () after') :
    after.Mirrors scopes start start' level after' := by
  have text : child.text = child'.text := by
    obtain ⟨written, same, same', _⟩ := children.text
    rw [same, same']
  obtain ⟨_, _, rfl⟩ := mergeInto_eq children.plain headless merged
  obtain ⟨_, _, rfl⟩ := mergeInto_eq children.plain' headless merged'
  rw [← declared, ← text]
  split
  · exact { (mirrors.append _).append child.text with }
  · exact { ((mirrors.append _).append "\n").append child.text with }

end

end Draft

/-! ## Scopes -/

/-- A new scope inside scopes that mirror each other. -/
theorem Scope.Mirrors.create {footing : Footing} {parent parent' : Scope} {shared : Category → Bool}
    (mirrors : parent.Mirrors footing.names.tables shared parent') {tables other : NameTables}
    (size : footing.names.tables.Beyond tables.size other.size) (uniquifier : String) :
    (Scope.create tables (Document.staticTable? footing.policy) parent.chain uniquifier).2.Mirrors
      footing.names.tables footing.policy.shares
      (Scope.create other (Document.staticTable? footing.policy) parent'.chain uniquifier).2 := by
  have fresh (category : Category) (own : footing.policy.shares category = false) :
      footing.names.tables.Beyond
        ((Document.staticTable? footing.policy category).getD (tables.size + category.index))
        ((Document.staticTable? footing.policy category).getD (other.size + category.index)) := by
    rw [Document.staticTable?, own]
    exact size.add category.index
  refine ⟨fun category => ?_, fresh, mirrors.chain, rfl, rfl⟩
  cases sharing : footing.policy.shares category with
  | false => exact .inr (fresh category sharing)
  | true =>
    change footing.names.tables.Pairs
      ((Document.staticTable? footing.policy category).getD _)
      ((Document.staticTable? footing.policy category).getD _)
    rw [Document.staticTable?, sharing]
    exact .inl (footing.statics sharing)

/-- Scopes that mirror each other declare the same. -/
theorem Draft.Mirrors.declarations_eq {footing : Footing} {start start' : String}
    {draft other : Draft} {names names' : Names}
    {level : Nat} (mirrors : draft.Mirrors
      (Scope.Mirrors footing.names.tables footing.policy.shares) start start' level other)
    (entities : names.entities.Mirrors footing.names.entities names'.entities)
    (tables : names.tables.Mirrors footing.names names'.tables) :
    draft.declarations names (Document.closing footing.policy) =
      other.declarations names' (Document.closing footing.policy) := by
  have excluded : draft.exclusions (Document.closing footing.policy) =
      other.exclusions (Document.closing footing.policy) := by
    unfold Draft.exclusions
    rw [mirrors.plain, mirrors.plain']
  have mirrored (category : Category) (own : footing.policy.shares category = false) :=
    tables.beyond (mirrors.scope.fresh category own)
  have constants := mirrored .constant footing.standard.shares_constant
  have locals := mirrored .variable (footing.standard.shares_eq_false (by decide))
  unfold Draft.declarations Scope.declarations Scope.initializations
  rw [← excluded, mirrors.language, mirrors.language']
  congr 2
  · refine map_congr_left fun category member => ?_
    have kept : category ∉ draft.exclusions (Document.closing footing.policy) :=
      of_decide_eq_true (mem_filter.mp member).2
    have own : footing.policy.shares category = false :=
      Bool.eq_false_iff.mpr (mt (footing.standard.mem_exclusions draft) kept)
    exact (mirrored category own).declarations_eq entities _
  · simp only [map_cons, constants.initializations_eq entities,
      locals.initializations_eq entities, map_nil]

namespace Document

variable {drafts others : List Draft} {level' : Nat} {change : Draft → Draft}

/-- The scopes of two drafts that both documents set out with. -/
def AtOutset (footing : Footing) (scope other : Scope) : Prop :=
  scope = footing.scope ∧ other = footing.scope

/-- Drafts of open scopes that mirror each other, the outermost one after what it held before. The
innermost draft is at some depth, and each of the others in the block of the next scope. -/
inductive Nests (footing : Footing) : Nat → Nat → List Draft → List Draft → Prop where
  | root {level : Nat} {draft other : Draft}
      (outermost : draft.Mirrors (AtOutset footing) footing.left footing.right level other) :
      Nests footing 0 level [draft] [other]
  | inner {depth level : Nat} {draft other : Draft} {drafts others : List Draft}
      (innermost : draft.Mirrors (Scope.Mirrors footing.names.tables footing.policy.shares) "" ""
        level other)
      (around : Nests footing depth 1 drafts others) :
      Nests footing (depth + 1) level (draft :: drafts) (other :: others)

/-- Two C documents that wrote the same since they set out, with a number of scopes open in the
outermost one. -/
structure Mirrors (footing : Footing) (depth level : Nat) (document other : Document) : Prop where
  language : document.language = .c
  language' : other.language = .c
  policy : document.policy = footing.policy
  policy' : other.policy = footing.policy
  entities : document.names.entities.Mirrors footing.names.entities other.names.entities
  tables : document.names.tables.Mirrors footing.names other.names.tables
  drafts : Nests footing depth level document.drafts other.drafts

variable {footing : Footing} {depth level : Nat} {document other : Document}

section

variable {draft other : Draft}
  (nests : Nests footing depth level (draft :: drafts) (other :: others))

include nests

theorem Nests.scope : ∃ shared, draft.scope.Mirrors footing.names.tables shared other.scope := by
  cases nests with
  | root outermost =>
    rw [outermost.scope.1, outermost.scope.2]
    exact ⟨_, footing.outermost⟩
  | inner innermost _ => exact ⟨_, innermost.scope⟩

theorem Nests.changed {draft' other' : Draft}
    (kept : ∀ {scopes start start'}, draft.Mirrors scopes start start' level other →
      draft'.Mirrors scopes start start' level' other') :
    Nests footing depth level' (draft' :: drafts) (other' :: others) := by
  cases nests with
  | root outermost => exact .root (kept outermost)
  | inner innermost around => exact .inner (kept innermost) around

end

theorem Nests.changedLast (nests : Nests footing depth level drafts others)
    (kept : ∀ {scopes start start' level draft other},
      Draft.Mirrors scopes start start' level draft other →
      (change draft).Mirrors scopes start start' level (change other)) {last last' : Draft}
    (ends : drafts.getLast? = some last) (ends' : others.getLast? = some last') :
    Nests footing depth level (drafts.dropLast ++ [change last])
      (others.dropLast ++ [change last']) := by
  induction nests with
  | root outermost =>
    cases ends
    cases ends'
    exact .root (kept outermost)
  | @inner depth level draft other drafts others innermost around ih =>
    have more : drafts ≠ [] ∧ others ≠ [] := by
      cases around <;> exact ⟨cons_ne_nil _ _, cons_ne_nil _ _⟩
    rw [getLast?_cons_of_ne_nil more.1] at ends
    rw [getLast?_cons_of_ne_nil more.2] at ends'
    rw [dropLast_cons_of_ne_nil more.1, dropLast_cons_of_ne_nil more.2]
    exact .inner innermost (ih ends ends')

theorem drafts_modifyRoot (document : Document) (change : Draft → Draft) :
    (document.modifyRoot change).drafts = document.drafts.dropLast ++ [change document.root] := by
  unfold modifyRoot root drafts
  cases around : document.enclosing with
  | nil => simp [modifyCurrent, around]
  | cons parent enclosing =>
    obtain ⟨front, last, split⟩ :=
      (eq_nil_or_concat' (parent :: enclosing)).resolve_left (cons_ne_nil _ _)
    have inner : (document.current :: (front ++ [last])).dropLast = document.current :: front := by
      rw [← cons_append, dropLast_concat]
    simp [split, inner]

theorem root_eq_getLast (document : Document) :
    document.drafts.getLast? = some document.root := by
  rw [drafts, root, getLast?_cons]

theorem Mirrors.modifyRoot (mirrors : document.Mirrors footing depth level other)
    (kept : ∀ {scopes start start' level draft other},
      Draft.Mirrors scopes start start' level draft other →
      (change draft).Mirrors scopes start start' level (change other)) :
    (document.modifyRoot change).Mirrors footing depth level (other.modifyRoot change) := by
  have nests := mirrors.drafts.changedLast kept document.root_eq_getLast other.root_eq_getLast
  rw [← drafts_modifyRoot, ← drafts_modifyRoot] at nests
  obtain ⟨language, policy, names⟩ := modifyRoot_frame change document
  obtain ⟨language', policy', names'⟩ := modifyRoot_frame change other
  refine ⟨language.trans mirrors.language, language'.trans mirrors.language',
    policy.trans mirrors.policy, policy'.trans mirrors.policy', ?_, ?_, nests⟩
  · rw [names, names']
    exact mirrors.entities
  · rw [names, names']
    exact mirrors.tables

theorem Mirrors.modifyCurrent (mirrors : document.Mirrors footing depth level other)
    (kept : ∀ {scopes start start'},
      document.current.Mirrors scopes start start' level other.current →
      (change document.current).Mirrors scopes start start' level' (change other.current)) :
    (document.modifyCurrent change).Mirrors footing depth level' (other.modifyCurrent change) :=
  { mirrors with drafts := mirrors.drafts.changed kept }

/-- The draft of a new scope in a C document. -/
theorem push_eq (language : document.language = .c) :
    document.push [] =
      { document with
        names := { document.names with
          tables := (Scope.create document.names.tables (staticTable? document.policy)
            document.current.scope.chain document.policy.uniquifier).1 }
        current := {
          language := .c
          flavor := .plain
          scope := (Scope.create document.names.tables (staticTable? document.policy)
            document.current.scope.chain document.policy.uniquifier).2 }
        enclosing := document.drafts } := by
  have shared : document.sharedTables [] = staticTable? document.policy := by
    funext category
    simp [sharedTables]
  unfold push Draft.create
  rw [language, shared]
  rfl

/-- A scope is opened in the blocks that both are in. -/
theorem Mirrors.push (mirrors : document.Mirrors footing depth 1 other) :
    (document.push []).Mirrors footing (depth + 1) 0 (other.push []) := by
  obtain ⟨_, scope⟩ := mirrors.drafts.scope
  have tables := mirrors.tables.append (Scope.entries_fresh footing.policy.uniquifier)
  rw [push_eq mirrors.language, push_eq mirrors.language', mirrors.policy, mirrors.policy']
  refine ⟨mirrors.language, mirrors.language', rfl, rfl, mirrors.entities, tables,
    .inner ⟨rfl, rfl, rfl, rfl, rfl, rfl, ⟨"", rfl, rfl, Nat.zero_le _⟩, ?_⟩ mirrors.drafts⟩
  exact scope.create mirrors.tables.size _

theorem Mirrors.openScope (mirrors : document.Mirrors footing depth 0 other) :
    Together openScope document openScope other fun _ _ next beside =>
      next.Mirrors footing (depth + 1) 0 beside :=
  .modified (mirrors.modifyCurrent fun current => by
    unfold Draft.openBlock
    rw [current.language, current.language']
    exact (current.append _).indent).push

/-- The innermost scope is written into the one around it in both. -/
theorem Mirrors.merge (mirrors : document.Mirrors footing (depth + 1) 0 other) :
    Together merge document merge other fun _ _ next beside =>
      next.Mirrors footing depth 1 beside := by
  intro _ _ next beside done also
  obtain ⟨parent, enclosing, outer, around, merged, rfl⟩ := merge_eq_ok done
  obtain ⟨parent', enclosing', outer', around', merged', rfl⟩ := merge_eq_ok also
  have drafts := mirrors.drafts
  unfold Document.drafts at drafts
  rw [around, around'] at drafts
  rw [mirrors.policy] at merged
  rw [mirrors.policy'] at merged'
  cases drafts with
  | inner innermost rest =>
    have declared := innermost.declarations_eq mirrors.entities mirrors.tables
    exact { mirrors with
      drafts := rest.changed fun parents =>
        parents.mergeInto innermost rfl declared merged merged' }

theorem Mirrors.tryCurrent (mirrors : document.Mirrors footing depth level other)
    {change : Draft → Except Fault Draft} (kept : ∀ {scopes start start' draft other after after'},
      Draft.Mirrors scopes start start' level draft other →
      change draft = .ok after → change other = .ok after' →
      after.Mirrors scopes start start' level' after') :
    Together (tryCurrent change) document (tryCurrent change) other fun _ _ next beside =>
      next.Mirrors footing depth level' beside := by
  intro _ _ next beside done also
  obtain ⟨current, changed, rfl⟩ := tryCurrent_eq_ok done
  obtain ⟨current', changed', rfl⟩ := tryCurrent_eq_ok also
  exact { mirrors with
    drafts := mirrors.drafts.changed fun currents => kept currents changed changed' }

theorem Mirrors.closeScope (mirrors : document.Mirrors footing (depth + 1) 0 other) :
    Together closeScope document closeScope other fun _ _ next beside =>
      next.Mirrors footing depth 0 beside :=
  mirrors.merge.bind fun _ _ _ _ mirrors => mirrors.tryCurrent Draft.Mirrors.closeBlock

/-- A scope is closed and another one opened in both. -/
theorem linkScope_agrees (transition : String) :
    Agrees (Mirrors footing (depth + 1) 0) (linkScope transition) (linkScope transition) := by
  intro document other mirrors
  have blocks (document : Document) (language : document.language = .c) :
      document.language ≠ .gappa := by
    rw [language]
    decide
  unfold Together
  rw [linkScope_eq (blocks document mirrors.language),
    linkScope_eq (blocks other mirrors.language')]
  refine mirrors.merge.bind fun _ _ _ _ mirrors => ?_
  refine (mirrors.tryCurrent fun current linked linked' => current.linkBlock linked linked').bind
    fun _ _ _ _ mirrors => ?_
  exact .modified ⟨rfl, mirrors.push⟩

/-- Names are given in the innermost scope of both. -/
theorem withNames_agrees {α : Type} {action : NamingM α}
    (agrees : Agrees (Naming.Mirrors footing.names footing.policy.shares) action action) :
    Agrees (Mirrors footing (depth + 1) level) (withNames action) (withNames action) := by
  intro document other mirrors value value' next beside done also
  obtain ⟨naming, acted, rfl⟩ := withNames_eq_ok done
  obtain ⟨naming', acted', rfl⟩ := withNames_eq_ok also
  cases drafts : mirrors.drafts with
  | inner innermost rest =>
    obtain ⟨same, named⟩ := agrees _ _ ⟨mirrors.entities, mirrors.tables, innermost.scope⟩
      _ _ _ _ acted acted'
    exact ⟨same, { mirrors with
      entities := named.entities
      tables := named.tables
      drafts := .inner { innermost with scope := named.scope } rest }⟩

theorem declareTemporary_agrees (stem : String) (format : Format) :
    Agrees (Mirrors footing (depth + 1) level) (declareTemporary stem format)
      (declareTemporary stem format) := by
  intro document other mirrors
  have plain : document.current.flavor = .plain ∧ other.current.flavor = .plain := by
    cases mirrors.drafts with
    | inner innermost _ => exact ⟨innermost.plain, innermost.plain'⟩
  refine .get_bind ?_
  rw [plain.1, plain.2]
  exact withNames_agrees (Naming.declareNew_agrees
    (footing.standard.shares_eq_false (by decide)) stem _) document other mirrors

end Document

end Retarget
