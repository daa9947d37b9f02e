import Retarget.Proofs.Output.Balance

/-!
# Ends of scopes

After every run all open drafts are in the language of the document, and those around the innermost
one are in a block (`Document.Anchored`). A scope then ends in one of three ways: the outermost
scope stays, a draft with open blocks is dropped, and any other draft is written into the one around
it without a fault. So an operation that goes back and fails leaves the document as it was, unless
it would end a scope with open blocks.
-/

namespace Retarget

open List

namespace Document

/-- All open drafts are in the document's language, and those around the innermost one are in a
block. -/
def Anchored (document : Document) : Prop :=
  ∃ (depth : Nat) (depths : List Nat), document.drafts.map Draft.level =
    (document.language, depth) :: depths.map fun below => (document.language, below + 1)

/-- The document without its innermost draft, where that is not the outermost. -/
def abandon (document : Document) : Document :=
  match document.enclosing with
  | [] => document
  | parent :: enclosing => { document with current := parent, enclosing }

section Closing

variable {transition link : String} {document after : Document} {parent : Draft}
  {enclosing : List Draft}

theorem abandon_of_enclosing (around : document.enclosing = parent :: enclosing) :
    document.abandon = { document with current := parent, enclosing } := by
  unfold abandon
  rw [around]

theorem names_abandon (document : Document) : document.abandon.names = document.names := by
  unfold abandon
  split <;> rfl

theorem policy_abandon (document : Document) : document.abandon.policy = document.policy := by
  unfold abandon
  split <;> rfl

theorem depth_abandon (inner : document.enclosing ≠ []) :
    document.abandon.depth + 1 = document.depth := by
  obtain ⟨parent, enclosing, around⟩ := exists_cons_of_ne_nil inner
  rw [abandon_of_enclosing around, depth, depth, around]
  rfl

namespace Anchored

theorem of_levels (anchored : document.Anchored) (language : after.language = document.language)
    (levels : after.drafts.map Draft.level = document.drafts.map Draft.level) :
    after.Anchored := by
  obtain ⟨depth, depths, whole⟩ := anchored
  refine ⟨depth, depths, ?_⟩
  rw [levels, language]
  exact whole

/-- The draft around the innermost one, and those around that. -/
theorem exists_level (anchored : document.Anchored)
    (around : document.enclosing = parent :: enclosing) :
    ∃ (below : Nat) (depths : List Nat), parent.level = (document.language, below + 1) ∧
      enclosing.map Draft.level = depths.map fun below => (document.language, below + 1) := by
  obtain ⟨depth, depths, whole⟩ := anchored
  have outer := (List.cons.inj whole).2
  rw [around, map_cons] at outer
  obtain ⟨below, rest, rfl, level, levels⟩ := map_eq_cons_iff.mp outer.symm
  exact ⟨below, rest, level.symm, levels.symm⟩

end Anchored

/-! ## The three ways -/

theorem merge_of_blocksOpen (around : document.enclosing = parent :: enclosing)
    (inside : document.current.depth ≠ 0) :
    merge document =
      .error (.nesting (.blocksOpen document.current.depth)) document.abandon := by
  have failed : document.current.mergeInto document.names (closing document.policy) parent =
      .error (.nesting (.blocksOpen document.current.depth)) parent := by
    refine bind_of_eq_error ?_
    unfold Draft.checkBalanced
    rw [if_neg inside]
    rfl
  rw [abandon_of_enclosing around]
  unfold merge
  rw [around]
  dsimp only
  rw [failed]

theorem Anchored.merge_of_flat (anchored : document.Anchored)
    (around : document.enclosing = parent :: enclosing) (flat : document.current.depth = 0) :
    ∃ outer, document.current.mergeInto document.names (closing document.policy) parent =
        .ok () outer ∧ outer.level = parent.level ∧
      merge document = .ok () { document with current := outer, enclosing } := by
  obtain ⟨below, _, level, _⟩ := anchored.exists_level around
  obtain ⟨outer, merged, kept⟩ := Draft.mergeInto_of_level flat document.names
    (closing document.policy) level
  exact ⟨outer, merged, kept.trans level.symm, merge_of_mergeInto around merged⟩

theorem closeScope_of_outermost (alone : document.enclosing = []) :
    closeScope document = .error (.nesting .nothingToClose) document :=
  bind_of_eq_error (merge_of_outermost alone)

theorem closeScope_of_blocksOpen (around : document.enclosing = parent :: enclosing)
    (inside : document.current.depth ≠ 0) :
    closeScope document =
      .error (.nesting (.blocksOpen document.current.depth)) document.abandon :=
  bind_of_eq_error (merge_of_blocksOpen around inside)

theorem Anchored.closeScope_of_flat (anchored : document.Anchored)
    (around : document.enclosing = parent :: enclosing) (flat : document.current.depth = 0) :
    ∃ outer current, document.current.mergeInto document.names (closing document.policy) parent =
        .ok () outer ∧ outer.closeBlock = .ok current ∧
      parent.level = (current.language, current.depth + 1) ∧
      closeScope document = .ok () { document with current, enclosing } := by
  obtain ⟨outer, merging, same, merged⟩ := anchored.merge_of_flat around flat
  obtain ⟨below, _, level, _⟩ := anchored.exists_level around
  obtain ⟨current, closed, lower⟩ := Draft.closeBlock_of_level (same.trans level)
  obtain ⟨language, depth⟩ := Prod.mk.inj lower
  refine ⟨outer, current, merging, closed, ?_, ?_⟩
  · rw [level, language, depth]
  · rw [closeScope, bind_of_eq_ok merged]
    exact tryCurrent_of_ok closed

theorem linkScope_of_outermost (linked : document.language.blockLink? transition = some link)
    (alone : document.enclosing = []) :
    linkScope transition document = .error (.nesting .nothingToClose) document := by
  rw [linkScope_of_blockLink? linked]
  exact bind_of_eq_error (merge_of_outermost alone)

theorem linkScope_of_blocksOpen (linked : document.language.blockLink? transition = some link)
    (around : document.enclosing = parent :: enclosing) (inside : document.current.depth ≠ 0) :
    linkScope transition document =
      .error (.nesting (.blocksOpen document.current.depth)) document.abandon := by
  rw [linkScope_of_blockLink? linked]
  exact bind_of_eq_error (merge_of_blocksOpen around inside)

theorem Anchored.linkScope_of_flat (anchored : document.Anchored)
    (linked : document.language.blockLink? transition = some link)
    (around : document.enclosing = parent :: enclosing) (flat : document.current.depth = 0) :
    ∃ outer current, document.current.mergeInto document.names (closing document.policy) parent =
        .ok () outer ∧ outer.linkBlock transition = .ok current ∧ current.level = parent.level ∧
      linkScope transition document =
        .ok () (({ document with current, enclosing } : Document).push []) := by
  obtain ⟨outer, merging, same, merged⟩ := anchored.merge_of_flat around flat
  obtain ⟨below, _, level, _⟩ := anchored.exists_level around
  obtain ⟨current, stepped, kept⟩ := Draft.linkBlock_of_level (same.trans level) linked
  refine ⟨outer, current, merging, stepped, kept.trans level.symm, ?_⟩
  rw [linkScope_of_blockLink? linked, bind_of_eq_ok merged,
    bind_of_eq_ok (tryCurrent_of_ok stepped)]
  rfl

end Closing

/-! ## Every run keeps the drafts anchored -/

/-- Anchored documents stay anchored. -/
def Anchors (before after : Document) : Prop :=
  before.Anchored → after.Anchored

instance : Std.Refl Anchors := ⟨fun _ => id⟩

instance : IsTrans Document Anchors := ⟨fun _ _ _ left right anchored => right (left anchored)⟩

section Anchors

variable {document : Document}

section

variable {change : Draft → Draft} (same : ∀ draft, (change draft).level = draft.level)
  (document : Document)

include same

theorem modifyCurrent_anchors :
    Anchors document (document.modifyCurrent change) := fun anchored =>
  anchored.of_levels rfl (congrArg (· :: _) (same document.current))

theorem modifyRoot_anchors :
    Anchors document (document.modifyRoot change) := fun anchored =>
  anchored.of_levels (modifyRoot_frame change document).1 (map_modifyRoot same document)

end

theorem withNames_anchors {α : Type} (action : NamingM α) : Changes Anchors (withNames action) := by
  intro document anchored
  rw [finalState_withNames]
  exact anchored.of_levels rfl rfl

theorem indent_anchors : Changes Anchors indent := by
  refine .modify fun document anchored => ?_
  obtain ⟨depth, depths, whole⟩ := anchored
  obtain ⟨current, outer⟩ := List.cons.inj whole
  exact ⟨depth + 1, depths, congrArg₂ List.cons (Draft.level_indent current) outer⟩

theorem dedent_anchors : Changes Anchors dedent := by
  refine .get_bind fun document anchored => ?_
  cases stepped : document.current.dedent with
  | error fault => exact anchored
  | ok after =>
    obtain ⟨depth, depths, whole⟩ := anchored
    obtain ⟨current, outer⟩ := List.cons.inj whole
    have language : document.current.language = document.language := congrArg Prod.fst current
    obtain ⟨_, _, rfl⟩ := Draft.exists_of_dedent stepped
    exact ⟨_, depths, congrArg₂ List.cons (Prod.ext language rfl) outer⟩

theorem Anchored.push (anchored : document.Anchored) (extra : List Category)
    (inside : 0 < document.current.depth) : (document.push extra).Anchored := by
  obtain ⟨depth, depths, whole⟩ := anchored
  obtain ⟨current, outer⟩ := List.cons.inj whole
  have deeper : depth = depth - 1 + 1 := by
    have same : document.current.depth = depth := congrArg Prod.snd current
    omega
  refine ⟨0, (depth - 1) :: depths, congrArg₂ List.cons rfl ?_⟩
  rw [map_cons, ← deeper]
  exact congrArg₂ List.cons current outer

theorem openSharing_anchors (extra : List Category) : Changes Anchors (openSharing extra) := by
  refine .modify fun document anchored => ?_
  obtain ⟨depth, depths, whole⟩ := anchored
  obtain ⟨current, outer⟩ := List.cons.inj whole
  have opened : document.current.openBlock.level = (document.language, depth + 1) :=
    Draft.level_indent ((Draft.level_append _ _).trans current)
  have inside : (document.modifyCurrent Draft.openBlock).Anchored :=
    ⟨depth + 1, depths, congrArg₂ List.cons opened outer⟩
  exact inside.push extra
    (Nat.lt_of_lt_of_eq (Nat.succ_pos depth) (congrArg Prod.snd opened).symm)

theorem Anchored.abandon (anchored : document.Anchored) : document.abandon.Anchored := by
  cases around : document.enclosing with
  | nil =>
    unfold Document.abandon
    rw [around]
    exact anchored
  | cons parent enclosing =>
    obtain ⟨below, depths, level, levels⟩ := anchored.exists_level around
    rw [abandon_of_enclosing around]
    exact ⟨below + 1, depths, congrArg₂ List.cons level levels⟩

theorem closeScope_anchors : Changes Anchors closeScope := by
  intro document anchored
  cases around : document.enclosing with
  | nil =>
    rw [closeScope_of_outermost around]
    exact anchored
  | cons parent enclosing =>
    by_cases flat : document.current.depth = 0
    · obtain ⟨_, current, _, _, lower, closed⟩ := anchored.closeScope_of_flat around flat
      obtain ⟨below, depths, level, levels⟩ := anchored.exists_level around
      rw [closed]
      have language : current.language = document.language :=
        congrArg Prod.fst (lower.symm.trans level)
      exact ⟨current.depth, depths, congrArg₂ List.cons (Prod.ext language rfl) levels⟩
    · rw [closeScope_of_blocksOpen around flat]
      exact anchored.abandon

theorem linkScope_anchors (transition : String) : Changes Anchors (linkScope transition) := by
  intro document anchored
  cases linked : document.language.blockLink? transition with
  | none =>
    rw [linkScope_of_noBlocks linked]
    exact anchored
  | some link =>
    cases around : document.enclosing with
    | nil =>
      rw [linkScope_of_outermost linked around]
      exact anchored
    | cons parent enclosing =>
      by_cases flat : document.current.depth = 0
      · obtain ⟨_, current, _, _, kept, done⟩ :=
          anchored.linkScope_of_flat linked around flat
        obtain ⟨below, depths, level, levels⟩ := anchored.exists_level around
        rw [done]
        have inner := kept.trans level
        refine Anchored.push ⟨below + 1, depths, congrArg₂ List.cons inner levels⟩ [] ?_
        exact Nat.lt_of_lt_of_eq (Nat.succ_pos below) (congrArg Prod.snd inner).symm
      · rw [linkScope_of_blocksOpen linked around flat]
        exact anchored.abandon

end Anchors

theorem Operation.perform_anchors (operation : Operation) :
    Changes Anchors operation.perform := by
  cases operation with
  | append text =>
    exact .bind (.modify (modifyCurrent_anchors (·.level_append text))) fun _ => .pure none
  | comment text =>
    exact .bind (.modify (modifyCurrent_anchors fun draft => draft.level_append _)) fun _ =>
      .pure none
  | header name =>
    exact .bind (.modify (modifyRoot_anchors (·.level_addHeader name))) fun _ => .pure none
  | localHeader name =>
    exact .bind (.modify (modifyCurrent_anchors (·.level_addHeader name))) fun _ => .pure none
  | library name =>
    exact .bind (.modify (modifyRoot_anchors (·.level_addLibrary name))) fun _ => .pure none
  | headerComment text =>
    exact .bind (.modify (modifyRoot_anchors (·.level_addHeaderComment text))) fun _ =>
      .pure none
  | indent => exact .bind indent_anchors fun _ => .pure none
  | dedent => exact .bind dedent_anchors fun _ => .pure none
  | openSharing extra => exact .bind (openSharing_anchors extra) fun _ => .pure none
  | close => exact .bind closeScope_anchors fun _ => .pure none
  | link transition => exact .bind (linkScope_anchors transition) fun _ => .pure none
  | alloc entity => exact .bind (withNames_anchors _) fun _ => .pure none
  | declare category name entity => exact .bind (withNames_anchors _) fun _ => .pure _
  | temporary stem format =>
    exact .map (.get_bind fun document => withNames_anchors _ document)
  | freeName | signal | constant | constantValue | table | freeFunction =>
    exact .map (withNames_anchors _)

theorem run_anchored (language : Language) (policy : SharingPolicy)
    (operations : List Operation) : (run operations (create language policy)).Anchored := by
  have keeps (document : Document) : Anchors document (run operations document) := by
    induction operations generalizing document with
    | nil => exact id
    | cons operation rest ih => exact fun anchored => ih _ (operation.perform_anchors _ anchored)
  exact keeps _ ⟨0, [], rfl⟩

/-! ## What a failure leaves -/

namespace Operation

/-- Whether an operation goes back: by a step of indentation, or out of a scope. -/
def goesBack : Operation → Bool
  | .dedent | .close | .link _ => true
  | _ => false

/-- Whether an operation would end a scope in which blocks are open. -/
def strands (document : Document) : Operation → Bool
  | .close => !document.enclosing.isEmpty && document.current.depth != 0
  | .link transition =>
    (document.language.blockLink? transition).isSome && !document.enclosing.isEmpty &&
      document.current.depth != 0
  | _ => false

variable {document after : Document} {operation : Operation} {fault : Fault}

/-- An operation that ends a scope with open blocks loses the draft of that scope. -/
theorem perform_of_strands (stranded : operation.strands document = true) :
    document.enclosing ≠ [] ∧
      operation.perform document =
        .error (.nesting (.blocksOpen document.current.depth)) document.abandon := by
  cases operation with
  | close =>
    simp only [strands, Bool.and_eq_true, Bool.not_eq_true', isEmpty_eq_false_iff,
      bne_iff_ne] at stranded
    obtain ⟨parent, enclosing, around⟩ := exists_cons_of_ne_nil stranded.1
    exact ⟨stranded.1, bind_of_eq_error (closeScope_of_blocksOpen around stranded.2)⟩
  | link transition =>
    simp only [strands, Bool.and_eq_true, Bool.not_eq_true', isEmpty_eq_false_iff,
      bne_iff_ne] at stranded
    obtain ⟨⟨blocks, inner⟩, inside⟩ := stranded
    obtain ⟨link, linked⟩ := Option.isSome_iff_exists.mp blocks
    obtain ⟨parent, enclosing, around⟩ := exists_cons_of_ne_nil inner
    exact ⟨inner, bind_of_eq_error (linkScope_of_blocksOpen linked around inside)⟩
  | _ => cases stranded

/-- Every other failure on the way back leaves the document as it was. -/
theorem eq_of_perform_eq_error (anchored : document.Anchored) (back : operation.goesBack = true)
    (sound : operation.strands document = false)
    (failed : operation.perform document = .error fault after) : after = document := by
  cases operation with
  | dedent =>
    cases stepped : document.current.dedent with
    | error reason =>
      have refused : Document.dedent document = .error reason document := by
        rw [Document.dedent, tryCurrent, bind_of_eq_ok (get_eq_ok document), stepped]
        rfl
      rw [perform, bind_of_eq_error refused] at failed
      cases failed
      rfl
    | ok current =>
      rw [perform, Document.dedent,
        bind_of_eq_ok (tryCurrent_of_ok stepped)] at failed
      cases failed
  | close =>
    cases around : document.enclosing with
    | nil =>
      rw [perform, bind_of_eq_error (closeScope_of_outermost around)] at failed
      cases failed
      rfl
    | cons parent enclosing =>
      have flat : document.current.depth = 0 := by simpa [strands, around] using sound
      obtain ⟨_, _, _, _, _, done⟩ := anchored.closeScope_of_flat around flat
      rw [perform, bind_of_eq_ok done] at failed
      cases failed
  | link transition =>
    cases linked : document.language.blockLink? transition with
    | none =>
      rw [perform, bind_of_eq_error (linkScope_of_noBlocks linked)] at failed
      cases failed
      rfl
    | some link =>
      cases around : document.enclosing with
      | nil =>
        rw [perform, bind_of_eq_error (linkScope_of_outermost linked around)] at failed
        cases failed
        rfl
      | cons parent enclosing =>
        have flat : document.current.depth = 0 := by
          simpa [strands, around, linked] using sound
        obtain ⟨_, _, _, _, _, done⟩ := anchored.linkScope_of_flat linked around flat
        rw [perform, bind_of_eq_ok done] at failed
        cases failed
  | _ => cases back

end Operation

/-- After every run, an operation that goes back and fails leaves the document as it was, in all its
drafts and names, unless it would end a scope with open blocks. Such an operation always fails, and
the draft of that scope is gone. -/
theorem run_failing_back (language : Language) (policy : SharingPolicy)
    (operations : List Operation) {operation : Operation} (back : operation.goesBack = true) :
    (operation.strands (run operations (create language policy)) = false →
      ∀ fault after, operation.perform (run operations (create language policy)) =
        .error fault after → after = run operations (create language policy)) ∧
    (operation.strands (run operations (create language policy)) = true →
      operation.perform (run operations (create language policy)) =
        .error (.nesting (.blocksOpen (run operations (create language policy)).current.depth))
          (run operations (create language policy)).abandon ∧
      (run operations (create language policy)).abandon.depth + 1 =
        (run operations (create language policy)).depth) := by
  have anchored := run_anchored language policy operations
  constructor
  · intro sound fault after failed
    exact Operation.eq_of_perform_eq_error anchored back sound failed
  · intro stranded
    obtain ⟨inner, failed⟩ := Operation.perform_of_strands stranded
    exact ⟨failed, depth_abandon inner⟩

/-- A block that is still open where its scope is to be closed. -/
def blockLeftOpen : List Operation :=
  [.openSharing [], .append "a = b;\n", .indent]

theorem run_failing_back_blockLeftOpen :
    (Operation.dedent.goesBack = true ∧
      ∀ fault after, Operation.dedent.perform (run [.openSharing []] (create .vhdl {})) =
        .error fault after → after = run [.openSharing []] (create .vhdl {})) ∧
    Operation.close.strands (run blockLeftOpen (create .c {})) = true ∧
      Operation.close.perform (run blockLeftOpen (create .c {})) =
        .error (.nesting (.blocksOpen 1)) (run blockLeftOpen (create .c {})).abandon ∧
      (run blockLeftOpen (create .c {})).abandon.depth + 1 =
        (run blockLeftOpen (create .c {})).depth := by
  have stranded : Operation.close.strands (run blockLeftOpen (create .c {})) = true := by cbv
  exact ⟨⟨rfl, (run_failing_back .vhdl {} [.openSharing []] rfl).1 rfl⟩, stranded,
    (run_failing_back .c {} blockLeftOpen rfl).2 stranded⟩

/-- A branch is linked to one whose block is still open: the branch is lost with its text. -/
theorem link_blockLeftOpen :
    (run blockLeftOpen (create .c {})).depth = 2 ∧
      (run blockLeftOpen (create .c {})).current.text = "a = b;\n    " ∧
      ∃ after, (Operation.link "else").perform (run blockLeftOpen (create .c {})) =
          .error (.nesting (.blocksOpen 1)) after ∧
        after.depth = 1 ∧ after.current.text = "\x7b\n    " := by
  refine ⟨by cbv, by cbv, (run blockLeftOpen (create .c {})).abandon, ?_, by cbv, by cbv⟩
  exact (Operation.perform_of_strands (by cbv)).2

end Document

end Retarget
