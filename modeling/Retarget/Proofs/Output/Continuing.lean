import Retarget.Proofs.Output.Nesting

/-!
# Drafts that are written on

What was once written in a draft stays in it: text is appended, and stepping back takes away no more
than indentation, which is no part of a finished line. A draft that is written on therefore keeps
its tables and all of its finished lines (`Draft.Continues`); one whose blocks stay as they are
keeps its depth as well (`Draft.Advances`).
-/

namespace Retarget

open List

theorem forall₂_trans {α : Type} {related : α → α → Prop} [IsTrans α related]
    {first second third : List α} (left : List.Forall₂ related first second)
    (right : List.Forall₂ related second third) : List.Forall₂ related first third := by
  induction left generalizing third with
  | nil =>
    cases right
    exact .nil
  | cons head _ ih =>
    cases right with
    | cons head' rest => exact .cons (IsTrans.trans _ _ _ head head') (ih rest)

/-- A finished line stays where something without line breaks is cut off behind it. -/
theorem infix_of_infix_append {line front back : List Char}
    (finished : line.getLast? = some '\n') (unbroken : '\n' ∉ back)
    (inside : line <:+: front ++ back) : line <:+: front := by
  obtain ⟨before, after, same⟩ := inside
  rcases append_eq_append_iff.mp same with ⟨more, rfl, _⟩ | ⟨more, cut, rest⟩
  · exact ⟨before, more, rfl⟩
  · cases more with
    | nil =>
      rw [append_nil] at cut
      exact ⟨before, [], by rw [cut, append_nil]⟩
    | cons first others =>
      have last : (before ++ line).getLast? = some '\n' := by
        rw [getLast?_append, finished]
        rfl
      rw [cut, getLast?_append] at last
      have member : '\n' ∈ first :: others := by
        apply mem_of_getLast?
        cases ending : (first :: others).getLast? with
        | none => cases getLast?_eq_none_iff.mp ending
        | some final =>
          rw [ending] at last
          exact last
      rw [rest] at unbroken
      exact absurd (mem_append_left after member) unbroken

namespace Draft

variable {after draft : Draft}

/-- The tables stay and no finished line is lost. -/
structure Continues (before after : Draft) : Prop where
  own : after.scope.own = before.scope.own
  lines : ∀ line : List Char, line.getLast? = some '\n' → line <:+: before.text.toList →
    line <:+: after.text.toList

/-- A draft is written on in the block it is in. -/
structure Advances (before after : Draft) : Prop extends Continues before after where
  depth : after.depth = before.depth
  flavor : after.flavor = before.flavor

theorem Continues.refl (draft : Draft) : Continues draft draft :=
  ⟨rfl, fun _ _ => id⟩

theorem Continues.trans {first second third : Draft} (left : Continues first second)
    (right : Continues second third) : Continues first third :=
  ⟨right.own.trans left.own, fun line finished inside =>
    right.lines line finished (left.lines line finished inside)⟩

theorem Advances.refl (draft : Draft) : Advances draft draft :=
  ⟨.refl draft, rfl, rfl⟩

theorem Advances.trans {first second third : Draft} (left : Advances first second)
    (right : Advances second third) : Advances first third :=
  ⟨left.toContinues.trans right.toContinues, right.depth.trans left.depth,
    right.flavor.trans left.flavor⟩

instance : Std.Refl Continues := ⟨Continues.refl⟩

instance : IsTrans Draft Continues := ⟨fun _ _ _ => Continues.trans⟩

instance : Std.Refl Advances := ⟨Advances.refl⟩

theorem Continues.of_text_append {before : Draft} {more : String}
    (own : after.scope.own = before.scope.own) (text : after.text = before.text ++ more) :
    Continues before after := by
  refine ⟨own, fun line _ inside => ?_⟩
  rw [text, String.toList_append]
  exact inside.trans (prefix_append _ _).isInfix

theorem append_advances (draft : Draft) (text : String) : Advances draft (draft.append text) := by
  unfold append
  split
  · exact ⟨.of_text_append rfl rfl, rfl, rfl⟩
  · exact ⟨.of_text_append rfl rfl, rfl, rfl⟩

theorem addHeader_advances (draft : Draft) (header : String) :
    Advances draft (draft.addHeader header) :=
  ⟨⟨rfl, fun _ _ => id⟩, rfl, rfl⟩

theorem addLibrary_advances (draft : Draft) (library : String) :
    Advances draft (draft.addLibrary library) :=
  ⟨⟨rfl, fun _ _ => id⟩, rfl, rfl⟩

/-- What is cut off when a draft steps back holds no line break. -/
theorem dropStep_append (text : String) :
    ∃ cut : List Char, '\n' ∉ cut ∧ text.toList = (dropStep text).toList ++ cut := by
  unfold dropStep
  split
  · rename_i suffix
    obtain ⟨front, same⟩ := isSuffixOf_iff_suffix.mp suffix
    refine ⟨step.toList, by decide, ?_⟩
    rw [← same, length_append, String.toList_ofList]
    rw [show front.length + step.toList.length - 4 = front.length from rfl, take_left]
  · exact ⟨[], not_mem_nil, (append_nil _).symm⟩

theorem dedent_eq_ok (stepped : draft.dedent = .ok after) :
    draft.depth = after.depth + 1 ∧ Continues draft after ∧ after.flavor = draft.flavor := by
  obtain ⟨depth, deeper, rfl⟩ := exists_of_dedent stepped
  refine ⟨deeper, ⟨rfl, fun line finished inside => ?_⟩, rfl⟩
  obtain ⟨cut, unbroken, same⟩ := dropStep_append draft.text
  rw [same] at inside
  exact infix_of_infix_append finished unbroken inside

theorem closeBlock_eq_ok (closed : draft.closeBlock = .ok after) :
    draft.depth = after.depth + 1 ∧ Continues draft after ∧ after.flavor = draft.flavor := by
  obtain ⟨outside, stepped, rfl⟩ := exists_of_closeBlock closed
  obtain ⟨depth, continues, flavor⟩ := dedent_eq_ok stepped
  have advances := outside.append_advances outside.language.blockClose
  exact ⟨by rw [advances.depth, depth], continues.trans advances.toContinues,
    advances.flavor.trans flavor⟩

/-- A draft that steps back, is written on and goes deeper again is as deep as before. -/
theorem indent_advances {outside : Draft} (stepped : draft.dedent = .ok outside)
    (advances : outside.Advances after) : draft.Advances after.indent := by
  obtain ⟨depth, continues, flavor⟩ := dedent_eq_ok stepped
  have indented : Continues after after.indent := .of_text_append rfl rfl
  refine ⟨(continues.trans advances.toContinues).trans indented, ?_, advances.flavor.trans flavor⟩
  change after.depth + 1 = draft.depth
  rw [advances.depth, depth]

theorem linkBlock_advances {transition : String} (linked : draft.linkBlock transition = .ok after) :
    Advances draft after := by
  obtain ⟨link, outside, _, stepped, rfl⟩ := exists_of_linkBlock linked
  exact indent_advances stepped (outside.append_advances link)

section

variable {child parent outer : Draft} {names : Names} {emission : Emission}

/-- The text of a draft is written into its parent behind what is there. -/
theorem mergeBody_eq_ok {declarations : String}
    (merged : child.mergeBody declarations parent = .ok () outer) :
    ∃ front, parent.Advances front ∧ (front.append child.text).Advances outer := by
  have lined : parent.Advances (if declarations.isEmpty then parent else parent.append "\n") := by
    split
    · exact .refl parent
    · exact parent.append_advances "\n"
  cases flavor : child.flavor with
  | plain =>
    rw [mergeBody, flavor] at merged
    cases merged
    exact ⟨_, lined, .refl _⟩
  | verification obligations =>
    rw [mergeBody, flavor] at merged
    cases merged
    refine ⟨_, lined, ?_⟩
    exact ((append_advances _ _).trans (append_advances _ _)).trans (append_advances _ _)
  | hardware sharedSignals mainLevel =>
    obtain ⟨outside, stepped, rfl⟩ := mergeBody_hardware flavor merged
    refine ⟨_, (indent_advances stepped ?_).trans (append_advances _ _), .refl _⟩
    split
    · exact outside.append_advances "\n"
    · exact (outside.append_advances "\n").trans (append_advances _ _)

/-- The declarations and then the text of a draft are written into its parent behind what is
there. -/
theorem mergeInto_eq_ok (merged : child.mergeInto names emission parent = .ok () outer) :
    ∃ front middle, parent.Advances front ∧
      (front.append (child.declarations names emission)).Advances middle ∧
      (middle.append child.text).Advances outer := by
  obtain ⟨body, headers, libraries, written, rfl⟩ := exists_of_mergeInto merged
  obtain ⟨front, before, behind⟩ := mergeBody_eq_ok written
  refine ⟨_, front, ?_, before, behind.trans ⟨⟨rfl, fun _ _ => id⟩, rfl, rfl⟩⟩
  split
  · exact (parent.append_advances _).trans (append_advances _ _)
  · exact .refl parent

theorem mergeInto_advances (merged : child.mergeInto names emission parent = .ok () outer) :
    parent.Advances outer := by
  obtain ⟨front, middle, first, second, third⟩ := mergeInto_eq_ok merged
  exact (first.trans (front.append_advances _)).trans
    (second.trans ((middle.append_advances _).trans third))

end

end Draft

namespace Document

variable {document after : Document}

/-- All open drafts are written on in the blocks they are in. -/
structure Advances (before after : Document) : Prop where
  keeps : Keeps before after
  language : after.language = before.language
  drafts : List.Forall₂ Draft.Advances before.drafts after.drafts

theorem Advances.refl (document : Document) : Advances document document :=
  ⟨.refl document, rfl, forall₂_refl _⟩

section

variable {change : Draft → Draft} (same : ∀ draft, (change draft).scope = draft.scope)
  (advances : ∀ draft, Draft.Advances draft (change draft)) (document : Document)

include same advances

theorem modifyCurrent_advances : Advances document (document.modifyCurrent change) :=
  ⟨modifyCurrent_keeps same document, rfl,
    .cons (advances document.current) (forall₂_refl _)⟩

theorem modifyRoot_advances : Advances document (document.modifyRoot change) := by
  have keeps := modifyRoot_keeps same document
  unfold modifyRoot at keeps ⊢
  cases last : document.enclosing.getLast? with
  | none => exact modifyCurrent_advances same advances document
  | some outermost =>
    rw [last] at keeps
    refine ⟨keeps, rfl, .cons (.refl _) ?_⟩
    have whole := dropLast_append_getLast? outermost last
    change List.Forall₂ _ document.enclosing (document.enclosing.dropLast ++ [change outermost])
    rw [← whole, dropLast_concat]
    exact rel_append (forall₂_refl _) (.cons (advances outermost) .nil)

end

theorem append_advances (text : String) : Changes Advances (append text) :=
  .modify (modifyCurrent_advances (fun draft => draft.scope_append text)
    fun draft => draft.append_advances text)

theorem addHeader_advances (header : String) : Changes Advances (addHeader header) :=
  .modify (modifyRoot_advances (fun draft => draft.scope_addHeader header)
    fun draft => draft.addHeader_advances header)

theorem addLibrary_advances (library : String) : Changes Advances (addLibrary library) :=
  .modify (modifyRoot_advances (fun draft => draft.scope_addLibrary library)
    fun draft => draft.addLibrary_advances library)

theorem withNames_advances {α : Type} {action : NamingM α}
    (grows : Changes Naming.Grows action) : Changes Advances (withNames action) := by
  intro document
  refine ⟨withNames_keeps grows document, ?_, ?_⟩
  · rw [finalState_withNames]
  · rw [finalState_withNames]
    have grown := grows { toNames := document.names, scope := document.current.scope }
    exact .cons ⟨⟨grown.own, fun _ _ => id⟩, rfl, rfl⟩ (forall₂_refl _)

theorem declareTemporary_advances (stem : String) (format : Format) :
    Changes Advances (declareTemporary stem format) := by
  refine .get_bind fun document => withNames_advances ?_ document
  unfold Draft.declareTemporary
  split <;> exact Naming.grows_permits.declareNew _ _ _

theorem merge_eq_ok (done : merge document = .ok () after) :
    ∃ parent enclosing outer, document.enclosing = parent :: enclosing ∧
      document.current.mergeInto document.names (closing document.policy) parent =
        .ok () outer ∧
      after = { document with current := outer, enclosing } := by
  unfold merge at done
  cases around : document.enclosing with
  | nil =>
    rw [around] at done
    cases done
  | cons parent enclosing =>
    rw [around] at done
    cases merged : document.current.mergeInto document.names (closing document.policy) parent with
    | error fault outer =>
      simp only [merged] at done
      cases done
    | ok _ outer =>
      simp only [merged] at done
      cases done
      exact ⟨parent, enclosing, outer, rfl, merged, rfl⟩

theorem tryCurrent_eq_ok {change : Draft → Except Fault Draft}
    (done : tryCurrent change document = .ok () after) :
    ∃ current, change document.current = .ok current ∧ after = { document with current } := by
  obtain ⟨_, _, ⟨⟩, done⟩ := bind_eq_ok.mp done
  obtain ⟨current, _, lifted, ended⟩ := bind_eq_ok.mp done
  obtain ⟨changed, rfl⟩ := liftExcept_eq_ok.mp lifted
  cases ended
  exact ⟨current, changed, rfl⟩

theorem exists_of_closeScope (done : closeScope document = .ok () after) :
    ∃ parent enclosing outer current, document.enclosing = parent :: enclosing ∧
      document.current.mergeInto document.names (closing document.policy) parent =
        .ok () outer ∧ outer.closeBlock = .ok current ∧
      after = { document with current, enclosing } := by
  obtain ⟨_, middle, merged, closed⟩ := bind_eq_ok.mp done
  obtain ⟨parent, enclosing, outer, around, merging, rfl⟩ := merge_eq_ok merged
  obtain ⟨current, closing, rfl⟩ := tryCurrent_eq_ok closed
  exact ⟨parent, enclosing, outer, current, around, merging, closing, rfl⟩

theorem exists_of_linkScope {transition : String}
    (done : linkScope transition document = .ok () after) :
    ∃ parent enclosing outer current, document.enclosing = parent :: enclosing ∧
      document.current.mergeInto document.names (closing document.policy) parent =
        .ok () outer ∧ outer.linkBlock transition = .ok current ∧
      after = Document.push { document with current, enclosing } [] := by
  cases known : document.language.blockLink? transition with
  | none => cases (linkScope_of_noBlocks known).symm.trans done
  | some link =>
    rw [linkScope_of_blockLink? known] at done
    obtain ⟨_, middle, merged, linked⟩ := bind_eq_ok.mp done
    obtain ⟨parent, enclosing, outer, around, merging, rfl⟩ := merge_eq_ok merged
    obtain ⟨_, middle, stepped, pushed⟩ := bind_eq_ok.mp linked
    obtain ⟨current, linking, rfl⟩ := tryCurrent_eq_ok stepped
    cases pushed
    exact ⟨parent, enclosing, outer, current, around, merging, linking, rfl⟩

/-- A scope that closes leaves the drafts around it, the innermost of them in the block that the
scope stood in. -/
theorem closeScope_eq_ok (done : closeScope document = .ok () after) :
    after.language = document.language ∧ ∃ parent enclosing,
      document.enclosing = parent :: enclosing ∧ after.enclosing = enclosing ∧
      parent.Continues after.current ∧ parent.depth = after.current.depth + 1 ∧
      after.current.flavor = parent.flavor := by
  obtain ⟨parent, enclosing, outer, current, around, merging, closing, rfl⟩ :=
    exists_of_closeScope done
  have advances := Draft.mergeInto_advances merging
  obtain ⟨depth, continues, flavor⟩ := Draft.closeBlock_eq_ok closing
  exact ⟨rfl, parent, enclosing, around, rfl, advances.toContinues.trans continues,
    by rw [← advances.depth, depth], flavor.trans advances.flavor⟩

/-- A scope that opens beside another one leaves the drafts around it in the blocks they are in. -/
theorem linkScope_eq_ok {transition : String}
    (done : linkScope transition document = .ok () after) :
    after.language = document.language ∧ ∃ parent outer enclosing,
      document.enclosing = parent :: enclosing ∧ after.enclosing = outer :: enclosing ∧
      parent.Advances outer ∧ after.current.depth = 0 ∧
      (document.language = .c → after.current.flavor = .plain) := by
  obtain ⟨parent, enclosing, outer, current, around, merging, linking, rfl⟩ :=
    exists_of_linkScope done
  refine ⟨rfl, parent, current, enclosing, around, rfl,
    (Draft.mergeInto_advances merging).trans (Draft.linkBlock_advances linking), rfl, fun c => ?_⟩
  apply flavor_push
  exact c

end Document

end Retarget
