import Retarget.Proofs.Output.Layout

/-!
# Sheets

The text of a draft with all that decides how it goes on: language, flavor and depth. What is
written inside a block stands in the draft around it as if it had been written there at once, each
line moved to the right by one step. This holds of blocks that are drafts of their own
(`Document.Inside`) and of blocks that are mere indentation (`Document.Deeper`).
-/

namespace Retarget

open List

namespace Language

theorem continueLines_eq_self {after text : String}
    (same : ∀ c ∈ text.toList, c = '\n' → after = "") : continueLines after text = text := by
  apply String.toList_inj.mp
  rw [continueLines, String.toList_ofList]
  refine (flatMap_congr fun c member => ?_).trans (flatMap_singleton' text.toList)
  split
  · rename_i broken
    rw [broken, same c member broken]
    rfl
  · rfl

/-- Margins behind line breaks add up. -/
theorem continueLines_continueLines (outer : String) {inner : String}
    (single : '\n' ∉ inner.toList) (text : String) :
    continueLines outer (continueLines inner text) = continueLines (outer ++ inner) text := by
  have kept : continueLines outer inner = inner :=
    continueLines_eq_self fun c member broken => absurd (broken ▸ member) single
  have moved := congrArg String.toList kept
  rw [continueLines, String.toList_ofList] at moved
  apply String.toList_inj.mp
  simp only [continueLines, String.toList_ofList, String.toList_append, flatMap_assoc]
  refine flatMap_congr fun c _ => ?_
  split
  · rw [flatMap_cons, moved]
    simp
  · rename_i unbroken
    simp [unbroken]

end Language

theorem Draft.indentation_succ (depth : Nat) :
    indentation (depth + 1) = indentation depth ++ step := by
  apply String.toList_inj.mp
  rw [indentation, indentation, String.toList_append, String.toList_ofList, String.toList_ofList,
    Nat.mul_add, replicate_add]
  rfl

/-- A draft apart from its names and from what it requires of the head of the file. -/
structure Sheet where
  language : Language
  flavor : Flavor
  depth : Nat
  text : String

namespace Sheet

/-- Writes text at the depth of the sheet. -/
def append (sheet : Sheet) (text : String) : Sheet :=
  { sheet with
    text := sheet.text ++ Language.continueLines (Draft.indentation sheet.depth) text }

/-- Goes one step deeper. -/
def indent (sheet : Sheet) : Sheet :=
  { sheet with depth := sheet.depth + 1, text := sheet.text ++ Draft.step }

theorem append_append (sheet : Sheet) (first second : String) :
    (sheet.append first).append second = sheet.append (first ++ second) := by
  unfold append
  rw [Language.continueLines_append, String.append_assoc]

theorem append_empty (sheet : Sheet) : sheet.append "" = sheet := by
  unfold append
  rw [show Language.continueLines _ "" = "" from rfl, String.append_empty]

/-- Whole lines that are written one step deeper are moved to the right by one step. -/
theorem dropStep_indent (sheet : Sheet) {text : String} (whole : WholeLines text) :
    Draft.dropStep (sheet.indent.append text).text = (sheet.append (onLines 1 text)).text := by
  have margin := Language.continueLines_continueLines (Draft.indentation sheet.depth)
    (show '\n' ∉ Draft.step.toList by decide)
  have single : Language.continueLines (Draft.indentation sheet.depth) Draft.step = Draft.step :=
    Language.continueLines_eq_self fun c member broken => absurd (broken ▸ member) (by decide)
  have long : 4 ≤ Draft.step.toList.length := Nat.le_refl 4
  change Draft.dropStep (sheet.text ++ Draft.step ++
    Language.continueLines (Draft.indentation (sheet.depth + 1)) text) = _
  rw [Draft.indentation_succ, ← margin]
  nth_rewrite 1 [← single]
  rw [String.append_assoc, ← Language.continueLines_append, step_continueLines whole,
    Language.continueLines_append, single, ← String.append_assoc,
    Draft.dropStep_append_of_le _ long]
  exact String.append_empty

end Sheet

namespace Draft

/-- What of a draft decides how its text goes on. -/
def sheet (draft : Draft) : Sheet where
  language := draft.language
  flavor := draft.flavor
  depth := draft.depth
  text := draft.text

theorem sheet_append (draft : Draft) (text : String) :
    (draft.append text).sheet = draft.sheet.append text := by
  unfold append
  split
  · rename_i flat
    unfold sheet Sheet.append
    rw [flat, show indentation 0 = "" from rfl,
      Language.continueLines_eq_self fun _ _ _ => rfl]
  · rfl

theorem sheet_indent (draft : Draft) : draft.indent.sheet = draft.sheet.indent := rfl

variable {draft child parent : Draft} {sheet : Sheet} {text : String}

section

variable (inner : draft.sheet = sheet.indent.append text) (whole : WholeLines text)

include inner whole

theorem dedent_of_sheet :
    ∃ outer, draft.dedent = .ok outer ∧ outer.sheet = sheet.append (onLines 1 text) := by
  have deep : draft.depth = sheet.depth + 1 := congrArg Sheet.depth inner
  refine ⟨{ draft with depth := sheet.depth, text := dropStep draft.text }, ?_, ?_⟩
  · unfold dedent
    rw [deep]
  · have written := congrArg Sheet.text inner
    replace written : draft.text = (sheet.indent.append text).text := written
    change Sheet.mk draft.language draft.flavor sheet.depth (dropStep draft.text) = _
    rw [written, sheet.dropStep_indent whole]
    exact congrArg₂ (fun language flavor => Sheet.mk language flavor sheet.depth
      (sheet.append (onLines 1 text)).text) (congrArg Sheet.language inner)
      (congrArg Sheet.flavor inner)

theorem closeBlock_of_sheet (language : sheet.language = .c) :
    ∃ outer, draft.closeBlock = .ok outer ∧
      outer.sheet = sheet.append (onLines 1 text ++ "\x7d\n") := by
  obtain ⟨outside, stepped, back⟩ := dedent_of_sheet inner whole
  have written : outside.language = .c := (congrArg Sheet.language back).trans language
  refine ⟨outside.append outside.language.blockClose, ?_, ?_⟩
  · unfold closeBlock
    rw [stepped]
    rfl
  · rw [sheet_append, back, written, Sheet.append_append]
    rfl

theorem linkBlock_of_sheet (language : sheet.language = .c) (transition : String) :
    ∃ outer, draft.linkBlock transition = .ok outer ∧
      outer.sheet =
        (sheet.append (onLines 1 text ++ ("\x7d " ++ transition ++ " \x7b\n"))).indent := by
  obtain ⟨outside, stepped, back⟩ := dedent_of_sheet inner whole
  have written : draft.language = .c := (congrArg Sheet.language inner).trans language
  refine ⟨(outside.append ("\x7d " ++ transition ++ " \x7b\n")).indent, ?_, ?_⟩
  · unfold linkBlock
    rw [written]
    simp only [Language.blockLink?, stepped]
    rfl
  · rw [sheet_indent, sheet_append, back, Sheet.append_append]

end

/-- What a draft declares where it is written into another one, with a line break behind it. -/
def heading (draft : Draft) (names : Names) (emission : Emission) : String :=
  if (draft.declarations names emission).isEmpty then ""
  else draft.declarations names emission ++ "\n"

theorem wholeLines_heading (draft : Draft) (names : Names) (emission : Emission) :
    WholeLines (draft.heading names emission) := by
  unfold heading
  split
  · exact .empty
  · exact .of_newline _

/-- A plain draft is written into another one with its declarations in front of its text. -/
theorem mergeInto_of_plain {language : Language} {emission : Emission} (names : Names)
    (inner : child.sheet = ⟨language, .plain, 0, text⟩) (headless : emission.headers = false)
    (parent : Draft) :
    ∃ outer, child.mergeInto names emission parent = .ok () outer ∧
      outer.sheet = parent.sheet.append (child.heading names emission ++ text) := by
  have balanced : child.checkBalanced = .ok () := if_pos (congrArg Sheet.depth inner)
  have plain : child.flavor = .plain := congrArg Sheet.flavor inner
  have written : child.text = text := congrArg Sheet.text inner
  unfold mergeInto mergeBody
  rw [balanced, plain, headless, written]
  refine ⟨_, rfl, ?_⟩
  simp only [Bool.false_eq_true, ↓reduceIte]
  have used (draft : Draft) (library : String) : (draft.addLibrary library).sheet = draft.sheet := rfl
  have required (draft : Draft) (header : String) : (draft.addHeader header).sheet = draft.sheet := rfl
  rw [view_foldl used, view_foldl required, sheet_append, heading]
  split
  · rename_i empty
    rw [sheet_append, String.isEmpty_iff.mp empty, Sheet.append_empty, String.empty_append]
  · rw [sheet_append, sheet_append, Sheet.append_append, Sheet.append_append, String.append_assoc]

end Draft

namespace Document

/-- Text was written to the innermost draft. Names may have been declared and headers required. -/
structure Wrote (before after : Document) (text : String) : Prop where
  language : after.language = before.language
  current : after.current.sheet = before.current.sheet.append text
  enclosing : after.enclosing.map Draft.sheet = before.enclosing.map Draft.sheet

variable {before middle after outer inner : Document} {text first second front : String}

theorem Wrote.of_sheets (language : after.language = before.language)
    (sheets : after.drafts.map Draft.sheet = before.drafts.map Draft.sheet) :
    Wrote before after "" := by
  obtain ⟨current, enclosing⟩ := List.cons.inj sheets
  exact ⟨language, by rw [current, Sheet.append_empty], enclosing⟩

theorem Wrote.trans (left : Wrote before middle first) (right : Wrote middle after second) :
    Wrote before after (first ++ second) where
  language := right.language.trans left.language
  current := by rw [right.current, left.current, Sheet.append_append]
  enclosing := right.enclosing.trans left.enclosing

theorem append_wrote (document : Document) (text : String) :
    document.Wrote (document.modifyCurrent (·.append text)) text :=
  ⟨rfl, document.current.sheet_append text, rfl⟩

theorem modifyRoot_wrote {change : Draft → Draft}
    (same : ∀ draft, (change draft).sheet = draft.sheet) (document : Document) :
    document.Wrote (document.modifyRoot change) "" :=
  .of_sheets (modifyRoot_frame change document).1 (map_modifyRoot same document)

theorem withNames_wrote {α : Type} (action : NamingM α) (document : Document) :
    document.Wrote (finalState (withNames action document)) "" := by
  rw [finalState_withNames]
  exact .of_sheets rfl rfl

/-! ## Blocks that are indented -/

/-- The innermost draft is one step deeper. -/
structure Deeper (outer inner : Document) : Prop where
  language : inner.language = outer.language
  current : inner.current.sheet = outer.current.sheet.indent
  enclosing : inner.enclosing.map Draft.sheet = outer.enclosing.map Draft.sheet

theorem indent_deeper (document : Document) :
    document.Deeper (document.modifyCurrent Draft.indent) :=
  ⟨rfl, rfl, rfl⟩

/-- What was written one step deeper was written in lines that are moved to the right. -/
theorem Deeper.dedent (deeper : outer.Deeper inner) (wrote : inner.Wrote after text)
    (whole : WholeLines text) :
    ∃ back, Document.dedent after = .ok () back ∧ outer.Wrote back (onLines 1 text) := by
  have current := wrote.current
  rw [deeper.current] at current
  obtain ⟨draft, stepped, sheet⟩ := Draft.dedent_of_sheet current whole
  exact ⟨{ after with current := draft }, tryCurrent_of_ok stepped,
    wrote.language.trans deeper.language, sheet, wrote.enclosing.trans deeper.enclosing⟩

/-! ## Blocks that are scopes -/

/-- A scope has begun inside the innermost draft, behind a text that opens its block. -/
structure Inside (outer : Document) (front : String) (inner : Document) : Prop where
  language : inner.language = outer.language
  current : inner.current.sheet = ⟨.c, .plain, 0, ""⟩
  enclosing : inner.enclosing.map Draft.sheet =
    (outer.current.sheet.append front).indent :: outer.enclosing.map Draft.sheet

theorem sheet_push (language : outer.language = .c) (extra : List Category) :
    (outer.push extra).current.sheet = ⟨.c, .plain, 0, ""⟩ := by
  change Sheet.mk outer.language (outer.push extra).current.flavor 0 "" = _
  rw [flavor_push language, language]

theorem openScope_inside (language : outer.language = .c) (written : outer.current.language = .c) :
    outer.Inside "\x7b\n" ((outer.modifyCurrent Draft.openBlock).push []) := by
  refine ⟨rfl, sheet_push language [], congrArg (· :: _) ?_⟩
  rw [modifyCurrent, Draft.openBlock, Draft.sheet_indent, Draft.sheet_append, written]
  rfl

/-- What the innermost scope declares where it closes, with a line break behind it. -/
def heading (document : Document) : String :=
  document.current.heading document.names (closing document.policy)

theorem wholeLines_heading (document : Document) : WholeLines document.heading :=
  document.current.wholeLines_heading _ _

/-- The innermost scope is written into the block around it. -/
theorem Inside.merge (inside : outer.Inside front inner) (wrote : inner.Wrote after text) :
    ∃ current enclosing, Document.merge after = .ok () { after with current, enclosing } ∧
      current.sheet = (outer.current.sheet.append front).indent.append (after.heading ++ text) ∧
      enclosing.map Draft.sheet = outer.enclosing.map Draft.sheet := by
  obtain ⟨parent, enclosing, around, sheet, others⟩ :=
    map_eq_cons_iff.mp (wrote.enclosing.trans inside.enclosing)
  have child : after.current.sheet = ⟨.c, .plain, 0, text⟩ := by
    rw [wrote.current, inside.current, Sheet.append, show Draft.indentation 0 = "" from rfl,
      Language.continueLines_eq_self fun _ _ _ => rfl, String.empty_append]
  have headless : (closing after.policy).headers = false := rfl
  obtain ⟨current, merged, written⟩ :=
    Draft.mergeInto_of_plain after.names child headless parent
  exact ⟨current, enclosing, merge_of_mergeInto around merged, by rw [written, sheet]; rfl, others⟩

variable (inside : outer.Inside front inner) (wrote : inner.Wrote after text)
  (whole : WholeLines text) (written : outer.current.language = .c)

include inside wrote whole written

/-- The block of a scope, written at once. -/
theorem Inside.closeScope :
    ∃ closed, Document.closeScope after = .ok () closed ∧
      outer.Wrote closed (front ++ (onLines 1 (after.heading ++ text) ++ "\x7d\n")) := by
  obtain ⟨draft, enclosing, merged, sheet, others⟩ := inside.merge wrote
  obtain ⟨current, closed, back⟩ := Draft.closeBlock_of_sheet sheet
    (after.wholeLines_heading.append whole) written
  refine ⟨{ after with current, enclosing }, ?_, wrote.language.trans inside.language, ?_, others⟩
  · unfold Document.closeScope
    rw [bind_of_eq_ok merged]
    exact tryCurrent_of_ok closed
  · rw [back, Sheet.append_append]

/-- The block of a scope that another one follows. -/
theorem Inside.linkScope (language : outer.language = .c) (transition : String) :
    ∃ linked, Document.linkScope transition after = .ok () linked ∧
      outer.Inside (front ++ (onLines 1 (after.heading ++ text) ++
        ("\x7d " ++ transition ++ " \x7b\n"))) linked := by
  obtain ⟨draft, enclosing, merged, sheet, others⟩ := inside.merge wrote
  obtain ⟨current, linked, back⟩ := Draft.linkBlock_of_sheet sheet
    (after.wholeLines_heading.append whole) written transition
  have same : after.language = .c := (wrote.language.trans inside.language).trans language
  have blocks : after.language ≠ .gappa := by
    rw [same]
    decide
  refine ⟨Document.push { after with current, enclosing } [], ?_,
    wrote.language.trans inside.language, sheet_push same [], congrArg₂ List.cons ?_ others⟩
  · rw [linkScope_eq blocks, bind_of_eq_ok merged,
      bind_of_eq_ok (tryCurrent_of_ok linked)]
    rfl
  · rw [back, Sheet.append_append]

end Document

end Retarget
