import Retarget.Generation.Statement
import Retarget.Proofs.Generation.Stepping
import Retarget.Proofs.Graph.Trees
import Retarget.Proofs.Output.Sheets
import Retarget.Proofs.Rule.Orderly
import Retarget.Proofs.State.Alike

/-!
# What is written for statements

A statement is written around the lines that its values write. The transcript of a tree of
statements is that tree with these lines in it (`Generator.transcribe`), and it is printed as nested
blocks (`Passage.print`).
-/

namespace Retarget

open List

/-- A part of what was written for a statement. The declarations of a scope stand at its head. -/
inductive Passage where
  /-- What the lowering of a value writes. -/
  | lines (text : String)
  | result (code : String)
  | guarded (condition head : String) (body : List Passage)
  | choice (condition head : String) (yes : List Passage) (otherHead : String) (no : List Passage)

namespace Passage

mutual

/-- A passage in C. -/
def printC : Passage → String
  | .lines text => text
  | .result code => "return " ++ code ++ ";\n"
  | .guarded condition head body =>
    "if (" ++ condition ++ ") \x7b\n" ++ onLines 1 (head ++ printAllC body) ++ "\x7d\n"
  | .choice condition head yes otherHead no =>
    "if (" ++ condition ++ ") \x7b\n" ++ onLines 1 (head ++ printAllC yes) ++
      "\x7d else \x7b\n" ++ onLines 1 (otherHead ++ printAllC no) ++ "\x7d\n"

/-- Passages in C, in order. -/
def printAllC : List Passage → String
  | [] => ""
  | passage :: rest => passage.printC ++ printAllC rest

end

/-- A conditional in hardware. One that is not nested in another stands in a process. -/
def inProcess (nested : Bool) (text : String) : String :=
  if nested then text else "process(all)\nbegin\n" ++ onLines 1 text ++ "end process;\n"

mutual

/-- A passage in hardware, where the result goes to a signal. -/
def printVhdl (result : String) (nested : Bool) : Passage → String
  | .lines text => text
  | .result code => result ++ " <= " ++ code ++ ";\n"
  | .guarded condition _ body =>
    inProcess nested ("if " ++ condition ++ " = '1' then\n" ++
      onLines 1 (printAllVhdl result true body) ++ "end if;\n")
  | .choice condition _ yes _ no =>
    inProcess nested ("if " ++ condition ++ " = '1' then\n" ++
      onLines 1 (printAllVhdl result true yes) ++ "else\n" ++
      onLines 1 (printAllVhdl result true no) ++ "end if;\n")

/-- Passages in hardware, in order. -/
def printAllVhdl (result : String) (nested : Bool) : List Passage → String
  | [] => ""
  | passage :: rest => passage.printVhdl result nested ++ printAllVhdl result nested rest

end

/-- Passages in a language with blocks. -/
def print (language : Language) (result : String) (nested : Bool) (passages : List Passage) :
    String :=
  match language with
  | .vhdl => printAllVhdl result nested passages
  | _ => printAllC passages

variable {language : Language} {result : String} {nested : Bool}

theorem print_nil : print language result nested [] = "" := by
  cases language <;> rfl

theorem print_lines (text : String) (rest : List Passage) :
    print language result nested (.lines text :: rest) =
      text ++ print language result nested rest := by
  cases language <;> rfl

theorem print_c (passage : Passage) : print .c result nested [passage] = passage.printC :=
  String.append_empty

theorem print_vhdl (passage : Passage) :
    print .vhdl result nested [passage] = passage.printVhdl result nested :=
  String.append_empty

theorem print_cons (passage : Passage) (rest : List Passage) :
    print language result nested (passage :: rest) =
      print language result nested [passage] ++ print language result nested rest := by
  cases language <;> simp [print, printAllC, printAllVhdl]

theorem print_append (first second : List Passage) :
    print language result nested (first ++ second) =
      print language result nested first ++ print language result nested second := by
  induction first with
  | nil => rw [nil_append, print_nil, String.empty_append]
  | cons passage rest ih =>
    rw [cons_append, print_cons, ih, print_cons passage rest, String.append_assoc]

end Passage

namespace Lines

/-- The text without the given number of characters at the start of every line but the first. -/
def outdent (width : Nat) : Nat → List Char → List Char
  | _, [] => []
  | 0, c :: rest => c :: outdent width (if c = '\n' then width else 0) rest
  | skipped + 1, _ :: rest => outdent width skipped rest

theorem outdent_replicate (width skipped : Nat) (rest : List Char) :
    outdent width skipped (List.replicate skipped ' ' ++ rest) = outdent width 0 rest := by
  induction skipped with
  | zero => rfl
  | succ skipped ih => exact ih

theorem outdent_flatMap (width : Nat) (text : List Char) :
    outdent width 0 (text.flatMap fun c =>
      if c = '\n' then '\n' :: List.replicate width ' ' else [c]) = text := by
  induction text with
  | nil => rfl
  | cons c rest ih =>
    rw [flatMap_cons]
    split
    · rename_i broken
      rw [cons_append, outdent, if_pos rfl, outdent_replicate, ih, broken]
    · rename_i unbroken
      rw [singleton_append, outdent, if_neg unbroken, ih]

end Lines

/-- What was written in a draft since it was as given, without the margin of its blocks. -/
def Draft.since (before after : Draft) : String :=
  String.ofList (Lines.outdent (4 * before.depth) 0
    (after.text.toList.drop before.text.toList.length))

theorem Draft.since_eq {before after : Draft} {text : String}
    (wrote : after.sheet = before.sheet.append text) : before.since after = text := by
  have written : after.text = before.text ++
      Language.continueLines (indentation before.depth) text := congrArg Sheet.text wrote
  unfold since
  rw [written, String.toList_append, drop_left, Language.continueLines, indentation,
    String.toList_ofList, String.toList_ofList, Lines.outdent_flatMap, String.ofList_toList]

namespace Generator

/-- Does an action and gives what it wrote besides. -/
def noting {α : Type} (action : GeneratorM α) : GeneratorM (String × α) := fun before =>
  match action before with
  | .ok value after =>
    .ok (before.document.current.since after.document.current, value) after
  | .error fault after => .error fault after

/-- A conditional in C. -/
def transcribeC (condition : String) (yes : GeneratorM (List Passage))
    (no : Option (GeneratorM (List Passage))) : GeneratorM Passage := do
  write ("if (" ++ condition ++ ") ")
  openScope
  let body ← yes
  let head := (← get).document.heading
  match no with
  | none =>
    closeScope
    return .guarded condition head body
  | some no => do
    linkScope "else"
    let other ← no
    let otherHead := (← get).document.heading
    closeScope
    return .choice condition head body otherHead other

section

variable {α : Type} (action : GeneratorM α)

/-- Does an action one step deeper. -/
def indented : GeneratorM α := do
  onDocument Document.indent
  let value ← action
  onDocument Document.dedent
  return value

/-- Does an action and forgets the code of its nodes. -/
def forgetting : GeneratorM α := do
  pushMemo
  let value ← action
  popMemo
  return value

/-- Does an action inside one more conditional. -/
def nested : GeneratorM α := do
  modify fun generator => { generator with conditionals := generator.conditionals + 1 }
  let value ← action
  modify fun generator => { generator with conditionals := generator.conditionals - 1 }
  return value

end

/-- The branches of a conditional in hardware. -/
def transcribeSides (condition : String) (yes : GeneratorM (List Passage))
    (no : Option (GeneratorM (List Passage))) : GeneratorM Passage := do
  write ("if " ++ condition ++ " = '1' then\n")
  let body ← indented (forgetting yes)
  match no with
  | none =>
    write "end if;\n"
    return .guarded condition "" body
  | some no => do
    write "else\n"
    let other ← indented (forgetting no)
    write "end if;\n"
    return .choice condition "" body "" other

/-- A conditional in hardware. -/
def transcribeVhdl (condition : String) (yes : GeneratorM (List Passage))
    (no : Option (GeneratorM (List Passage))) : GeneratorM Passage := do
  if (← get).conditionals = 0 then
    write "process(all)\nbegin\n"
    let passage ← indented (nested (transcribeSides condition yes no))
    write "end process;\n"
    return passage
  else nested (transcribeSides condition yes no)

/-- Lowers a value and goes on with its code. -/
def transcribeValue (job : Job) (id : NodeId) (next : String → GeneratorM (List Passage)) :
    GeneratorM (List Passage) := do
  let (lines, code) ← noting (lowerExpression job id)
  return .lines lines :: (← next code)

/-- A conditional with one branch or with two. -/
def transcribeCondition (job : Job) (condition : NodeId) (yes : GeneratorM (List Passage))
    (no : Option (GeneratorM (List Passage))) : GeneratorM (List Passage) :=
  transcribeValue job condition fun code =>
    match job.options.language with
    | .c => return [← transcribeC code yes no]
    | .vhdl => return [← transcribeVhdl code yes no]
    | .gappa => throw (.graph .cannotBranch)

mutual

/-- Writes a tree of statements and gives what was written. -/
def transcribe (job : Job) : StatementTree → GeneratorM (List Passage)
  | .value id => transcribeValue job id fun _ => return []
  | .result id =>
    transcribeValue job id fun code => do
      lowerResult job.options code
      return [.result code]
  | .sequence parts => transcribeAll job parts
  | .guarded condition body => transcribeCondition job condition (transcribe job body) none
  | .choice condition yes no =>
    transcribeCondition job condition (transcribe job yes) (some (transcribe job no))

/-- Writes statements in order and gives what was written. -/
def transcribeAll (job : Job) : List StatementTree → GeneratorM (List Passage)
  | [] => return []
  | part :: rest => do
    let first ← transcribe job part
    let others ← transcribeAll job rest
    return first ++ others

end

/-- Text was written to the innermost draft, and all that statements are inside of is as before. -/
structure Wrote (before after : Generator) (text : String) : Prop where
  graph : before.graph.Grows after.graph
  document : before.document.Wrote after.document text
  outerMemos : after.outerMemos = before.outerMemos
  conditionals : after.conditionals = before.conditionals
  frame : after.frame = before.frame

variable {before middle after : Generator} {first second text : String}

theorem Wrote.of_document (document : before.document.Wrote after.document text)
    (graph : after.graph = before.graph) (outerMemos : after.outerMemos = before.outerMemos)
    (conditionals : after.conditionals = before.conditionals)
    (frame : after.frame = before.frame) : before.Wrote after text :=
  ⟨graph ▸ .refl _, document, outerMemos, conditionals, frame⟩

theorem Wrote.trans (left : before.Wrote middle first) (right : middle.Wrote after second) :
    before.Wrote after (first ++ second) where
  graph := left.graph.trans right.graph
  document := left.document.trans right.document
  outerMemos := right.outerMemos.trans left.outerMemos
  conditionals := right.conditionals.trans left.conditionals
  frame := right.frame.trans left.frame

theorem write_wrote (generator : Generator) (text : String) :
    ∃ after, write text generator = .ok () after ∧ generator.Wrote after text :=
  ⟨_, rfl, .of_document (generator.document.append_wrote text) rfl rfl rfl rfl⟩

/-- Whole lines were written to the innermost draft. -/
def WroteLines (before after : Generator) : Prop :=
  ∃ text, WholeLines text ∧ before.Wrote after text

namespace WroteLines

theorem of_unwritten (document : before.document.Wrote after.document "")
    (graph : before.graph.Grows after.graph) (outerMemos : after.outerMemos = before.outerMemos)
    (conditionals : after.conditionals = before.conditionals)
    (frame : after.frame = before.frame) : WroteLines before after :=
  ⟨"", .empty, graph, document, outerMemos, conditionals, frame⟩

instance : Std.Refl WroteLines :=
  ⟨fun _ => .of_unwritten (.of_sheets rfl rfl) (.refl _) rfl rfl rfl⟩

instance : IsTrans Generator WroteLines where
  trans := by
    rintro _ _ _ ⟨first, whole, left⟩ ⟨second, whole', right⟩
    exact ⟨first ++ second, whole.append whole', left.trans right⟩

end WroteLines

theorem onDocument_wroteLines {α : Type} {action : DocumentM α}
    (wrote : ∀ document : Document, document.Wrote (finalState (action document)) "") :
    Changes WroteLines (onDocument action) := by
  intro generator
  rw [finalState_onDocument]
  exact .of_unwritten (wrote generator.document) (.refl _) rfl rfl rfl

/-- Lowering a value writes whole lines, in the block that it begins in. -/
theorem wroteLines_allows {job : Job} (appends : job.book.Appends) : Allows job WroteLines where
  records _ _ _ := .of_unwritten (.of_sheets rfl rfl) (.refl _) rfl rfl rfl
  memos _ _ _ := .of_unwritten (.of_sheets rfl rfl) (.refl _) rfl rfl rfl
  replaces lowered := .of_unwritten (.of_sheets rfl rfl) (appends.grows lowered) rfl rfl rfl
  header _ := onDocument_wroteLines (Document.modifyRoot_wrote fun _ => rfl)
  library _ := onDocument_wroteLines (Document.modifyRoot_wrote fun _ => rfl)
  alloc _ := onDocument_wroteLines (Document.withNames_wrote _)
  temporary _ _ := onDocument_wroteLines fun document => Document.withNames_wrote _ document
  constant _ _ _ := onDocument_wroteLines (Document.withNames_wrote _)
  table _ _ := onDocument_wroteLines (Document.withNames_wrote _)
  writes text whole generator := by
    obtain ⟨after, done, wrote⟩ := write_wrote generator text
    rw [done]
    exact ⟨text, whole, wrote⟩

end Generator

end Retarget
