import Retarget.Generation.Function
import Retarget.Proofs.Generation.Branching
import Retarget.Proofs.Graph.Bodies
import Retarget.Proofs.Target.Orderly

/-!
# Statements as nested blocks

The body of a function is written as the transcript of its statements is printed, around the lines
that its values write. Afterwards all is as deep as before. A statement fails only where one of its
values does.
-/

namespace Retarget.Generator

open List

variable {job : Job} {base : Graph} {frame : Frame} {values : List NodeId} {before : Generator}

/-- The lines of a value are noted as they are written. -/
theorem noting_alike (appends : job.book.Appends) {id : NodeId} (member : id ∈ values)
    (before : Generator) :
    Alike (Blames job values)
      (fun noted code after => noted.2 = code ∧ before.Wrote after noted.1 ∧ WholeLines noted.1)
      (noting (lowerExpression job id) before) (lowerExpression job id before) := by
  have wrote := (wroteLines_allows appends).lowerExpression id before
  unfold noting
  cases outcome : lowerExpression job id before with
  | error fault after => exact .error ⟨id, member, before, outcome⟩
  | ok code after =>
    rw [outcome] at wrote
    obtain ⟨text, whole, wrote⟩ := wrote
    have noted : before.document.current.since after.document.current = text :=
      Draft.since_eq wrote.document.current
    simp only [noted]
    exact .ok ⟨rfl, wrote, whole⟩

theorem lowerResult_wrote (blocks : job.options.language ≠ .gappa)
    (writable : before.Writable job base frame) (code : String) :
    ∃ text after, lowerResult job.options code before = .ok () after ∧
      Printed job frame before.conditionals [.result code] text ∧ before.Wrote after text ∧
      WholeLines text := by
  unfold lowerResult Printed
  rw [bind_of_eq_ok (get_eq_ok before), writable.framed]
  cases language : job.options.language with
  | gappa => exact absurd language blocks
  | c =>
    obtain ⟨after, done, wrote⟩ := write_wrote before ("return " ++ code ++ ";\n")
    rw [Passage.print_c]
    exact ⟨_, after, done, rfl, wrote, .append_line _ (by decide)⟩
  | vhdl =>
    obtain ⟨after, done, wrote⟩ :=
      write_wrote before (frame.resultName ++ " <= " ++ code ++ ";\n")
    rw [Passage.print_vhdl]
    exact ⟨_, after, done, rfl, wrote, .append_line _ (by decide)⟩

theorem Renders.empty :
    Renders job base frame values (Printed job frame) (pure []) (pure ()) := by
  intro before _
  exact .ok ⟨"", Passage.print_nil.symm, .of_document (.of_sheets rfl rfl) rfl rfl rfl rfl, .empty⟩

/-- What is written for a value stands in front of what is written with its code. -/
theorem transcribeValue_renders (appends : job.book.Appends) {id : NodeId} (member : id ∈ values)
    {recorded : String → GeneratorM (List Passage)} {action : String → GeneratorM Unit}
    (rest : ∀ code,
      Renders job base frame values (Printed job frame) (recorded code) (action code)) :
    Renders job base frame values (Printed job frame)
      (transcribeValue job id recorded) (do action (← lowerExpression job id)) := by
  intro before writable
  refine (noting_alike appends member before).bind ?_
  rintro ⟨lines, code⟩ _ middle ⟨rfl, wrote, whole⟩
  refine (rest code middle (writable.of_wrote wrote)).map ?_
  rintro passages _ after ⟨text, printed, written, whole'⟩
  refine ⟨lines ++ text, ?_, wrote.trans written, whole.append whole'⟩
  rw [wrote.conditionals] at printed
  rw [Printed, Passage.print_lines, printed]

theorem lowerResult_renders (blocks : job.options.language ≠ .gappa) (code : String) :
    Renders job base frame values (Printed job frame)
      (do lowerResult job.options code; return [.result code]) (lowerResult job.options code) := by
  intro before writable
  obtain ⟨text, after, done, written⟩ := lowerResult_wrote blocks writable code
  exact .of_eq_ok (bind_of_eq_ok done) done ⟨text, written⟩

/-- Statements in order are written in order. -/
theorem forM_renders {lower : NodeId → GeneratorM Unit} {ids : List NodeId}
    {parts : List StatementTree}
    (each : List.Forall₂ (fun id (part : StatementTree) =>
      Renders job base frame part.values (Printed job frame) (transcribe job part) (lower id))
      ids parts) :
    Renders job base frame (StatementTree.valuesOf parts) (Printed job frame)
      (transcribeAll job parts) (ids.forM lower) := by
  induction each with
  | nil => exact Renders.empty
  | @cons id part ids parts head _ ih =>
    intro before writable
    have first : Renders job base frame (part.values ++ StatementTree.valuesOf parts) _ _ _ :=
      head.of_subset (subset_append_left ..)
    have others : Renders job base frame (part.values ++ StatementTree.valuesOf parts) _ _ _ :=
      ih.of_subset (subset_append_right ..)
    change Alike _ _ _ ((do lower id; ids.forM lower : GeneratorM Unit) before)
    rw [transcribeAll, StatementTree.valuesOf]
    refine (first before writable).bind ?_
    rintro passages _ middle ⟨text, printed, wrote, whole⟩
    refine (others middle (writable.of_wrote wrote)).map ?_
    rintro rest _ after ⟨text', printed', written, whole'⟩
    refine ⟨text ++ text', ?_, wrote.trans written, whole.append whole'⟩
    rw [wrote.conditionals] at printed'
    rw [Printed, Passage.print_append, printed, printed']

section

variable (appends : job.book.Appends) (blocks : job.options.language ≠ .gappa)

include appends blocks

theorem lowerCondition_renders {lower : NodeId → GeneratorM Unit} {condition yes : NodeId}
    {no? : Option NodeId} {recorded : GeneratorM (List Passage)}
    {other? : Option (GeneratorM (List Passage))} (member : condition ∈ values)
    (first : Renders job base frame values (Printed job frame) recorded (lower yes))
    (second : Option.Rel (fun other no =>
      Renders job base frame values (Printed job frame) other (lower no)) other? no?) :
    Renders job base frame values (Printed job frame)
      (transcribeCondition job condition recorded other?)
      (lowerCondition job lower condition yes no?) := by
  refine transcribeValue_renders appends member fun code before writable => ?_
  cases language : job.options.language with
  | c => exact (conditionC_renders first second language code before writable).map fun _ _ _ => id
  | vhdl =>
    exact (conditionVhdl_renders language first second code before writable).map fun _ _ _ => id
  | gappa => exact absurd language blocks

/-- A statement is written as its transcript is printed. -/
theorem lowerStatement_renders {depth : Nat} {id : NodeId} {tree : StatementTree}
    (found : base.statement? depth id = some tree) :
    Renders job base frame tree.values (Printed job frame) (transcribe job tree)
      (lowerStatement job depth id) := by
  induction depth generalizing id tree with
  | zero => cases found
  | succ depth ih =>
    obtain ⟨inside, statement⟩ := Graph.statement?_succ.mp found
    intro before writable
    -- The graph may have grown since the tree was found, but its statements are the same.
    have operation := writable.grows.operation_eq inside
    have operands := writable.grows.operands_eq inside
    refine .get_bind ?_
    rw [operation, operands]
    cases statement with
    | value notSequence notResult notCondition =>
      have value := transcribeValue_renders appends (mem_singleton_self id)
        (fun _ => Renders.empty) before writable
      rw [transcribe]
      generalize (base.node id).operation = kind at notSequence notResult notCondition ⊢
      cases kind <;> first
        | contradiction
        | exact value
    | result isResult listed =>
      rw [isResult, listed, transcribe]
      exact transcribeValue_renders appends mem_cons_self (lowerResult_renders blocks)
        before writable
    | sequence isSequence each =>
      rw [isSequence, transcribe]
      exact forM_renders (each.imp fun _ _ => ih) before writable
    | guarded isCondition listed first =>
      rw [isCondition, listed, transcribe]
      refine lowerCondition_renders appends blocks mem_cons_self
        ((ih first).of_subset (subset_cons_self ..)) .none before writable
    | choice isCondition listed first second =>
      rw [isCondition, listed, transcribe]
      refine lowerCondition_renders appends blocks mem_cons_self
        ((ih first).of_subset fun _ member => ?_)
        (.some ((ih second).of_subset fun _ member => ?_)) before writable
      · exact mem_cons_of_mem _ (mem_append_left _ member)
      · exact mem_cons_of_mem _ (mem_append_right _ member)

end

/-- The body of a function is written as the transcript of its statements is printed, and all that
it is inside of is as deep afterwards as before, unless the lowering of one of its values fails. -/
theorem lowerBody_renders {depth : Nat} {body : NodeId} {tree : StatementTree}
    {generator : Generator} (appends : job.book.Appends)
    (blocks : job.options.language ≠ .gappa) (framed : generator.frame = some frame)
    (language : generator.document.language = job.options.language)
    (current : generator.document.current.language = job.options.language)
    (found : generator.graph.statement? depth body = some tree) :
    (∃ passages after,
      transcribe job tree generator = .ok passages after ∧
      lowerBody job body generator = .ok () after ∧
      after.document.current.text =
        (generator.document.current.append (Passage.print job.options.language frame.resultName
          (generator.conditionals ≠ 0) passages)).text ∧
      after.document.enclosing.map Draft.text = generator.document.enclosing.map Draft.text ∧
      after.document.current.depth = generator.document.current.depth ∧
      after.document.depth = generator.document.depth ∧
      after.levels.length = generator.levels.length ∧
      after.conditionals = generator.conditionals) ∨
    ∃ value ∈ tree.values, ∃ state fault after,
      lowerExpression job value state = .error fault after ∧
      lowerBody job body generator = .error fault after := by
  have near := Graph.statement?_mono (Nat.le_succ _) (Graph.statement?_size found)
  have renders := lowerStatement_renders appends blocks near generator
    ⟨.refl _, framed, language, current⟩
  change Alike _ _ _ (lowerBody job body generator) at renders
  generalize lowerBody job body generator = lowered at renders ⊢
  generalize transcribe job tree generator = recorded at renders ⊢
  cases renders with
  | error known =>
    obtain ⟨value, member, state, failed⟩ := known
    exact .inr ⟨value, member, state, _, _, failed, rfl⟩
  | @ok passages _ after held =>
    obtain ⟨_, rfl, wrote, _⟩ := held
    have around : after.document.enclosing.map Draft.text =
        generator.document.enclosing.map Draft.text := by
      have sheets := congrArg (List.map Sheet.text) wrote.document.enclosing
      rwa [map_map, map_map] at sheets
    refine .inl ⟨passages, after, rfl, rfl, ?_, around,
      congrArg Sheet.depth wrote.document.current, ?_, ?_, wrote.conditionals⟩
    · exact congrArg Sheet.text
        (wrote.document.current.trans (Draft.sheet_append _ _).symm)
    · have lengths := congrArg List.length around
      rw [length_map, length_map] at lengths
      exact congrArg (· + 1) lengths
    · exact congrArg (·.length + 1) wrote.outerMemos

/-- The body of a function with one conditional inside another one and a third behind them. -/
def alternatives : Graph :=
  ⟨#[{ operation := .variable, format := .logic 8, payload := .variable "a" },
    { operation := .variable, format := .bool, payload := .variable "d" },
    { operation := .variable, format := .bool, payload := .variable "e" },
    { operation := .ret, operands := [0], format := .void },
    { operation := .bitNot, operands := [0], format := .logic 8 },
    { operation := .ret, operands := [4], format := .void },
    { operation := .condition, operands := [2, 3, 5], format := .void },
    { operation := .condition, operands := [1, 6], format := .void },
    { operation := .addition, operands := [0, 4], format := .logic 8 },
    { operation := .ret, operands := [8], format := .void },
    { operation := .condition, operands := [2, 9], format := .void },
    { operation := .sequence, operands := [7, 10], format := .void }]⟩

def hardwareJob : Job := ⟨Hardware.target, Hardware.book, { language := .vhdl }⟩

/-- The state that the body is written from. -/
def beforeAlternatives : Generator :=
  { hardwareJob.start alternatives with
    frame := some ⟨resultName, .logic 8⟩
    uses := alternatives.uses 11 }

theorem lowerBody_renders_alternatives :
    ∃ passages after,
      transcribe hardwareJob
        (.sequence [.guarded 1 (.choice 2 (.result 0) (.result 4)), .guarded 2 (.result 8)])
        beforeAlternatives = .ok passages after ∧
      lowerBody hardwareJob 11 beforeAlternatives = .ok () after ∧
      after.document.current.text = Passage.print .vhdl resultName false passages ∧
      after.document.current.depth = 0 ∧ after.conditionals = 0 := by
  have target : Catalog.builtin.target "vhdl" = .ok Hardware.target := rfl
  have appends : hardwareJob.book.Appends :=
    (Catalog.builtin_orderly target .vhdl Hardware.book rfl).appends
  have framed : beforeAlternatives.frame = some ⟨resultName, .logic 8⟩ := rfl
  have found : beforeAlternatives.graph.statement? 4 11 = some (.sequence
      [.guarded 1 (.choice 2 (.result 0) (.result 4)), .guarded 2 (.result 8)]) := rfl
  have succeeds : (match lowerBody hardwareJob 11 beforeAlternatives with
      | .ok _ _ => true
      | .error _ _ => false) = true := by decide +kernel
  rcases lowerBody_renders appends (by decide) framed rfl rfl found with
    ⟨passages, after, recorded, lowered, printed, _, depth, _, _, counted⟩ |
      ⟨_, _, _, fault, after, _, failed⟩
  · exact ⟨passages, after, recorded, lowered, printed.trans String.empty_append, depth, counted⟩
  · rw [failed] at succeeds
    cases succeeds

end Retarget.Generator
