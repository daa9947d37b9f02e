import Retarget.Proofs.Generation.Lowering
import Retarget.Proofs.Generation.Stepping
import Retarget.Proofs.Target.Orderly

/-!
# Names in scope during generation

Statements open and close scopes and forget the codes of a scope with it, so all codes that are
known at any time are expressed over what may be named there (`Program.generate_inScope`).
-/

namespace Retarget.Generator

variable {job : Job} {before : Generator}

theorem declareEntity_safe (sound : before.Sound job) (category : Category) (name : String)
    (entity : Entity) :
    Safe job (onNames do Naming.declare category name (← Naming.alloc entity)) before
      fun _ after => Leads job before after ∧ after.memo = before.memo :=
  (onNames_safe sound (.bind (Naming.grows_permits.alloc entity) fun id =>
    Naming.declare_grows category name id)).mono fun _ _ done => ⟨done.1, done.2.1⟩

theorem reserveAll_safe (sound : before.Sound job) (arguments : List Argument) :
    Safe job (arguments.forM fun argument => reserve argument.name argument.format) before
      fun _ after => Leads job before after := by
  refine .forM (fun argument _ state reached => ?_) sound.leads
  exact (declareEntity_safe reached.sound _ _ _).mono fun _ _ done => reached.trans done.1

/-- Statements that are safe wherever they begin are safe as the branches of a conditional. -/
theorem lowerConditionC_safe {lower : NodeId → GeneratorM Unit}
    (branch : ∀ id {state : Generator}, state.Sound job →
      Safe job (lower id) state fun _ after => Leads job state after)
    (sound : before.Sound job) {id : NodeId} {condition : String}
    (expresses : before.Expresses job id condition) (yes : NodeId) (no : Option NodeId) :
    Safe job (lowerConditionC lower condition yes no) before fun _ after =>
      Leads job before after := by
  refine (write_safe sound (.condition expresses)).bind ?_
  rintro _ state ⟨leads, _⟩
  refine (openScope_safe leads.sound).bind fun _ opened inside => ?_
  refine (branch yes inside.sound).bind fun _ first reached => ?_
  have within := inside.trans reached
  have second : Safe job (lowerElseC lower no) first fun _ after => Inside job state after := by
    cases no with
    | none => exact .pure within
    | some no =>
      refine (linkScope_safe within "else").bind fun _ linked beside => ?_
      exact (branch no beside.sound).mono fun _ _ onward => beside.trans onward
  refine second.bind fun _ last remains => ?_
  exact (closeScope_safe remains).mono fun _ _ closed => leads.trans closed.1

section Statements

variable (language : job.options.language = .c) (orderly : job.book.Orderly)

include language

theorem lowerResult_safe (sound : before.Sound job) {id : NodeId} {code : String}
    (expresses : before.Expresses job id code) :
    Safe job (lowerResult job.options code) before fun _ after => Leads job before after := by
  refine .get_bind ?_
  cases before.frame with
  | none => exact .throw _
  | some frame =>
    simp only [language]
    exact (write_safe sound (.result expresses)).mono fun _ _ written => written.1

include orderly

theorem lowerCondition_safe {lower : NodeId → GeneratorM Unit}
    (branch : ∀ id {state : Generator}, state.Sound job →
      Safe job (lower id) state fun _ after => Leads job state after)
    (sound : before.Sound job) (condition yes : NodeId) (no : Option NodeId) :
    Safe job (lowerCondition job lower condition yes no) before fun _ after =>
      Leads job before after := by
  refine (lowerExpression_safe sound language orderly condition).bind ?_
  rintro code state ⟨leads, expresses⟩
  simp only [language]
  exact (lowerConditionC_safe branch leads.sound expresses yes no).mono
    fun _ _ onward => leads.trans onward

theorem lowerStatement_safe (depth : Nat) : ∀ (id : NodeId) {before : Generator},
    before.Sound job →
    Safe job (lowerStatement job depth id) before fun _ after => Leads job before after := by
  induction depth with
  | zero => exact fun _ _ _ => .throw _
  | succ depth ih =>
    intro id before sound
    refine .get_bind ?_
    dsimp only
    split
    · refine .forM (fun operand _ state leads => ?_) sound.leads
      exact (ih operand leads.sound).mono fun _ _ onward => leads.trans onward
    · split
      · exact .throw _
      · refine (lowerExpression_safe sound language orderly _).bind ?_
        rintro code state ⟨leads, expresses⟩
        exact (lowerResult_safe language leads.sound expresses).mono
          fun _ _ onward => leads.trans onward
    · split
      · exact lowerCondition_safe language orderly ih sound _ _ _
      · exact lowerCondition_safe language orderly ih sound _ _ _
      · exact .throw _
    · change Safe job (lowerExpression job id >>= fun _ => Pure.pure ()) before _
      refine (lowerExpression_safe sound language orderly id).bind ?_
      rintro code state ⟨leads, _⟩
      exact .pure leads

theorem generateC_safe (sound : before.Sound job) (function : Function) :
    Safe job (generateC job function) before fun _ after =>
      Leads job before after ∧ after.memo = before.memo := by
  refine (onDocument_safe sound (.header _) (Document.addHeader_advances _)).bind ?_
  rintro _ headed ⟨leads, document, _, rfl⟩
  refine (declareEntity_safe leads.sound _ _ _).bind ?_
  rintro _ named ⟨leads₁, memo₁⟩
  refine (write_safe leads₁.sound (.head function)).bind ?_
  rintro _ begun ⟨leads₂, memo₂, _⟩
  refine (openScope_safe leads₂.sound).bind fun _ opened inside => ?_
  refine (reserveAll_safe inside.sound function.arguments).bind fun _ reserved reached => ?_
  have framed : Leads job reserved { reserved with frame := some ⟨"", function.result⟩ } :=
    reached.sound.advance (.refl _) (.refl _) rfl rfl
  refine .bind (modify_safe (fun _ => rfl) framed) ?_
  rintro _ _ ⟨framed, rfl⟩
  have body := lowerStatement_safe language orderly (reserved.graph.size + 1) function.body
    framed.sound
  refine (Safe.get_bind body).bind fun _ lowered onward => ?_
  refine (closeScope_safe (inside.trans (reached.trans (framed.trans onward)))).bind ?_
  rintro _ closed ⟨leads₃, memo₃⟩
  refine (write_safe leads₃.sound .blank).mono ?_
  rintro _ after ⟨leads₄, memo₄, _⟩
  refine ⟨leads.trans (leads₁.trans (leads₂.trans (leads₃.trans leads₄))), ?_⟩
  rw [memo₄, memo₃, memo₂, memo₁]

end Statements

/-- A state between two functions, when no code is known. -/
structure Between (job : Job) (generator : Generator) : Prop where
  sound : generator.Sound job
  memo : generator.memo = OrderedMap.empty
  outer : generator.outerMemos = []

theorem Between.of_document {after : Generator} (between : before.Between job)
    (document : after.document = before.document) (memo : after.memo = OrderedMap.empty)
    (outer : after.outerMemos = []) : after.Between job := by
  obtain ⟨⟨inScope, language, nested, plain, flat, deeper⟩, memo', outer'⟩ := between
  rw [← document] at language nested plain flat deeper
  refine ⟨⟨?_, language, nested, plain, flat, deeper⟩, memo, outer⟩
  have single := inScope.length
  rw [levels, memo', outer'] at single
  unfold InScope
  rw [levels, memo, outer, document]
  exact .fresh single.symm

/-- Records may change in any way between two functions. -/
theorem Between.records {α : Type} (between : before.Between job)
    {change : Generator → α × Generator}
    (same : ∀ generator, (change generator).2.document = generator.document)
    (memo : (change before).2.memo = OrderedMap.empty) (outer : (change before).2.outerMemos = []) :
    Safe job (modifyGet change) before fun _ after => after.Between job := by
  have kept : (change before).2.Between job := between.of_document (same before) memo outer
  refine ⟨.step (.records change same) ?_, ?_⟩
  · rintro _ _ ⟨⟩
    exact kept.sound.inScope
  · rintro _ _ ⟨⟩
    exact kept

theorem promote_safe (between : before.Between job) (function : Function) :
    Safe job (promote job function) before fun _ after => after.Between job := by
  -- Promotion changes nodes, so no code of theirs may be known.
  unfold promote
  by_cases asked : job.options.promoteRegisters
  · simp only [asked, ↓reduceIte]
    refine Safe.bind (between.records (fun _ => rfl) between.memo between.outer) ?_
    intro count state reached
    exact reached.records (fun _ => rfl) reached.memo reached.outer
  · simp only [asked]
    exact .pure between

/-- Between two functions no code is known, whatever they are. -/
theorem generateFunction_safe (language : job.options.language = .c) (orderly : job.book.Orderly)
    (between : before.Between job) (function : Function) :
    Safe job (generateFunction job function) before fun _ after => after.Between job := by
  refine Safe.bind (between.records (fun _ => rfl) between.memo between.outer)
    fun _ started between => ?_
  refine (promote_safe between function).bind fun _ promoted between => ?_
  refine Safe.bind (between.records (fun _ => rfl) rfl rfl) fun _ counted between => ?_
  refine .get_bind ?_
  have written : Safe job (writeFunction job function) counted fun _ after =>
      after.Between job := by
    unfold writeFunction
    simp only [language]
    refine (generateC_safe language orderly between.sound function).mono ?_
    rintro _ after ⟨leads, memo⟩
    exact ⟨leads.sound, memo.trans between.memo, leads.evolves.outer.trans between.outer⟩
  refine written.bind fun _ finished between => ?_
  refine Safe.bind (between.records (fun _ => rfl) between.memo between.outer)
    fun _ unframed between => ?_
  exact .get_bind (between.records (fun _ => rfl) between.memo between.outer)

theorem create_sound (job : Job) (graph : Graph) (policy : SharingPolicy) :
    ({ graph, document := Document.create .c policy } : Generator).Sound job where
  inScope := .fresh rfl
  language := rfl
  nested := Document.create_wellNested .c policy
  plain := List.forall_mem_singleton.mpr rfl
  flat := rfl
  deeper _ member := by cases member

theorem start_between (job : Job) (language : job.options.language = .c) (graph : Graph) :
    (job.start graph).Between job := by
  have created := create_sound job graph job.options.sharing
  rw [← language] at created
  have headed : (Document.create job.options.language job.options.sharing).Advances
      (job.start graph).document := by
    obtain ⟨headers, libraries, comments, same⟩ := job.start_document graph
    rw [same]
    refine Document.modifyRoot_advances (fun _ => ?_) (fun _ => ?_) _
    · rfl
    · exact ⟨⟨rfl, fun _ _ => id⟩, rfl, rfl⟩
  exact ⟨(created.advance headed (.refl _) rfl rfl).sound, rfl, rfl⟩

end Retarget.Generator

namespace Retarget

open Generator in
/-- Whatever program is generated as C code for a target that comes with the library, and whatever
the options: before the first step and after each one, every open scope has one memo, and each
code in it names only constants, tables and temporaries that are declared in that scope or around
it, the temporaries being assigned there. And every statement that is written names only such. -/
theorem Program.generate_inScope {name : String} {target : Target} {options : Options} {job : Job}
    (found : Catalog.builtin.target name = .ok target) (language : options.language = .c)
    (planned : target.job options = .ok job) (program : Program) :
    (job.start program.graph).InScope job ∧
      Passes job (InScope job) (program.functions.forM (generateFunction job))
        (job.start program.graph) := by
  obtain ⟨book, known, rfl⟩ := Target.job_eq_ok.mp planned
  have orderly := Catalog.builtin_orderly found options.language book known
  have start := start_between { target, book, options } language program.graph
  have safe := Safe.forM (fun function (_ : function ∈ program.functions) _ between =>
    generateFunction_safe language orderly between function) start
  exact ⟨start.sound.inScope, safe.passes⟩

/-- A function with a value that is shared by the condition and the branches of a conditional. -/
def Program.branching : Program where
  graph :=
    ⟨#[{ operation := .variable, format := .binary32, payload := .variable "x" },
      { operation := .addition, operands := [0, 0], format := .binary32 },
      { operation := .comparison, specifier := .less, operands := [1, 0], format := .bool },
      { operation := .multiplication, operands := [1, 1], format := .binary32 },
      { operation := .ret, operands := [3], format := .void },
      { operation := .ret, operands := [1], format := .void },
      { operation := .condition, operands := [2, 4, 5], format := .void }]⟩
  functions :=
    [{ name := "f"
       arguments := [{ name := "x", format := .binary32, node := 0 }]
       result := .binary32
       body := 6 }]

open Generator in
theorem Program.branching_inScope :
    ∃ job, Portable.target.job {} = .ok job ∧
      (branching.generate Portable.target {}).code.toOption = some
        ("#include <stdint.h>\n\n\nfloat f(float x);\n\n" ++
          "float f(float x) \x7b\n    float tmp;\n    \n" ++
          "    tmp = (x + x);\n    if ((tmp < x)) \x7b\n        return (tmp * tmp);\n" ++
          "    \x7d else \x7b\n        return tmp;\n    \x7d\n\x7d\n\n") ∧
      (job.start branching.graph).InScope job ∧
      Passes job (InScope job) (branching.functions.forM (generateFunction job))
        (job.start branching.graph) := by
  have found : Catalog.builtin.target "generic" = .ok Portable.target := rfl
  have planned : Portable.target.job {} = .ok ⟨Portable.target, Portable.book, {}⟩ := rfl
  exact ⟨_, planned, by decide +kernel, generate_inScope found rfl planned branching⟩

end Retarget
