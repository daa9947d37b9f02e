import Retarget.Proofs.Generation.Statements
import Retarget.Proofs.Generation.Stepping
import Retarget.Proofs.Source.Bodies

/-!
# How generation fails

A program that is read from a text is generated for a target of the library, or generation fails in
one of a few ways: some value has no rule, a name that the text gives is taken, or a conditional
stands in a program that becomes a verification script.
-/

namespace Retarget

variable {program : Program}

/-- A function of the program or an argument of one has the name. -/
def Program.Gives (program : Program) (name : String) : Prop :=
  ∃ function ∈ program.functions,
    name = function.name ∨ ∃ argument ∈ function.arguments, name = argument.name

/-- The ways in which generation may fail. -/
inductive Fault.Expected (program : Program) (language : Language) : Fault → Prop where
  /-- No rule is for the operation of some value. -/
  | unsupported (operation : Operation) (specifier : Option Specifier) (tag : Option String) :
      Expected program language (.unsupported operation specifier tag)
  /-- No rule is for the formats of some value. -/
  | noMatchingRule (operation : Operation) (specifier : Specifier) (operands : List Format)
      (result : Format) (tag : Option String) :
      Expected program language (.noMatchingRule operation specifier operands result tag)
  /-- A name of the program is taken. In verification scripts no name is refused. -/
  | nameCollision {name : String} (category : Category) (declares : language ≠ .gappa)
      (given : program.Gives name) : Expected program language (.nameCollision name category)
  /-- The name of the result of a hardware entity is taken. -/
  | resultCollision (category : Category) (hardware : language = .vhdl) :
      Expected program language (.nameCollision "vr_out" category)
  /-- A program with a conditional becomes no verification script. -/
  | cannotBranch (verification : language = .gappa) (branches : program.graph.Branches) :
      Expected program language (.graph .cannotBranch)

theorem Fault.IsUnmatched.expected {language : Language} {fault : Fault}
    (unmatched : fault.IsUnmatched) : fault.Expected program language := by
  cases fault <;> first
    | exact unmatched.elim
    | exact .unsupported _ _ _
    | exact .noMatchingRule _ _ _ _ _

/-- The faults that any program may end in, whatever rules there are: those of its names, and of
conditionals in verification scripts. -/
structure Fault.Tolerated (program : Program) (language : Language) (expected : Fault → Prop) :
    Prop where
  collision : language ≠ .gappa → ∀ name, program.Gives name → ∀ holder,
    expected (.nameCollision name holder)
  resultCollision : language = .vhdl → ∀ holder, expected (.nameCollision "vr_out" holder)
  cannotBranch : language = .gappa → program.graph.Branches → expected (.graph .cannotBranch)

theorem Fault.Expected.tolerated (program : Program) (language : Language) :
    Fault.Tolerated program language (Fault.Expected program language) where
  collision declares _ given holder := .nameCollision holder declares given
  resultCollision hardware holder := .resultCollision holder hardware
  cannotBranch := .cannotBranch

/-- The graph that the values of a function are lowered in. -/
def Job.promoted (job : Job) (function : Function) (graph : Graph) : Graph :=
  if job.options.promoteRegisters then
    (graph.promote function.body job.target.promotions job.book).1
  else graph

namespace Generator

section

variable {job : Job} {graph : Graph} {frame : Option Frame} {depth : Nat} {depths : List Nat}
  {before : Generator} {expected : Fault → Prop}

/-- A new entity is declared where the name is free. -/
theorem claim_ends (ready : before.Ready job graph frame depths) (category : Category)
    (name : String) (entity : Entity)
    (taken : before.document.current.scope.isFree before.document.names.tables name = false →
      ∀ holder, expected (.nameCollision name holder)) :
    Ends expected (onNames do Naming.declare category name (← Naming.alloc entity)) before
      fun _ after => after.Ready job graph frame depths := by
  refine onDocument_ends ready ((ready.balanced.claim_ends category name entity).weaken ?_)
  rintro fault ⟨held, holder, rfl⟩
  exact taken held holder

theorem reserveAll_ends {α : Type} {values : List α} {name : α → String} {format : α → Format}
    (taken : ∀ value ∈ values, ∀ holder, expected (.nameCollision (name value) holder))
    (ready : before.Ready job graph frame depths) :
    Ends expected (values.forM fun value => reserve (name value) (format value)) before
      fun _ after => after.Ready job graph frame depths :=
  .forM_of_mem (fun value member _ ready =>
    claim_ends ready .reserved (name value) _ fun _ => taken value member) ready

section

variable (ready : before.Ready job graph frame depths)

include ready

theorem addObligation_ends (change : Obligations → Obligations) :
    Ends expected (onDocument (modify (·.modifyRoot (·.modifyObligations change)))) before
      fun _ after => after.Ready job graph frame depths :=
  onDocument_ends ready (ready.balanced.modifyRoot_ends
    (fun draft => draft.scope_modifyObligations change)
    fun draft => draft.level_modifyObligations change)

theorem assumeRange_ends (argument : Argument) :
    Ends expected
      (do
        if let some (low, high) := argument.range then
          onDocument (modify (·.modifyRoot (·.modifyObligations
            (·.addHypothesis ⟨argument.name, argument.format⟩ (.interval low high))))))
      before fun _ after => after.Ready job graph frame depths := by
  split
  · exact addObligation_ends ready _
  · exact .pure ready

theorem assumeArgument_ends (argument : Argument) :
    Ends expected (assumeArgument argument) before fun _ after =>
      after.Ready job graph frame depths := by
  refine .get_bind ?_
  dsimp only
  split
  · rename_i free
    refine (claim_ends ready .reserved argument.name _ fun taken => ?_).bind ?_
    · rw [free] at taken
      cases taken
    · exact fun _ _ ready => assumeRange_ends ready argument
  · exact assumeRange_ends ready argument

end

theorem writeEntity_ends (ready : before.Ready job graph frame (depth :: depths)) (name : String)
    (pins : List Pin) :
    Ends expected (writeEntity name pins) before fun _ after =>
      after.Ready job graph frame (depth :: depths) := by
  refine (write_ends ready _).bind fun _ _ ready => ?_
  refine (indent_ends ready).bind fun _ _ ready => ?_
  refine (write_ends ready _).bind fun _ _ ready => ?_
  refine (indent_ends ready).bind fun _ _ ready => ?_
  refine (write_ends ready _).bind fun _ _ ready => ?_
  refine (write_ends ready _).bind fun _ _ ready => ?_
  refine (dedent_ends ready).bind fun _ _ ready => ?_
  refine (write_ends ready _).bind fun _ _ ready => ?_
  exact (dedent_ends ready).bind fun _ _ ready => write_ends ready _

/-- The function under generation changes. -/
theorem Ready.enter (ready : before.Ready job graph frame depths) (other : Option Frame) :
    Ready job graph other depths { before with frame := other } :=
  ⟨ready.grows, rfl, ready.balanced, ready.tables⟩

end

section

variable {job : Job} {program : Program} {function : Function} {graph : Graph} {before : Generator}
  {expected : Fault → Prop} (appends : job.book.Appends) (tame : job.book.Tame)
  (tolerated : Fault.Tolerated program job.options.language expected)
  (known : function ∈ program.functions)
  (statement : graph.Statement program.graph.Branches function.body)
  (refuses : graph.RefusesFrom expected job.book function.body)
  (ready : before.Ready job graph none [0])

include tolerated known in
theorem expected_nameCollision (declares : job.options.language ∈ [.c, .vhdl]) (name : String)
    (given : name = function.name ∨ ∃ argument ∈ function.arguments, name = argument.name)
    (holder : Category) : expected (.nameCollision name holder) := by
  refine tolerated.collision (fun gappa => ?_) name ⟨function, known, given⟩ holder
  simp [gappa] at declares

include appends tame tolerated known statement refuses ready

theorem generateC_ends (language : job.options.language = .c) :
    Ends expected (generateC job function) before
      fun _ after => ∃ frame, after.Ready job graph frame [0] := by
  have collision := expected_nameCollision tolerated known (by simp [language])
  refine (onDocument_ends ready (ready.balanced.modifyRoot_ends (·.scope_addHeader _)
    (·.level_addHeader _))).bind fun _ _ ready => ?_
  refine (claim_ends ready .function function.name _ fun _ => collision _ (.inl rfl)).bind ?_
  intro _ _ ready
  refine (write_ends ready _).bind fun _ _ ready => ?_
  refine (openScope_ends ready).bind fun _ _ ready => ?_
  refine (reserveAll_ends (fun argument member => collision _ (.inr ⟨argument, member, rfl⟩))
    ready).bind fun _ _ ready => ?_
  refine .modify_bind ((lowerBody_ends appends tame tolerated.cannotBranch statement refuses
    _ _ _ (ready.enter _)).bind fun _ _ ready => ?_)
  refine (closeScope_ends ready).bind fun _ _ ready => ?_
  exact (write_ends ready _).mono fun _ _ ready => ⟨_, ready⟩

theorem generateVhdl_ends (language : job.options.language = .vhdl) :
    Ends expected (generateVhdl job function) before
      fun _ after => ∃ frame, after.Ready job graph frame [0] := by
  have collision := expected_nameCollision tolerated known (by simp [language])
  have pinned : ∀ pin ∈ pins function, ∀ holder,
      expected (.nameCollision pin.name holder) := by
    refine List.forall_mem_append.mpr ⟨List.forall_mem_map.mpr fun argument given =>
      collision _ (.inr ⟨argument, given, rfl⟩), List.forall_mem_singleton.mpr ?_⟩
    exact tolerated.resultCollision language
  refine (claim_ends ready .reserved function.name _ fun _ => collision _ (.inl rfl)).bind ?_
  intro _ _ ready
  refine (writeEntity_ends ready _ _).bind fun _ _ ready => ?_
  refine (write_ends ready _).bind fun _ _ ready => ?_
  refine (openScope_ends ready).bind fun _ _ ready => ?_
  refine (reserveAll_ends pinned ready).bind fun _ _ ready => ?_
  refine .modify_bind ((lowerBody_ends appends tame tolerated.cannotBranch statement refuses
    _ _ _ (ready.enter _)).bind fun _ _ ready => ?_)
  refine (closeScope_ends ready).bind fun _ _ ready => ?_
  exact (write_ends ready _).mono fun _ _ ready => ⟨_, ready⟩

omit known in
theorem generateGappa_ends :
    Ends expected (generateGappa job function) before
      fun _ after => ∃ frame, after.Ready job graph frame [0] := by
  refine (onDocument_ends ready (ready.balanced.addComment_ends _)).bind fun _ _ ready => ?_
  refine (EndsIn.forM_of_mem (fun argument _ _ ready => assumeArgument_ends ready argument) ready).bind ?_
  intro _ _ ready
  refine (onDocument_gives ready (ready.balanced.freeName_ends _)).bind ?_
  rintro name named ⟨ready, free⟩
  -- The name was just found to be free, so it is not refused.
  refine (claim_ends ready .reserved name _ fun taken => ?_).bind fun _ _ ready => ?_
  · rw [free] at taken
    cases taken
  refine .modify_bind ((lowerBody_ends appends tame tolerated.cannotBranch statement refuses
    _ _ _ (ready.enter _)).bind fun _ _ ready => ?_)
  exact (write_ends ready _).mono fun _ _ ready => ⟨_, ready⟩

theorem writeFunction_ends :
    Ends expected (writeFunction job function) before
      fun _ after => ∃ frame, after.Ready job graph frame [0] := by
  unfold writeFunction
  split
  · rename_i language
    exact generateC_ends appends tame tolerated known statement refuses ready language
  · rename_i language
    exact generateVhdl_ends appends tame tolerated known statement refuses ready language
  · exact generateGappa_ends appends tame tolerated statement refuses ready

end

/-- Between two functions the document is in no block and all bodies are statements. -/
structure AtRest (job : Job) (program : Program) (generator : Generator) : Prop where
  ready : generator.Ready job generator.graph none [0]
  bodies : ∀ function ∈ program.functions,
    generator.graph.Statement program.graph.Branches function.body

section

variable {job : Job} {program : Program} {function : Function} {before : Generator}
  {expected : Fault → Prop}

theorem promote_ends (rest : before.AtRest job program) (known : function ∈ program.functions) :
    Ends expected (promote job function) before fun _ after =>
      after.AtRest job program ∧ after.graph = job.promoted function before.graph := by
  unfold promote Job.promoted
  split
  · refine .of_eq_ok rfl
      ⟨⟨⟨.refl _, rest.ready.framed, rest.ready.balanced, rest.ready.tables⟩, ?_⟩, rfl⟩
    exact fun other member => (rest.bodies function known).promote _ _ (rest.bodies other member)
  · exact .pure ⟨rest, rfl⟩

/-- A function is generated where the graph that promotion leaves refuses nothing unexpected, and
that graph only grows. -/
theorem generateFunction_ends (appends : job.book.Appends) (tame : job.book.Tame)
    (tolerated : Fault.Tolerated program job.options.language expected)
    (rest : before.AtRest job program) (known : function ∈ program.functions)
    (refuses : (job.promoted function before.graph).RefusesFrom expected job.book function.body) :
    Ends expected (generateFunction job function) before fun _ after =>
      after.AtRest job program ∧ (job.promoted function before.graph).Grows after.graph := by
  have started : AtRest job program
      { before with session := before.session.startFunction function.name } :=
    ⟨rest.ready.congr rfl rfl rfl rfl, rest.bodies⟩
  refine .modify_bind ((promote_ends started known).bind ?_)
  rintro _ promoted ⟨rest, same⟩
  refine .modify_bind (.get_bind ?_)
  have counted : Ready job promoted.graph none [0] { promoted with
      uses := promoted.graph.uses function.body, memo := OrderedMap.empty, outerMemos := [] } :=
    rest.ready.congr rfl rfl rfl rfl
  have statement := rest.bodies function known
  refine (writeFunction_ends appends tame tolerated known statement (same ▸ refuses) counted).bind
    ?_
  rintro _ written ⟨_, ready⟩
  refine .modify_bind (.get_bind (.of_eq_ok rfl ⟨⟨?_, fun other member => ?_⟩, ?_⟩))
  · exact (ready.enter none).rebase.congr rfl rfl rfl rfl
  · exact (rest.bodies other member).grows ready.grows
  · exact same ▸ ready.grows

theorem start_atRest (job : Job)
    (bodies : ∀ function ∈ program.functions, program.graph.Stated function.body) :
    (job.start program.graph).AtRest job program := by
  obtain ⟨headers, libraries, comments, same⟩ := job.start_document program.graph
  refine ⟨⟨.refl _, rfl, ?_, nofun⟩, bodies⟩
  rw [same]
  exact (Document.Balanced.create _ _).modifyRoot (fun _ => rfl) fun _ => rfl

end

end Generator

section

variable {target : Target} {options : Options} {job : Job} (planned : target.job options = .ok job)

include planned

/-- Where all functions are generated or fail as expected, so does the program: at rest nothing is
open, and the file is complete. -/
theorem Program.generate_of_ends {expected : Fault → Prop}
    (ends : Ends expected (program.functions.forM (Generator.generateFunction job))
      (job.start program.graph) fun _ after => after.AtRest job program) :
    (∃ code, (program.generate target options).code = .ok code) ∨
      ∃ fault, (program.generate target options).code = .error fault ∧ expected fault := by
  unfold Program.generate
  rw [planned]
  dsimp only
  cases outcome : program.functions.forM (Generator.generateFunction job)
      (job.start program.graph) with
  | error fault generator => exact .inr ⟨fault, rfl, ends.failing_of_eq_error outcome⟩
  | ok _ generator =>
    exact .inl ((ends.post_of_eq_ok outcome).ready.balanced.finish_eq_ok job.options.headers)

/-- A job on a program whose bodies are statements ends with a file, or fails as expected. -/
theorem Program.generate_of_job (language : job.options = options) (appends : job.book.Appends)
    (tame : job.book.Tame)
    (bodies : ∀ function ∈ program.functions, program.graph.Stated function.body) :
    (∃ code, (program.generate target options).code = .ok code) ∨
      ∃ fault, (program.generate target options).code = .error fault ∧
        fault.Expected program options.language := by
  have ends : Ends (Fault.Expected program job.options.language) _ (job.start program.graph)
      fun _ after => after.AtRest job program :=
    EndsIn.forM_of_mem (fun function known _ rest => (Generator.generateFunction_ends appends tame
      (Fault.Expected.tolerated program _) rest known (.of_tame tame fun _ =>
        Fault.IsUnmatched.expected)).mono fun _ _ both => both.1) (Generator.start_atRest job bodies)
  rw [← language]
  rw [← language] at planned
  exact generate_of_ends planned ends

end

/-- Every program that is read from a text, in every language that a target of the library has rules
for and whatever the options, becomes a file, or generation fails in one of the expected ways: for
want of a rule, by a name of the program that is taken, or at a conditional in a verification
script. -/
theorem Program.generate_expected {text name : String} {program : Program} {target : Target}
    {options : Options} {book : RuleBook} (read : Source.read text = .ok program)
    (found : Catalog.builtin.target name = .ok target)
    (booked : target.book options.language = .ok book) :
    (∃ code, (program.generate target options).code = .ok code) ∨
      ∃ fault, (program.generate target options).code = .error fault ∧
        fault.Expected program options.language := by
  have planned : target.job options = .ok { target, book, options } := by
    unfold Target.job
    rw [booked]
    rfl
  have known : target.books.get? options.language = some book := by
    unfold Target.book at booked
    split at booked
    · cases booked
      assumption
    · cases booked
  exact generate_of_job planned rfl
    (Catalog.builtin_orderly found options.language book known).appends
    (Catalog.builtin_tame found options.language book known) (Source.read_stated text program read)

/-- A function with a conditional, and with an argument that is named like the result of a hardware
entity. -/
def Source.guardedText : String :=
  "func pick(b: bool, vr_out: binary32) -> binary32 \x7b\nif %b \x7b\nreturn %vr_out\n\x7d\n\x7d"

/-- The program of that text. -/
def Program.guarded : Program where
  graph :=
    ⟨#[{ operation := .variable, format := .bool, payload := .variable "b" },
      { operation := .variable, format := .binary32, payload := .variable "vr_out" },
      { operation := .ret, operands := [1], format := .void },
      { operation := .condition, operands := [0, 2], format := .void }]⟩
  functions :=
    [{ name := "pick"
       arguments := [{ name := "b", format := .bool, node := 0 },
         { name := "vr_out", format := .binary32, node := 1 }]
       result := .binary32
       body := 3 }]

theorem Program.generate_expected_guarded :
    Source.read Source.guardedText = .ok guarded ∧
      Catalog.builtin.target "gappa" = .ok Verification.target ∧
      Verification.target.book .gappa = .ok Verification.book ∧
      (guarded.generate Verification.target { language := .gappa }).code =
        .error (.graph .cannotBranch) ∧
      ((∃ code, (guarded.generate Verification.target { language := .gappa }).code = .ok code) ∨
        ∃ fault, (guarded.generate Verification.target { language := .gappa }).code = .error fault ∧
          fault.Expected guarded .gappa) ∧
      Catalog.builtin.target "vhdl" = .ok Hardware.target ∧
      Hardware.target.book .vhdl = .ok Hardware.book ∧
      (guarded.generate Hardware.target { language := .vhdl }).code =
        .error (.nameCollision "vr_out" .reserved) ∧
      ((∃ code, (guarded.generate Hardware.target { language := .vhdl }).code = .ok code) ∨
        ∃ fault, (guarded.generate Hardware.target { language := .vhdl }).code = .error fault ∧
          fault.Expected guarded .vhdl) := by
  have read : Source.read Source.guardedText = .ok guarded := by decide +kernel
  have verification : Catalog.builtin.target "gappa" = .ok Verification.target := rfl
  have hardware : Catalog.builtin.target "vhdl" = .ok Hardware.target := rfl
  have gappa : Verification.target.book .gappa = .ok Verification.book := rfl
  have vhdl : Hardware.target.book .vhdl = .ok Hardware.book := rfl
  exact ⟨read, verification, gappa, by decide +kernel, generate_expected read verification gappa,
    hardware, vhdl, by decide +kernel, generate_expected read hardware vhdl⟩

end Retarget
