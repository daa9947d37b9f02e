import Retarget.Proofs.Generation.Recursion
import Retarget.Proofs.Generation.Sound
import Retarget.Proofs.Output.Assigned
import Retarget.Source.Reader
import Retarget.Target.Verification

/-!
# Inputs of verification scripts

A verification script is flat: constants, temporaries and results of all functions are assigned in
one scope, and the arguments are inputs that only hypotheses bound. Whatever is assigned was free
when it was named (`Generator.Adds`), and the arguments of a function are taken before its body is
written. So a function assigns no argument of its own or of a function before it, and an input is
redefined exactly where a function was generated before and had assigned that name
(`Program.assigned_inputs_iff`).
-/

namespace Retarget

open List

namespace Generator

/-- A name is free in the current scope. -/
def isFree (generator : Generator) (name : String) : Bool :=
  generator.document.current.scope.isFree generator.document.names.tables name

/-- Only the outermost scope is open, and it has its tables, with a table of its own for the names
that are reserved. -/
structure Flat (generator : Generator) : Prop where
  enclosing : generator.document.enclosing = []
  founded : generator.document.naming.Founded
  apart : ∀ category, category ≠ .reserved → generator.document.current.scope.own category ≠
    generator.document.current.scope.own .reserved

/-- No name is given up, and a name that comes to be assigned was free or is that of the result. -/
structure Adding (before after : Generator) : Prop where
  flat : after.Flat
  frame : after.frame = before.frame
  taken : ∀ name, before.isFree name = false → after.isFree name = false
  kept : ∀ name ∈ before.document.assigned, name ∈ after.document.assigned
  new : ∀ name ∈ after.document.assigned, name ∈ before.document.assigned ∨
    before.isFree name = true ∨ ∃ frame, before.frame = some frame ∧ frame.resultName = name

/-- From a flat state, names are only added. -/
def Adds (before after : Generator) : Prop :=
  before.Flat → Adding before after

namespace Adds

instance : Std.Refl Adds := ⟨fun _ flat => ⟨flat, rfl, fun _ => id, fun _ => id, fun _ => .inl⟩⟩

instance : IsTrans Generator Adds where
  trans first second third left right flat := by
    have before := left flat
    have after := right before.flat
    refine ⟨after.flat, after.frame.trans before.frame,
      fun name taken => after.taken name (before.taken name taken),
      fun name known => after.kept name (before.kept name known), fun name known => ?_⟩
    rcases after.new name known with earlier | free | ⟨frame, framed, named⟩
    · exact before.new name earlier
    · refine .inr (.inl ?_)
      by_contra taken
      rw [Bool.not_eq_true] at taken
      rw [before.taken name taken] at free
      cases free
    · exact .inr (.inr ⟨frame, before.frame.symm.trans framed, named⟩)

end Adds

section

variable {before after : Generator}

section

variable (naming : after.document.naming = before.document.naming)

include naming

theorem Flat.of_naming (flat : before.Flat) (enclosing : after.document.enclosing = []) :
    after.Flat := by
  refine ⟨enclosing, naming ▸ flat.founded, fun category other => ?_⟩
  change after.document.naming.scope.own category ≠ after.document.naming.scope.own .reserved
  rw [naming]
  exact flat.apart category other

theorem isFree_of_naming (name : String) : after.isFree name = before.isFree name := by
  change after.document.naming.scope.isFree after.document.naming.tables name = _
  rw [naming]
  rfl

end

theorem Adds.of_moves (document : Document.Moves Naming.Adds before.document after.document)
    (frame : after.frame = before.frame) : Adds before after := by
  intro flat
  obtain ⟨enclosing, adds, results⟩ := document flat.enclosing
  refine ⟨⟨enclosing, fun category => ?_, fun category other => ?_⟩, frame,
    fun name => adds.grows.isFree_eq_false, fun name known => ?_, fun name known => ?_⟩
  · rw [adds.grows.own, adds.grows.size]
    exact flat.founded category
  · have own (place : Category) := congrFun adds.grows.own place
    change after.document.naming.scope.own category ≠ after.document.naming.scope.own .reserved
    rw [own, own]
    exact flat.apart category other
  · rw [Document.mem_assigned] at known ⊢
    rw [results]
    exact known.imp (adds.kept _ name) (Or.imp_left (adds.kept _ name))
  · rw [Document.mem_assigned] at known ⊢
    rw [results] at known
    rcases known with constant | temporary | result
    · exact (adds.new _ name constant).imp .inl .inl
    · exact (adds.new _ name temporary).imp (.inr ∘ .inl) .inl
    · exact .inl (.inr (.inr result))

/-- Records may change in any way. -/
theorem Adds.of_document (document : after.document = before.document)
    (frame : after.frame = before.frame) : Adds before after :=
  .of_moves (document ▸ Std.Refl.refl _) frame

theorem onDocument_adds {α : Type} {action : DocumentM α}
    (moves : Changes (Document.Moves Naming.Adds) action) : Changes Adds (onDocument action) := by
  intro generator
  rw [finalState_onDocument]
  exact .of_moves (moves generator.document) rfl

theorem onNames_adds {α : Type} {action : NamingM α} (adds : Changes Naming.Adds action) :
    Changes Adds (onNames action) :=
  onDocument_adds (Document.withNames_moves adds)

theorem write_adds (text : String) : Changes Adds (write text) :=
  onDocument_adds (Document.append_moves text)

/-- Lowering a value assigns only names that were free. -/
theorem adds_allows (job : Job) : Allows job Adds where
  records _ _ _ := .of_document rfl rfl
  memos _ _ _ := .of_document rfl rfl
  replaces _ := .of_document rfl rfl
  header header := onDocument_adds (.modify (Document.modifyRoot_moves (·.scope_addHeader header)
    fun _ => rfl))
  library library := onDocument_adds (.modify (Document.modifyRoot_moves
    (·.scope_addLibrary library) fun _ => rfl))
  alloc entity := onNames_adds (Naming.adds_permits.alloc entity)
  temporary stem format := onDocument_adds (Document.declareTemporary_moves stem format)
  constant _ _ _ := onNames_adds (Naming.adds_permits.declareConstantValue _ _ _)
  table entity stem := onNames_adds (Naming.adds_permits.declareTable entity stem)
  writes text _ := write_adds text

/-- The result of the function becomes a goal under its own name. -/
theorem addGoal_adds {frame : Frame} (framed : before.frame = some frame) :
    Adds before { before with
      document := before.document.modifyRoot (·.modifyObligations
        (·.addGoal ⟨frame.resultName, frame.result⟩ .unknown)) } := by
  intro flat
  rw [Document.modifyRoot_of_flat flat.enclosing]
  have naming : (before.document.modifyCurrent (·.modifyObligations
      (·.addGoal ⟨frame.resultName, frame.result⟩ .unknown))).naming = before.document.naming := by
    unfold Document.naming Document.modifyCurrent
    rw [Draft.scope_modifyObligations]
  refine ⟨flat.of_naming naming flat.enclosing, rfl,
    fun name => (isFree_of_naming naming name).trans, fun name known => ?_, fun name known => ?_⟩
  · rw [Document.mem_assigned] at known ⊢
    rw [naming]
    exact known.imp_right (Or.imp_right (Draft.results_subset_addGoal _ _ _ name))
  · rw [Document.mem_assigned] at known ⊢
    rw [naming] at known
    rcases known with constant | temporary | result
    · exact .inl (.inl constant)
    · exact .inl (.inr (.inl temporary))
    · rcases Draft.mem_results_addGoal _ _ _ name result with earlier | named
      · exact .inl (.inr (.inr earlier))
      · exact .inr (.inr ⟨frame, framed, named⟩)

theorem lowerResult_adds {options : Options} (language : options.language = .gappa)
    (code : String) : Changes Adds (lowerResult options code) := by
  refine .get_bind fun generator => ?_
  cases framed : generator.frame with
  | none => exact Std.Refl.refl generator
  | some frame =>
    simp only [language]
    have wrote := write_adds (Language.gappa.assignment frame.resultName code false) generator
    exact IsTrans.trans _ _ _ wrote (addGoal_adds framed)

section Statements

variable {job : Job} (language : job.options.language = .gappa)

include language

theorem lowerCondition_adds (lower : NodeId → GeneratorM Unit) (condition yes : NodeId)
    (no : Option NodeId) : Changes Adds (lowerCondition job lower condition yes no) := by
  refine .bind ((adds_allows job).lowerExpression condition) fun code => ?_
  simp only [language]
  exact .throw _

theorem lowerStatement_adds (depth : Nat) (id : NodeId) :
    Changes Adds (lowerStatement job depth id) := by
  induction depth generalizing id with
  | zero => exact .throw _
  | succ depth ih =>
    refine .get_bind fun generator => (show Changes Adds _ from ?_) generator
    split
    · exact .forM fun part _ => ih part
    · split
      · exact .throw _
      · exact .bind ((adds_allows job).lowerExpression _) (lowerResult_adds language)
    · split
      · exact lowerCondition_adds language _ _ _ _
      · exact lowerCondition_adds language _ _ _ _
      · exact .throw _
    · exact .bind ((adds_allows job).lowerExpression id) fun _ => .pure _

theorem lowerBody_adds (body : NodeId) : Changes Adds (lowerBody job body) :=
  .get_bind fun generator => lowerStatement_adds language _ body generator

end Statements

/-- No name is given up, and none comes to be assigned. -/
structure Reserving (before after : Generator) : Prop where
  flat : after.Flat
  taken : ∀ name, before.isFree name = false → after.isFree name = false
  same : ∀ name, name ∈ after.document.assigned ↔ name ∈ before.document.assigned

/-- From a flat state, names are only reserved. -/
def Reserves (before after : Generator) : Prop :=
  before.Flat → Reserving before after

namespace Reserves

instance : Std.Refl Reserves := ⟨fun _ flat => ⟨flat, fun _ => id, fun _ => Iff.rfl⟩⟩

instance : IsTrans Generator Reserves where
  trans first second third left right flat := by
    have before := left flat
    have after := right before.flat
    exact ⟨after.flat, fun name taken => after.taken name (before.taken name taken),
      fun name => (after.same name).trans (before.same name)⟩

theorem of_document (document : after.document = before.document) : Reserves before after := by
  have naming := congrArg Document.naming document
  refine fun flat => ⟨flat.of_naming naming (document ▸ flat.enclosing),
    fun name => (isFree_of_naming naming name).trans, fun name => ?_⟩
  rw [document]

theorem of_moves (document : Document.Moves Naming.Reserves before.document after.document)
    (frame : after.frame = before.frame) : Reserves before after := by
  intro flat
  obtain ⟨enclosing, reserves, results⟩ := document flat.enclosing
  have adding := Adds.of_moves (fun _ => ⟨enclosing, reserves.adds, results⟩) frame flat
  refine ⟨adding.flat, adding.taken, fun name => ⟨fun known => ?_, adding.kept name⟩⟩
  rw [Document.mem_assigned] at known ⊢
  rw [results] at known
  exact known.imp (reserves.same .constant (flat.apart _ (by decide)) name)
    (Or.imp_left (reserves.same .variable (flat.apart _ (by decide)) name))

end Reserves

theorem onDocument_reserves {α : Type} {action : DocumentM α}
    (moves : Changes (Document.Moves Naming.Reserves) action) :
    Changes Reserves (onDocument action) := by
  intro generator
  rw [finalState_onDocument]
  exact .of_moves (moves generator.document) rfl

theorem record_reserves (change : Session → Session) : Changes Reserves (record change) :=
  .modify fun _ => .of_document rfl

theorem addComment_reserves (text : String) :
    Changes Reserves (onDocument (Document.addComment text)) :=
  onDocument_reserves (.modify (Document.modifyCurrent_moves (fun draft => draft.scope_append _)
    fun draft => draft.results_append _))

theorem freeName_reserves (stem : String) :
    Changes Reserves (onNames (Naming.freeName stem)) :=
  onDocument_reserves (Document.withNames_moves fun naming =>
    .of_confined (Naming.freeName_confined stem naming))

theorem isFree_of_freeName {stem name : String}
    (done : onNames (Naming.freeName stem) before = .ok name after) :
    before.isFree name = true := by
  obtain ⟨document, named, rfl⟩ := onDocument_eq_ok done
  obtain ⟨naming, taken, rfl⟩ := Document.withNames_eq_ok named
  cases taken
  exact before.document.current.scope.isFree_freeName before.document.names.tables stem

theorem promote_reserves (job : Job) (function : Function) :
    Changes Reserves (promote job function) := by
  unfold promote
  split
  · exact .bind (.modifyGet fun _ => .of_document rfl) fun _ => record_reserves _
  · exact .pure PUnit.unit

theorem countUses_reserves (function : Function) : Changes Reserves (countUses function) :=
  .modify fun _ => .of_document rfl

theorem reserve_reserves (name : String) (format : Format) :
    Changes Reserves (reserve name format) :=
  onDocument_reserves (Document.withNames_moves (Naming.reserve_reserves name format))

/-- The hypothesis on the range of an argument is no assignment. -/
theorem assumeRange_reserves (argument : Argument) :
    Changes Reserves (match argument.range with
      | some (low, high) => onDocument (modify (·.modifyRoot (·.modifyObligations
          (·.addHypothesis ⟨argument.name, argument.format⟩ (.interval low high)))))
      | _ => pure ()) := by
  split
  · refine onDocument_reserves (.modify (Document.modifyRoot_moves (·.scope_modifyObligations _) ?_))
    rintro ⟨_, flavor, _⟩
    cases flavor <;> rfl
  · exact .pure PUnit.unit

theorem assumeArgument_reserves (argument : Argument) :
    Changes Reserves (assumeArgument argument) := by
  refine .get_bind fun generator => (show Changes Reserves _ from ?_) generator
  dsimp only
  split
  · exact .bind (reserve_reserves _ _) fun _ => assumeRange_reserves argument
  · exact assumeRange_reserves argument

theorem reserve_takes {name : String} {format : Format} (flat : before.Flat)
    (done : reserve name format before = .ok () after) : after.isFree name = false := by
  obtain ⟨document, named, rfl⟩ := onDocument_eq_ok done
  obtain ⟨naming, declared, rfl⟩ := Document.withNames_eq_ok named
  obtain ⟨id, middle, allocated, declared⟩ := bind_eq_ok.mp declared
  have founded : middle.Founded := by
    cases allocated
    exact flat.founded
  exact Naming.isFree_of_declare founded declared

theorem assumeArgument_takes {argument : Argument} (flat : before.Flat)
    (done : assumeArgument argument before = .ok () after) :
    after.isFree argument.name = false := by
  obtain ⟨_, _, looked, done⟩ := bind_eq_ok.mp done
  cases looked
  dsimp only at done
  split at done
  · obtain ⟨_, middle, reserved, assumed⟩ := bind_eq_ok.mp done
    have flat' := ((reserve_reserves _ _).of_eq_ok reserved flat).flat
    exact ((assumeRange_reserves argument).of_eq_ok assumed flat').taken _
      (reserve_takes flat reserved)
  · rename_i taken
    exact ((assumeRange_reserves argument).of_eq_ok done flat).taken _
      (Bool.not_eq_true _ ▸ taken)

/-- Once the arguments are assumed, all of them are taken. -/
theorem assumeArguments_take {arguments : List Argument} (flat : before.Flat)
    (done : arguments.forM assumeArgument before = .ok () after) :
    ∀ argument ∈ arguments, after.isFree argument.name = false := by
  induction arguments generalizing before with
  | nil => exact fun _ => nofun
  | cons argument rest ih =>
    obtain ⟨_, middle, assumed, done⟩ := bind_eq_ok.mp done
    have flat' := ((assumeArgument_reserves argument).of_eq_ok assumed flat).flat
    have later := (Changes.forM fun argument _ => assumeArgument_reserves argument).of_eq_ok done
    refine forall_mem_cons.mpr ⟨?_, ih flat' done⟩
    exact (later flat').taken _ (assumeArgument_takes flat assumed)

/-- Some names come to be taken, and none of them comes to be assigned. -/
structure Spares (inputs : Set String) (before after : Generator) : Prop where
  flat : after.Flat
  taken : ∀ name ∈ inputs, after.isFree name = false
  kept : ∀ name ∈ before.document.assigned, name ∈ after.document.assigned
  new : ∀ name ∈ after.document.assigned, name ∈ before.document.assigned ∨ name ∉ inputs

theorem Spares.between {inputs : Set String} {opened closed : Generator}
    (spares : Spares inputs opened closed) (first : Reserving before opened)
    (last : Reserving closed after) : Spares inputs before after where
  flat := last.flat
  taken name input := last.taken name (spares.taken name input)
  kept name known := (last.same name).mpr (spares.kept name ((first.same name).mpr known))
  new name known := (spares.new name ((last.same name).mp known)).imp_left (first.same name).mp

section Functions

variable {job : Job} (language : job.options.language = .gappa) {function : Function}
  {inputs : Set String}

include language

/-- Where all inputs are taken and the name of the result is none of them, a body assigns none. -/
theorem lowerBody_spares {body : NodeId} (flat : before.Flat)
    (taken : ∀ name ∈ inputs, before.isFree name = false)
    (result : ∀ frame, before.frame = some frame → frame.resultName ∉ inputs)
    (done : lowerBody job body before = .ok () after) : Spares inputs before after := by
  have adding := (lowerBody_adds language body).of_eq_ok done flat
  refine ⟨adding.flat, fun name input => adding.taken name (taken name input), adding.kept,
    fun name known => ?_⟩
  rcases adding.new name known with earlier | free | ⟨frame, framed, rfl⟩
  · exact .inl earlier
  · refine .inr fun input => ?_
    rw [taken name input] at free
    cases free
  · exact .inr (result frame framed)

theorem generateGappa_spares (flat : before.Flat)
    (known : ∀ name ∈ inputs, before.isFree name = false ∨
      ∃ argument ∈ function.arguments, argument.name = name)
    (done : generateGappa job function before = .ok () after) : Spares inputs before after := by
  obtain ⟨_, commented, comment, done⟩ := bind_eq_ok.mp done
  obtain ⟨_, assumed, arguments, done⟩ := bind_eq_ok.mp done
  obtain ⟨result, named, free, done⟩ := bind_eq_ok.mp done
  obtain ⟨_, reserved, reserve, done⟩ := bind_eq_ok.mp done
  obtain ⟨_, framed, frame, done⟩ := bind_eq_ok.mp done
  obtain ⟨_, lowered, lower, done⟩ := bind_eq_ok.mp done
  have toCommented := (addComment_reserves _).of_eq_ok comment flat
  have toAssumed := IsTrans.trans _ _ _ (fun _ => toCommented)
    ((Changes.forM fun argument _ => assumeArgument_reserves argument).of_eq_ok arguments)
  have toReserved := IsTrans.trans _ _ _ ((freeName_reserves _).of_eq_ok free)
    ((reserve_reserves _ _).of_eq_ok reserve)
  have toFramed : Reserves assumed framed := by
    cases frame
    exact IsTrans.trans _ _ _ toReserved (.of_document rfl)
  have readied := toFramed (toAssumed flat).flat
  have taken (name : String) (input : name ∈ inputs) : assumed.isFree name = false := by
    rcases known name input with taken | ⟨argument, member, rfl⟩
    · exact (toAssumed flat).taken name taken
    · exact assumeArguments_take toCommented.flat arguments argument member
  -- The name of the result was free when all inputs were taken.
  have fresh : result ∉ inputs := fun input => by
    have := isFree_of_freeName free
    rw [taken result input] at this
    cases this
  have body : Spares inputs framed lowered := by
    refine lowerBody_spares language readied.flat (fun name input => ?_) (fun it framedBy => ?_)
      lower
    · exact readied.taken name (taken name input)
    · cases frame
      cases framedBy
      exact fresh
  exact body.between (IsTrans.trans _ _ _ toAssumed toFramed flat)
    ((onDocument_reserves (Document.append_moves _)).of_eq_ok done body.flat)

theorem generateFunction_spares (flat : before.Flat)
    (known : ∀ name ∈ inputs, before.isFree name = false ∨
      ∃ argument ∈ function.arguments, argument.name = name)
    (done : generateFunction job function before = .ok () after) : Spares inputs before after := by
  obtain ⟨_, started, start, done⟩ := bind_eq_ok.mp done
  obtain ⟨_, promoted, promote, done⟩ := bind_eq_ok.mp done
  obtain ⟨_, counted, count, done⟩ := bind_eq_ok.mp done
  obtain ⟨_, _, looked, done⟩ := bind_eq_ok.mp done
  cases looked
  obtain ⟨_, written, write, done⟩ := bind_eq_ok.mp done
  have toPromoted := IsTrans.trans _ _ _ ((record_reserves _).of_eq_ok start)
    ((promote_reserves _ _).of_eq_ok promote)
  have toCounted := IsTrans.trans _ _ _ toPromoted ((countUses_reserves _).of_eq_ok count) flat
  have body : Spares inputs counted written := by
    unfold writeFunction at write
    rw [language] at write
    refine generateGappa_spares language toCounted.flat (fun name input => ?_) write
    exact (known name input).imp_left (toCounted.taken name)
  cases done
  exact body.between toCounted (Reserves.of_document rfl body.flat)

end Functions

end

end Generator

/-- The names of the arguments of functions. -/
def Function.inputs (functions : List Function) : List String :=
  functions.flatMap fun function => function.arguments.map (·.name)

open Generator

namespace Job

variable {job : Job}

theorem start_flat (job : Job) (graph : Graph) : (job.start graph).Flat := by
  let created : Generator :=
    { graph, document := Document.create job.options.language job.options.sharing }
  have flat : created.Flat := by
    refine ⟨rfl, (Document.Balanced.create _ _).founded, fun category other => ?_⟩
    exact Document.own_create_ne _ _ other
  have moves : Document.Moves Naming.Reserves created.document (job.start graph).document := by
    obtain ⟨headers, libraries, comments, same⟩ := job.start_document graph
    rw [same]
    exact Document.modifyRoot_moves (fun _ => rfl) (fun _ => rfl) _
  exact (Reserves.of_moves moves rfl flat).flat

section

variable {functions : List Function} {before after : Generator}
  (language : job.options.language = .gappa) (flat : before.Flat)

include language flat

/-- Names that are assigned stay assigned. -/
theorem assigned_of_run (done : functions.forM (generateFunction job) before = .ok () after) :
    after.Flat ∧ ∀ name ∈ before.document.assigned, name ∈ after.document.assigned := by
  induction functions generalizing before with
  | nil =>
    cases done
    exact ⟨flat, fun _ => id⟩
  | cons function rest ih =>
    obtain ⟨_, middle, first, done⟩ := bind_eq_ok.mp done
    have spares : Spares ∅ before middle :=
      generateFunction_spares language flat (fun _ => False.elim) first
    obtain ⟨flat', kept⟩ := ih spares.flat done
    exact ⟨flat', fun name known => kept name (spares.kept name known)⟩

/-- Where no function finds an argument of its own assigned, no argument comes to be assigned. -/
theorem inputs_of_run {earlier : List Function}
    (taken : ∀ name ∈ Function.inputs earlier, before.isFree name = false)
    (apart : ∀ name ∈ before.document.assigned, name ∉ Function.inputs earlier)
    (spared : ∀ first function rest, functions = first ++ function :: rest → ∀ middle,
      first.forM (generateFunction job) before = .ok () middle →
        ∀ argument ∈ function.arguments, argument.name ∉ middle.document.assigned)
    (done : functions.forM (generateFunction job) before = .ok () after) :
    ∀ name ∈ after.document.assigned, name ∉ Function.inputs (earlier ++ functions) := by
  induction functions generalizing earlier before with
  | nil =>
    cases done
    rw [append_nil]
    exact apart
  | cons function rest ih =>
    obtain ⟨_, middle, first, done⟩ := bind_eq_ok.mp done
    have own := spared [] function rest rfl before rfl
    have known (name : String) (input : name ∈ Function.inputs (earlier ++ [function])) :
        name ∈ Function.inputs earlier ∨ ∃ argument ∈ function.arguments, argument.name = name := by
      simpa [Function.inputs] using input
    have spares : Spares { name | name ∈ Function.inputs (earlier ++ [function]) } before middle :=
      generateFunction_spares language flat
        (fun name input => (known name input).imp_left (taken name)) first
    rw [← singleton_append, ← append_assoc]
    refine ih spares.flat spares.taken (fun name assigned input => ?_)
      (fun others later rest' split state reached => ?_) done
    · rcases spares.new name assigned with already | fresh
      · rcases known name input with old | ⟨argument, member, rfl⟩
        · exact apart name already old
        · exact own argument member already
      · exact fresh input
    · refine spared (function :: others) later rest' (by rw [split]; rfl) state ?_
      exact bind_eq_ok.mpr ⟨_, middle, first, reached⟩

end

end Job

namespace Program

/-- The names that generation assigns, where it succeeds. -/
def assigned? (program : Program) (job : Job) : Option (List String) :=
  match program.functions.forM (generateFunction job) (job.start program.graph) with
  | .ok () generator => some generator.document.assigned
  | .error _ _ => none

theorem assigned?_eq_some {program : Program} {job : Job} {names : List String} :
    program.assigned? job = some names ↔ ∃ generator,
      program.functions.forM (generateFunction job) (job.start program.graph) = .ok () generator ∧
        generator.document.assigned = names := by
  unfold assigned?
  cases program.functions.forM (generateFunction job) (job.start program.graph) <;> simp

/-- A verification script redefines no input exactly if no function is generated after another has
assigned one of its arguments. -/
theorem assigned_inputs_iff {program : Program} {job : Job}
    (language : job.options.language = .gappa) {names : List String}
    (done : program.assigned? job = some names) :
    (∀ name ∈ names, name ∉ Function.inputs program.functions) ↔
      ∀ earlier function later, program.functions = earlier ++ function :: later →
        ∀ before, { program with functions := earlier }.assigned? job = some before →
          ∀ argument ∈ function.arguments, argument.name ∉ before := by
  have flat := job.start_flat program.graph
  obtain ⟨final, generated, rfl⟩ := assigned?_eq_some.mp done
  constructor
  · intro apart earlier function later split before already argument member known
    obtain ⟨middle, reached, rfl⟩ := assigned?_eq_some.mp already
    rw [split] at generated
    change (forM (earlier ++ function :: later) (generateFunction job) : GeneratorM Unit) _ = _
      at generated
    rw [forM_append] at generated
    obtain ⟨_, _, reached', rest⟩ := bind_eq_ok.mp generated
    cases reached.symm.trans reached'
    obtain ⟨flat', _⟩ := Job.assigned_of_run language flat reached
    refine apart _ ((Job.assigned_of_run language flat' rest).2 _ known) ?_
    rw [split]
    exact mem_flatMap.mpr ⟨function, by simp, mem_map_of_mem member⟩
  · intro spared
    have none (name : String) : name ∉ Function.inputs [] := nofun
    refine Job.inputs_of_run language flat (fun name input => absurd input (none name))
      (fun name _ => none name) ?_ generated
    intro first function rest split middle reached
    exact spared first function rest split _ (assigned?_eq_some.mpr ⟨middle, reached, rfl⟩)

/-- Two functions, where the first tags a value with the name of the argument of the second. -/
def capturingText : String :=
  "func f(x: binary32 in [-1, 1]) -> binary32 \x7b\n%s = mul %x, %x : binary32 @y\n" ++
    "%t = add %s, %s : binary32\nreturn %t\n\x7d\n" ++
    "func g(y: binary32 in [2, 3]) -> binary32 \x7b\nreturn %y\n\x7d\n"

/-- The program of that text. -/
def capturing : Program where
  graph :=
    ⟨#[{ operation := .variable, format := .binary32, payload := .variable "x" },
      { operation := .multiplication, operands := [0, 0], format := .binary32, tag := some "y" },
      { operation := .addition, operands := [1, 1], format := .binary32 },
      { operation := .ret, operands := [2], format := .void },
      { operation := .variable, format := .binary32, payload := .variable "y" },
      { operation := .ret, operands := [4], format := .void }]⟩
  functions :=
    [{ name := "f"
       arguments :=
         [{ name := "x", format := .binary32, node := 0, range := some (.ofInt (-1), .ofInt 1) }]
       result := .binary32
       body := 3 },
     { name := "g"
       arguments :=
         [{ name := "y", format := .binary32, node := 4, range := some (.ofInt 2, .ofInt 3) }]
       result := .binary32
       body := 5 }]

/-- The job of writing verification scripts. -/
def verification : Job := ⟨Verification.target, Verification.book, { language := .gappa }⟩

theorem assigned_inputs_iff_capturing :
    capturing.assigned? verification = some ["y", "vr_out", "vr_out0"] ∧
      ((∀ name ∈ ["y", "vr_out", "vr_out0"], name ∉ Function.inputs capturing.functions) ↔
        ∀ earlier function later, capturing.functions = earlier ++ function :: later →
          ∀ before, { capturing with functions := earlier }.assigned? verification = some before →
            ∀ argument ∈ function.arguments, argument.name ∉ before) := by
  have done : capturing.assigned? verification = some ["y", "vr_out", "vr_out0"] := by
    decide +kernel
  exact ⟨done, assigned_inputs_iff rfl done⟩

/-- The temporary of the first function takes the name of the argument of the second, and the script
assigns it. -/
theorem capturing_assigns_input :
    Source.read capturingText = .ok capturing ∧
      Verification.target.job { language := .gappa } = .ok verification ∧
      (capturing.generate Verification.target { language := .gappa }).code.toOption = some
        ("\n\n\n# f\ny = float<ieee_32,ne>(x * x);\nvr_out = float<ieee_32,ne>(y + y);\n\n" ++
          "# g\nvr_out0 = y;\n\n\n\n# goalee\n" ++
          "\x7b x in [-1, 1] /\\ @FLT(x,24) /\\ y in [2, 3] /\\ " ++
          "@FLT(y,24) -> vr_out in ? /\\ vr_out0 in ? \x7d\n\n#hints\n") ∧
      capturing.assigned? verification = some ["y", "vr_out", "vr_out0"] ∧
      Function.inputs capturing.functions = ["x", "y"] :=
  ⟨by decide +kernel, rfl, by decide +kernel, by decide +kernel, by decide +kernel⟩

end Program

end Retarget
