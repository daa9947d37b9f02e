import Retarget.Generation.Function
import Retarget.Proofs.Output.Layout
import Retarget.Proofs.Template.Instance

/-!
# What lowering of values is put together from

The lowering of a value names things, writes whole lines, requires headers and keeps records, in
some order. A relation between states that allows each of these steps (`Generator.Allows`) holds
between the states before and after, whether the lowering succeeds or not. Leaves and templates
take only some of them (`Generator.Permits`).
-/

namespace Retarget

theorem WholeLines.assignment (language : Language) (destination value : String) (signal : Bool) :
    WholeLines (language.assignment destination value signal) := by
  cases language <;> exact .append_line _ (by decide)

theorem Target.job_eq_ok {target : Target} {options : Options} {job : Job} :
    target.job options = .ok job ↔
      ∃ book, target.books.get? options.language = some book ∧ job = { target, book, options } := by
  unfold Target.job Target.book
  cases target.books.get? options.language with
  | none => exact ⟨nofun, fun ⟨_, impossible, _⟩ => by cases impossible⟩
  | some book =>
    constructor
    · rintro ⟨⟩
      exact ⟨book, rfl, rfl⟩
    · rintro ⟨_, ⟨⟩, rfl⟩
      rfl

/-- A generator starts with a new document that is told what the heads of files list. -/
theorem Job.start_document (job : Job) (graph : Graph) :
    ∃ headers libraries headerComments, (job.start graph).document =
      (Document.create job.options.language job.options.sharing).modifyRoot
        ({ · with headers, libraries, headerComments }) := by
  have headed (draft : Draft) : ∃ headers libraries,
      addStandardHeaders job.options.language draft = { draft with headers, libraries } := by
    unfold addStandardHeaders
    split <;> exact ⟨_, _, rfl⟩
  let created := Document.create job.options.language job.options.sharing
  obtain ⟨comments, commented⟩ :=
    created.current.foldl_addHeaderComment_eq job.options.headerComments
  obtain ⟨headers, libraries, listed⟩ := headed { created.current with headerComments := comments }
  have current := (congrArg (addStandardHeaders job.options.language) commented).trans listed
  exact ⟨headers, libraries, comments, congrArg (fun current => { created with current }) current⟩

namespace Generator

theorem wholeLines_endLine (text : String) : WholeLines (endLine text) := by
  unfold endLine
  split
  · rename_i last
    obtain ⟨front, same⟩ := List.getLast?_eq_some_iff.mp last
    unfold WholeLines
    rw [same, Lines.ended_append]
    rfl
  · exact .of_newline text

theorem finalState_onDocument {α : Type} (action : DocumentM α) (generator : Generator) :
    finalState (onDocument action generator) =
      { generator with document := finalState (action generator.document) } := by
  unfold onDocument
  cases action generator.document <;> rfl

/-- A relation holds across each of the steps that the lowering of leaves and templates is put
together from. -/
structure Permits (related : Generator → Generator → Prop) : Prop where
  records : ∀ (generator : Generator) (tables : OrderedMap NodeId EntityId) (session : Session),
    related generator { generator with tables, session }
  header : ∀ header, Changes related (onDocument (Document.addHeader header))
  library : ∀ library, Changes related (onDocument (Document.addLibrary library))
  alloc : ∀ entity, Changes related (onNames (Naming.alloc entity))
  temporary : ∀ stem format, Changes related (onDocument (Document.declareTemporary stem format))
  constant : ∀ value format stem,
    Changes related (onNames (Naming.declareConstantValue value format stem))
  table : ∀ entity stem, Changes related (onNames (Naming.declareTable entity stem))
  writes : ∀ text, WholeLines text → Changes related (write text)

namespace Permits

variable {related : Generator → Generator → Prop} [IsTrans Generator related] [Std.Refl related]
  (permits : Permits related)

include permits

omit [IsTrans Generator related] [Std.Refl related] in
theorem record (change : Session → Session) : Changes related (record change) :=
  .modify fun generator => permits.records generator _ _

theorem materialize (stem code : String) (format : Format) :
    Changes related (materialize stem code format) :=
  .get_bind fun generator => Changes.bind (permits.temporary stem format) (fun _ =>
    .bind (permits.writes _ (.assignment _ _ _ _)) fun _ => .bind (permits.record _) fun _ =>
      .pure _) generator

theorem instantiate (language : Language) (operands : List String) (result : Option String)
    (format : Format) (template : Template) :
    Changes related (template.instantiate (surroundings language) operands result format) := by
  have sequential : @Sequential GeneratorM GeneratorM _ _ _ _
      fun _ action _ => Changes related action :=
    ⟨.pure, .throw, .bind⟩
  have answers : Surroundings.Related (fun _ action _ => Changes related action)
      (surroundings language) (surroundings language) :=
    ⟨permits.header, permits.library, permits.materialize "tmp", rfl⟩
  exact template.instantiate_related sequential answers operands result format

theorem tableEntity (id : NodeId) (values : List Scalar) (format : Format) :
    Changes related (tableEntity id values format) := by
  refine .get_bind fun generator => ?_
  cases generator.tables.get? id with
  | some entity => exact Std.Refl.refl generator
  | none =>
    refine Changes.bind (permits.alloc _) (fun _ => .bind (.modify fun state => ?_) fun _ =>
      .pure _) generator
    exact permits.records state _ _

theorem lowerLeaf (options : Options) (id : NodeId) (node : Node) :
    Changes related (lowerLeaf options id node) := by
  unfold Generator.lowerLeaf
  split
  · exact .pure _
  · split
    · exact permits.constant _ _ _
    · exact .pure _
  · exact .bind (permits.tableEntity id _ _) fun entity => .bind (permits.table entity _) fun _ =>
      .bind (permits.record _) fun _ => .pure _
  · exact .throw _

theorem emitOver (options : Options) (id : NodeId) (template : Template) (operands : List String) :
    Changes related (emitOver options id template operands) := by
  refine .get_bind fun generator => Changes.bind (permits.record _) (fun _ => ?_) generator
  split
  · exact .bind (permits.temporary _ _) fun _ => .bind (permits.record _) fun _ =>
      .bind (permits.instantiate _ _ _ _ template) fun code =>
        .bind (permits.writes _ (wholeLines_endLine code)) fun _ => .pure _
  · refine .bind (permits.instantiate _ _ _ _ template) fun code => ?_
    dsimp only
    split
    · exact permits.materialize _ code _
    · exact .pure code

end Permits

/-- A relation holds across each of the steps that lowering of values is put together from. -/
structure Allows (job : Job) (related : Generator → Generator → Prop) : Prop
    extends Permits related where
  memos : ∀ (generator : Generator) (memo : Memo) (uses : Graph.Uses),
    related generator { generator with memo, uses }
  replaces : ∀ {generator : Generator} {graph : Graph} {id replacement : NodeId},
    job.book.lower generator.graph id = .ok (.replaced graph replacement) →
    related generator { generator with graph }

namespace Allows

variable {job : Job} {related : Generator → Generator → Prop}

theorem remember (allows : Allows job related) (id : NodeId) (code : String) :
    Changes related (remember id code) :=
  .modify fun generator => allows.memos generator _ _

variable [IsTrans Generator related]

theorem replace (allows : Allows job related) {generator : Generator} {graph : Graph}
    {id replacement : NodeId}
    (lowered : job.book.lower generator.graph id = .ok (.replaced graph replacement)) :
    related generator (finalState (replace graph id replacement generator)) :=
  IsTrans.trans _ { generator with graph } _ (allows.replaces lowered) (IsTrans.trans _ _ _
    (allows.memos { generator with graph } generator.memo _) (allows.records _ _ _))

variable [Std.Refl related]

section

variable (allows : Allows job related)

include allows

theorem step (path : List NodeId) (next : Work) : Changes related (step job path next) := by
  cases next with
  | visit id =>
    refine .get_bind fun generator => ?_
    dsimp only
    split
    · exact Std.Refl.refl generator
    split
    · exact Std.Refl.refl generator
    cases (generator.graph.node id).operation.role with
    | statement => exact Std.Refl.refl generator
    | leaf =>
      exact Changes.bind (allows.lowerLeaf _ _ _) (fun _ => .bind (allows.remember _ _)
        fun _ => .pure _) generator
    | value =>
      dsimp only
      cases lowered : job.book.lower generator.graph id with
      | error fault => exact Std.Refl.refl generator
      | ok lowering =>
        cases lowering with
        | template template => exact Std.Refl.refl generator
        | replaced graph replacement => exact allows.replace lowered
  | emit id template =>
    have emitted : Changes related (emit job.options id template) :=
      .get_bind fun generator =>
        Changes.bind (.liftExcept _) (fun _ => allows.emitOver _ _ _ _) generator
    exact .bind emitted fun code => .bind (allows.remember id code) fun _ => .pure _
  | share id replacement =>
    refine .get_bind fun generator => ?_
    cases generator.code? replacement with
    | some code => exact Changes.bind (allows.remember _ _) (fun _ => .pure _) generator
    | none => exact Std.Refl.refl generator

theorem work (steps : Nat) (path : List NodeId) (stack : List Work) :
    Changes related (work job steps path stack) := by
  induction steps generalizing path stack with
  | zero => cases stack <;> exact .pure _
  | succ steps ih =>
    cases stack with
    | nil => exact .pure _
    | cons next rest => exact .bind (allows.step path next) fun result => ih _ _

/-- What the steps allow holds across the lowering of every value. -/
theorem lowerExpression (root : NodeId) : Changes related (lowerExpression job root) := by
  have within (steps : Nat) : Changes related (lowerWithin job steps root) := by
    refine .bind (allows.work steps _ _) fun enough => ?_
    split
    · refine .get_bind fun generator => ?_
      cases generator.code? root <;> exact Std.Refl.refl generator
    · exact .pure _
  refine .get_bind fun generator => Changes.bind (within _) (fun found => ?_) generator
  cases found with
  | none => exact .throw _
  | some code => exact .pure _

end

end Allows

end Generator

end Retarget
