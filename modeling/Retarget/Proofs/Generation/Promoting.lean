import Retarget.Proofs.Generation.Covered
import Retarget.Proofs.Generation.Faults

/-!
# Generation in registers

Promotion loses no lowering. Where a program is generated without it, the book has a rule for every
value (`Generator.covers_of_generate`). The same holds of what promotion makes of the values, and the
bodies of functions have no node in common, so each is as it was read when its turn comes
(`Graph.Keeps`). Languages other than C have no registers, and there promotion does nothing.
-/

namespace Retarget

variable {book : RuleBook} {base graph larger : Graph} {root id : NodeId}

theorem RuleBook.Tame.not_error_of_covers (tame : book.Tame) (covers : book.Covers graph id)
    {fault : Fault} : book.lower graph id ≠ .error fault := by
  intro failed
  obtain ⟨action, selected⟩ := covers
  cases (tame.unmatched_of_lower failed).2.symm.trans selected

/-- Where there are rules for all values, none is refused. -/
theorem Graph.RefusesFrom.of_covers {expected : Fault → Prop} (extended : book.ExtendsPortable)
    (tame : book.Tame) (grounded : ∀ id, graph.Reaches root id → id < graph.size)
    (covers : book.CoversFrom graph root) : graph.RefusesFrom expected book root where
  own id reached larger grows role fault failed := by
    have inside := grounded id reached
    rw [grows.operation_eq inside] at role
    have alike : graph.Alike larger id :=
      .of_grows grows inside fun operand uses => grounded operand (reached.tail uses)
    have kept := extended.guarded.covers alike (covers id reached role)
    exact absurd failed (tame.not_error_of_covers kept)
  built id _ middle _ later new lowered fresh beyond inside larger grows role fault failed := by
    obtain ⟨_, first, second, rebuilt, joins, rfl⟩ := extended.rebuilt lowered
    have covers := extended.covers_rebuilt rebuilt joins grows beyond inside role
    exact absurd failed (tame.not_error_of_covers covers)

/-! ## Bodies whose turn is yet to come -/

/-- What a root reaches stands in another graph, up to tags. -/
structure Graph.Keeps (base graph : Graph) (root : NodeId) : Prop where
  inside : ∀ id, base.Reaches root id → id < graph.size
  node : ∀ id, base.Reaches root id → ∃ tag, graph.node id = { base.node id with tag }

namespace Graph.Keeps

section

variable (keeps : base.Keeps graph root)

include keeps

theorem grows (grows : graph.Grows larger) : base.Keeps larger root where
  inside id reached := Nat.lt_of_lt_of_le (keeps.inside id reached) grows.size
  node id reached := by
    obtain ⟨_, here⟩ := keeps.node id reached
    obtain ⟨tag, there⟩ := grows.node id (keeps.inside id reached)
    exact ⟨tag, by rw [there, here]⟩

theorem reaches (reached : graph.Reaches root id) : base.Reaches root id := by
  induction reached with
  | refl => exact .refl
  | tail _ uses ih =>
    obtain ⟨tag, same⟩ := keeps.node _ ih
    rw [Operand, same] at uses
    exact ih.tail uses

theorem alike (reached : base.Reaches root id) : base.Alike graph id where
  node := keeps.node id reached
  format operand uses := by
    obtain ⟨tag, same⟩ := keeps.node operand (reached.tail uses)
    rw [same]
  payload operand uses := by
    obtain ⟨tag, same⟩ := keeps.node operand (reached.tail uses)
    rw [same]

theorem coversFrom (guarded : book.Guarded) (covers : book.CoversFrom base root) :
    book.CoversFrom graph root := by
  intro id reached role
  have before := keeps.reaches reached
  obtain ⟨tag, same⟩ := keeps.node id before
  rw [same] at role
  exact guarded.covers (keeps.alike before) (covers id before role)

/-- Promotion changes no node beyond its own root. -/
theorem promote {other : NodeId} (grounded : ∀ id, graph.Reaches other id → id < graph.size)
    (apart : ∀ id, base.Reaches root id → ¬ graph.Reaches other id) (promotions : Promotions)
    (book : RuleBook) : base.Keeps (graph.promote other promotions book).1 root := by
  rcases graph.promote_rewires other promotions book grounded rfl with
    ⟨_, same⟩ | ⟨state, rewired, _⟩
  · rw [same]
    exact keeps
  · have promotedTo := rewired.promotedTo
    refine ⟨fun id reached => ?_, fun id reached => ?_⟩
    · exact Nat.lt_of_lt_of_le (keeps.inside id reached) promotedTo.size_le
    · rw [promotedTo.untouched id (keeps.inside id reached) (apart id reached)]
      exact keeps.node id reached

end

end Graph.Keeps

namespace Job

variable {job : Job} {function : Function} {branches : Prop}

theorem coversFrom_promoted (extended : job.book.ExtendsPortable)
    (offNumbers : job.target.promotions.OffNumbers)
    (statement : graph.Statement branches function.body)
    (covers : job.book.CoversFrom graph function.body) :
    job.book.CoversFrom (job.promoted function graph) function.body := by
  unfold promoted
  split
  · exact covers.promote extended.guarded offNumbers extended.covers_conversion statement.grounded
  · exact covers

theorem statement_promoted (statement : graph.Statement branches function.body) :
    (job.promoted function graph).Statement branches function.body := by
  unfold promoted
  split
  · exact statement.promote _ _ statement
  · exact statement

theorem keeps_promoted (statement : graph.Statement branches function.body)
    (keeps : base.Keeps graph root)
    (apart : ∀ id, base.Reaches root id → ¬ graph.Reaches function.body id) :
    base.Keeps (job.promoted function graph) root := by
  unfold promoted
  split
  · exact keeps.promote statement.grounded apart _ _
  · exact keeps

end Job

namespace Generator

/-- Functions that have rules for all their values are generated, one after the other, unless a
fault comes up that has nothing to do with rules. -/
theorem generate_ends {job : Job} {program : Program} {functions : List Function}
    {before : Generator} {expected : Fault → Prop} (appends : job.book.Appends)
    (tame : job.book.Tame) (extended : job.book.ExtendsPortable)
    (offNumbers : job.target.promotions.OffNumbers)
    (tolerated : Fault.Tolerated program job.options.language expected)
    (known : ∀ function ∈ functions, function ∈ program.functions)
    (apart : functions.Pairwise fun first second =>
      ∀ id, program.graph.Reaches first.body id → ¬ program.graph.Reaches second.body id)
    (covers : ∀ function ∈ functions, job.book.CoversFrom program.graph function.body)
    (rest : before.AtRest job program)
    (keeps : ∀ function ∈ functions, program.graph.Keeps before.graph function.body) :
    Ends expected (functions.forM (generateFunction job)) before fun _ after =>
      after.AtRest job program := by
  induction functions generalizing before with
  | nil => exact .pure rest
  | cons function remaining ih =>
    obtain ⟨here, later⟩ := List.forall_mem_cons.mp known
    obtain ⟨hereCovers, laterCovers⟩ := List.forall_mem_cons.mp covers
    obtain ⟨hereKept, laterKept⟩ := List.forall_mem_cons.mp keeps
    obtain ⟨disjoint, apart⟩ := List.pairwise_cons.mp apart
    have statement := rest.bodies function here
    have covered := Job.coversFrom_promoted extended offNumbers statement
      (hereKept.coversFrom extended.guarded hereCovers)
    have refuses :
        (job.promoted function before.graph).RefusesFrom expected job.book function.body :=
      .of_covers extended tame (Job.statement_promoted statement).grounded covered
    refine (generateFunction_ends appends tame tolerated rest here refuses).bind ?_
    rintro _ after ⟨rest, grown⟩
    refine ih later apart laterCovers rest fun other member => ?_
    have away (id : NodeId) (reached : program.graph.Reaches other.body id) :
        ¬ before.graph.Reaches function.body id :=
      fun own => disjoint other member id (hereKept.reaches own) reached
    exact (Job.keeps_promoted statement (laterKept other member) away).grows grown

end Generator

/-! ## Jobs without registers -/

/-- The job with promotion, or without it. -/
def Job.promoting (job : Job) (promotes : Bool) : Job :=
  { job with options := { job.options with promoteRegisters := promotes } }

namespace Generator

variable (job : Job) (promotes : Bool)

theorem work_promoting (steps : Nat) (path : List NodeId) (pending : List Work) :
    work (job.promoting promotes) steps path pending = work job steps path pending := by
  induction steps generalizing path pending with
  | zero => cases pending <;> rfl
  | succ steps ih =>
    cases pending with
    | nil => rfl
    | cons next rest =>
      have same : step (job.promoting promotes) path next = step job path next := by
        cases next <;> rfl
      simp only [work, same, ih]

theorem lowerStatement_promoting (depth : Nat) :
    lowerStatement (job.promoting promotes) depth = lowerStatement job depth := by
  induction depth with
  | zero => rfl
  | succ depth ih =>
    funext id
    simp only [lowerStatement, lowerCondition, lowerExpression, lowerWithin, ih, work_promoting]
    rfl

theorem writeFunction_promoting (function : Function) :
    writeFunction (job.promoting promotes) function = writeFunction job function := by
  simp only [writeFunction, generateC, generateVhdl, generateGappa, lowerBody,
    lowerStatement_promoting]
  rfl

section

variable (none : job.target.promotions.isEmpty = true) (function : Function)

include none

/-- Where nothing can be promoted, promotion changes nothing. -/
theorem promote_of_isEmpty : promote job function = pure () := by
  funext before
  unfold promote
  split
  · have same : before.graph.promote function.body job.target.promotions job.book =
        (before.graph, 0) := if_pos none
    change EStateM.Result.ok () { before with
      graph := (before.graph.promote function.body job.target.promotions job.book).1
      session := before.session.promoted
        (before.graph.promote function.body job.target.promotions job.book).2 } = _
    rw [same]
    rfl
  · rfl

theorem generateFunction_promoting :
    generateFunction (job.promoting promotes) function = generateFunction job function := by
  have same := promote_of_isEmpty (job.promoting promotes) none function
  simp only [generateFunction, same, promote_of_isEmpty job none, writeFunction_promoting]

end

end Generator

namespace Program

variable {program : Program} {target : Target} {options : Options}

/-- A file comes of a run over all functions. -/
theorem exists_run_of_generate (generated : (program.generate target options).code.isOk = true) :
    ∃ book, target.books.get? options.language = some book ∧
      ∃ final, program.functions.forM (Generator.generateFunction { target, book, options })
        (Job.start { target, book, options } program.graph) = .ok () final := by
  unfold generate Target.job Target.book at generated
  cases known : target.books.get? options.language with
  | none =>
    rw [known] at generated
    cases generated
  | some book =>
    refine ⟨book, rfl, ?_⟩
    rw [known] at generated
    dsimp only [bind, Except.bind, pure, Except.pure] at generated
    split at generated
    · exact ⟨_, by assumption⟩
    · cases generated

/-- A target that promotes nothing generates one file, with promotion and without it. -/
theorem generate_of_promotions_isEmpty (none : target.promotions.isEmpty = true)
    (promotes : Bool) :
    (program.generate target { options with promoteRegisters := promotes }).code =
      (program.generate target options).code := by
  unfold generate Target.job Target.book
  cases target.books.get? options.language with
  | none => rfl
  | some book =>
    dsimp only [bind, Except.bind, pure, Except.pure]
    have same : Generator.generateFunction
          { target, book, options := { options with promoteRegisters := promotes } } =
        Generator.generateFunction { target, book, options } :=
      funext (Generator.generateFunction_promoting { target, book, options } promotes none)
    rw [same]
    rfl

/-- A program that is read from a text and generated without promotion, for a target of the library,
is generated with promotion too. It may fail only by a name that the text gives and that a longer
body has taken, so never for want of a rule. -/
theorem generate_of_unpromoted {text name : String} (read : Source.read text = .ok program)
    (found : Catalog.builtin.target name = .ok target)
    (generated :
      (program.generate target { options with promoteRegisters := false }).code.isOk = true) :
    (∃ code, (program.generate target { options with promoteRegisters := true }).code = .ok code) ∨
      ∃ fault,
        (program.generate target { options with promoteRegisters := true }).code = .error fault ∧
        ¬ fault.IsUnmatched ∧
        ∃ taken category, fault = .nameCollision taken category ∧ program.Gives taken := by
  obtain ⟨book, known, final, done⟩ := exists_run_of_generate generated
  by_cases language : options.language = .c
  · have formed := Source.read_formed text program read
    have stated := Source.read_stated text program read
    have orderly := Catalog.builtin_orderly found _ book known
    have tame := Catalog.builtin_tame found _ book known
    have extended : book.ExtendsPortable := by
      rw [language] at known
      exact Catalog.builtin_extendsPortable found known
    have covers := Generator.covers_of_generate language orderly extended tame formed.graph rfl
      stated (Generator.start_between _ language program.graph) (.refl _) done
    let job : Job := { target, book, options := { options with promoteRegisters := true } }
    have planned : target.job job.options = .ok job := Target.job_eq_ok.mpr ⟨book, known, rfl⟩
    have tolerated : Fault.Tolerated program job.options.language fun fault =>
        ¬ fault.IsUnmatched ∧
        ∃ taken category, fault = .nameCollision taken category ∧ program.Gives taken := by
      refine ⟨fun _ taken given category => ⟨id, taken, category, rfl, given⟩, ?_, ?_⟩
      · exact fun other => absurd (language.symm.trans other) (by decide)
      · exact fun other => absurd (language.symm.trans other) (by decide)
    have kept (function : Function) (member : function ∈ program.functions) :
        program.graph.Keeps program.graph function.body :=
      ⟨(stated function member).grounded, fun _ _ => ⟨_, rfl⟩⟩
    exact generate_of_ends planned (Generator.generate_ends orderly.appends tame extended
      (Catalog.builtin_offNumbers found) tolerated (fun _ member => member)
      (formed.apart.imp fun apart => apart.disjoint formed.graph) covers
      (Generator.start_atRest job stated) kept)
  · -- Both runs are one.
    have none := Catalog.builtin_promotions_isEmpty found known language
    rw [generate_of_promotions_isEmpty none] at generated ⊢
    cases made : (program.generate target options).code with
    | ok code => exact .inl ⟨code, rfl⟩
    | error fault =>
      rw [made] at generated
      cases generated

/-- A function with vectors that are used in both branches of a conditional. -/
def vectorsText : String :=
  "func scale(x: v8float32, b: bool) -> v8float32 \x7b\n%s = add %x, %x : v8float32\n" ++
    "%d = div %s, %x : v8float32\nif %b \x7b\nreturn %d\n\x7d\nreturn %s\n\x7d"

/-- The program of that text. -/
def vectors : Program where
  graph :=
    ⟨#[{ operation := .variable, format := .vector .binary32 8, payload := .variable "x" },
      { operation := .variable, format := .bool, payload := .variable "b" },
      { operation := .addition, operands := [0, 0], format := .vector .binary32 8 },
      { operation := .division, operands := [2, 0], format := .vector .binary32 8 },
      { operation := .ret, operands := [3], format := .void },
      { operation := .condition, operands := [1, 4], format := .void },
      { operation := .ret, operands := [2], format := .void },
      { operation := .sequence, operands := [5, 6], format := .void }]⟩
  functions :=
    [{ name := "scale"
       arguments := [{ name := "x", format := .vector .binary32 8, node := 0 },
         { name := "b", format := .bool, node := 1 }]
       result := .vector .binary32 8
       body := 7 }]

theorem generate_of_unpromoted_vectors :
    Source.read vectorsText = .ok vectors ∧
      Catalog.builtin.target "x86_avx" = .ok Intrinsics.avx ∧
      (∃ book, Intrinsics.avx.books.get? .c = some book ∧
        ∀ id ∈ [2, 3], vectors.graph.isPromoted Intrinsics.avx.promotions book id = true) ∧
      (vectors.generate Intrinsics.avx { promoteRegisters := false }).code.isOk = true ∧
      ((∃ code, (vectors.generate Intrinsics.avx { promoteRegisters := true }).code = .ok code) ∨
        ∃ fault,
          (vectors.generate Intrinsics.avx { promoteRegisters := true }).code = .error fault ∧
          ¬ fault.IsUnmatched ∧
          ∃ taken category, fault = .nameCollision taken category ∧ vectors.Gives taken) := by
  have read : Source.read vectorsText = .ok vectors := by decide +kernel
  have found : Catalog.builtin.target "x86_avx" = .ok Intrinsics.avx := rfl
  have generated : (vectors.generate Intrinsics.avx
      { promoteRegisters := false }).code.isOk = true := by decide +kernel
  exact ⟨read, found, ⟨_, rfl, by decide +kernel⟩, generated,
    @generate_of_unpromoted vectors Intrinsics.avx {} _ _ read found generated⟩

end Program

end Retarget
