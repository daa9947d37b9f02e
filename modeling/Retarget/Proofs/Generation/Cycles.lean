import Retarget.Proofs.Generation.Bounded
import Retarget.Proofs.Generation.Dependency
import Retarget.Proofs.Generation.WorkStack
import Retarget.Proofs.Output.Balance

/-!
# Lowering finds cycles

Pending work stands in order where the nodes on the way are those whose code is still to be written,
and where no cycle is met from the root, no node that is to be visited leads back to one on the way
(`Generator.Stands`). Every step keeps this order, and a node is remembered only after its parts, so
no cycle is met from it.

So a cycle is reported only where there is one, and no code is given for a node with a cycle ahead of
it (`Generator.lowerExpression_finds_cycles`).
-/

namespace Retarget

open List
open Relation (ReflTransGen TransGen)

/-! ## Other faults -/

/-- A fault that reports no cycle. -/
def Fault.Acyclic (fault : Fault) : Prop :=
  ∀ id, fault ≠ .graph (.cycle id)

/-- An action that reports no cycle. -/
def Quiet {σ α : Type} (action : EStateM Fault σ α) : Prop :=
  ∀ before, Ends Fault.Acyclic action before fun _ _ => True

namespace Quiet

variable {σ α β : Type}

theorem pure (value : α) : Quiet (Pure.pure value : EStateM Fault σ α) :=
  fun _ => .pure trivial

theorem bind {action : EStateM Fault σ α} {next : α → EStateM Fault σ β} (first : Quiet action)
    (rest : ∀ value, Quiet (next value)) : Quiet (action >>= next) :=
  fun before => (first before).bind fun value middle _ => rest value middle

theorem withNames {action : NamingM α} (quiet : Quiet action) :
    Quiet (Document.withNames action) := by
  intro before
  cases outcome : action before.naming with
  | ok value naming => exact .of_eq_ok (Document.withNames_of_eq_ok outcome) trivial
  | error fault naming =>
    exact .of_eq_error (Document.withNames_of_eq_error outcome)
      ((quiet _).failing_of_eq_error outcome)

theorem onDocument {action : DocumentM α} (quiet : Quiet action) :
    Quiet (Generator.onDocument action) := by
  intro before
  unfold Ends EndsIn Generator.onDocument
  cases outcome : action before.document with
  | ok value document => trivial
  | error fault document => exact (quiet before.document).failing_of_eq_error outcome

end Quiet

namespace Naming

theorem declare_quiet (category : Category) (name : String) (entity : EntityId) :
    Quiet (declare category name entity) := by
  refine fun naming => .get_bind ?_
  cases declared : naming.scope.declare naming.tables category name entity with
  | ok tables => exact trivial
  | error fault =>
    unfold Scope.declare NameTable.declare at declared
    change fault.Acyclic
    intro id
    rintro rfl
    split at declared
    · cases declared
    · split at declared
      · cases declared
      · split at declared
        · cases declared
        · cases declared

theorem declareFree_quiet (category : Category) (stem : String) (entity : EntityId) :
    Quiet (declareFree category stem entity) :=
  .bind (fun _ => trivial) fun name => .bind (declare_quiet category name entity) fun _ => .pure name

theorem declareConstantValue_quiet (value : Scalar) (format : Format) (stem : String) :
    Quiet (declareConstantValue value format stem) :=
  .bind (fun _ => trivial) fun id => .bind (fun _ => trivial) fun name =>
    .bind (declare_quiet .constant name id) fun _ => .pure name

theorem declareTable_quiet (entity : EntityId) (stem : String) : Quiet (declareTable entity stem) := by
  refine fun naming => .get_bind ?_
  cases naming.scope.tableName? naming.tables entity with
  | some name => exact trivial
  | none => exact Quiet.bind (declareFree_quiet .table stem entity) (fun _ => .pure _) naming

end Naming

theorem Document.declareTemporary_quiet (stem : String) (format : Format) :
    Quiet (declareTemporary stem format) := by
  have new (category : Category) (entity : Entity) :
      Quiet (Naming.declareNew category stem entity) :=
    .bind (fun _ => trivial) fun name => .bind (fun _ => trivial) fun id =>
      .bind (Naming.declare_quiet category name id) fun _ => .pure name
  intro before
  apply EndsIn.get_bind
  apply Quiet.withNames
  unfold Draft.declareTemporary
  split
  · exact new _ _
  · exact new _ _

namespace Generator

variable {job : Job}

theorem materialize_quiet (stem code : String) (format : Format) :
    Quiet (materialize stem code format) :=
  .bind (fun _ => trivial) fun _ => .bind (.onDocument (Document.declareTemporary_quiet stem format))
    fun _ => .bind (fun _ => trivial) fun _ => .bind (fun _ => trivial) fun _ => .pure _

theorem lowerLeaf_quiet (options : Options) (id : NodeId) (node : Node) :
    Quiet (lowerLeaf options id node) := by
  unfold lowerLeaf
  split
  · exact .pure _
  · split
    · exact .onDocument (.withNames (Naming.declareConstantValue_quiet _ _ _))
    · exact .pure _
  · have entity (values : List Scalar) : Quiet (tableEntity id values node.format) := by
      refine fun before => .get_bind ?_
      split
      · exact trivial
      · exact trivial
    exact .bind (entity _) fun _ => .bind (.onDocument (.withNames (Naming.declareTable_quiet _ _)))
      fun _ => .bind (fun _ => trivial) fun _ => .pure _
  · exact fun _ _ => nofun

theorem emitOver_quiet (options : Options) (id : NodeId) {template : Template} {codes : List String}
    (fits : template.fits codes.length template.form.writesResult = true) :
    Quiet (emitOver options id template codes) := by
  have answer : (surroundings options.language).Answer Fault.Acyclic fun _ => True :=
    ⟨fun _ _ _ => trivial, fun _ _ _ => trivial,
      fun code format before _ => materialize_quiet "tmp" code format before⟩
  have made {result : Option String} (format : Format)
      (fitting : template.fits codes.length result.isSome = true) :
      Quiet (template.instantiate (surroundings options.language) codes result format) :=
    fun _ => Template.instantiate_ends answer format trivial template fitting
  have recorded (change : Session → Session) : Quiet (record change) := fun _ => trivial
  refine fun before => .get_bind (Quiet.bind (recorded _) (fun _ => ?_) before)
  dsimp only
  split
  · rename_i writes
    rw [writes] at fits
    exact .bind (.onDocument (Document.declareTemporary_quiet _ _)) fun _ =>
      .bind (fun _ => trivial) fun _ => .bind (made _ fits) fun _ =>
        .bind (fun _ => trivial) fun _ => .pure _
  · rename_i writes
    rw [Bool.not_eq_true] at writes
    rw [writes] at fits
    refine .bind (made _ fits) fun code => ?_
    split
    · exact materialize_quiet _ code _
    · exact .pure code

theorem operandCodes_acyclic {generator : Generator} {operands : List NodeId} {fault : Fault}
    (failed : generator.operandCodes operands = .error fault) : fault.Acyclic := by
  induction operands with
  | nil => cases failed
  | cons operand rest ih =>
    unfold operandCodes at failed
    split at failed
    · cases others : generator.operandCodes rest with
      | ok codes =>
        rw [others] at failed
        cases failed
      | error other =>
        rw [others] at failed
        cases failed
        exact ih others
    · cases failed
      exact fun _ => nofun

theorem emit_quiet (options : Options) {id : NodeId} {template : Template} {before : Generator}
    (fits : template.fits (before.graph.node id).operands.length template.form.writesResult = true) :
    Ends Fault.Acyclic (emit options id template) before fun _ _ => True := by
  refine .get_bind ?_
  cases listed : before.operandCodes (before.graph.node id).operands with
  | error fault => exact operandCodes_acyclic listed
  | ok codes =>
    have length := congrArg List.length (operandCodes_eq_ok.mp listed)
    rw [length_map, length_map] at length
    rw [length] at fits
    exact emitOver_quiet options id fits before

/-! ## The order of pending work -/

section Course

variable (start : Generator) (book : RuleBook) (clear : Prop)

/-- A node can be visited: it is on the ground and, where no cycle is to be met, none is met from it
and it does not lead back to a node on the way. -/
structure Passable (graph : Graph) (path : List NodeId) (id : NodeId) : Prop where
  grounded : graph.GroundedFrom id
  free : clear → start.Free book graph id
  onward : clear → ∀ place ∈ path, place < graph.size ∧
    ¬ ReflTransGen (start.Needs book graph) id place

/-- What takes the place of a node has all parts of the node. -/
structure Stead (graph : Graph) (id new : NodeId) : Prop where
  grounded : graph.GroundedFrom id
  newGrounded : graph.GroundedFrom new
  needs : ∀ part, start.Needs book graph id part → start.Needs book graph new part

/-- Pending work in order: the nodes on the way are those whose code is to be written, from the
innermost to the outermost. -/
inductive Course (graph : Graph) : List NodeId → List Work → Prop where
  | nil {path : List NodeId} : Course graph path []
  | visit {path : List NodeId} {id : NodeId} {stack : List Work}
      (passable : Passable start book clear graph path id) (rest : Course graph path stack) :
      Course graph path (.visit id :: stack)
  | emit {path : List NodeId} {id : NodeId} {template : Template} {stack : List Work}
      (grounded : graph.GroundedFrom id)
      (fits : template.fits (graph.node id).operands.length template.form.writesResult = true)
      (rest : Course graph path stack) : Course graph (id :: path) (.emit id template :: stack)
  | share {path : List NodeId} {id new : NodeId} {stack : List Work}
      (stead : Stead start book graph id new) (rest : Course graph path stack) :
      Course graph (id :: path) (.share id new :: stack)

/-- Work stands in order, and no cycle is met from a node that was remembered on the way. -/
structure Stands (now : Generator) (path : List NodeId) (stack : List Work) : Prop where
  grows : start.graph.Grows now.graph
  kept : ∀ id, now.code? id = none → start.code? id = none
  known : ∀ id, now.code? id ≠ none → start.code? id = none →
    now.graph.GroundedFrom id ∧ start.Free book now.graph id
  course : Course start book clear now.graph path stack

end Course

variable {start before after : Generator} {book : RuleBook} {clear : Prop} {graph later : Graph}
  {path : List NodeId} {id new : NodeId} {stack : List Work}

theorem Passable.grows (passable : Passable start book clear graph path id) (steady : book.Steady)
    (grows : graph.Grows later) : Passable start book clear later path id where
  grounded := passable.grounded.grows grows
  free clear := (free_iff steady passable.grounded grows).mpr (passable.free clear)
  onward clear place member := by
    obtain ⟨inside, apart⟩ := passable.onward clear place member
    refine ⟨Nat.lt_of_lt_of_le inside grows.size, fun chain => apart ?_⟩
    exact (chain_of_grows steady passable.grounded grows chain).1

theorem Course.grows (course : Course start book clear graph path stack) (steady : book.Steady)
    (grows : graph.Grows later) : Course start book clear later path stack := by
  induction course with
  | nil => exact .nil
  | visit passable _ ih => exact .visit (passable.grows steady grows) ih
  | emit grounded fits _ ih =>
    refine .emit (grounded.grows grows) ?_ ih
    rw [grows.operands_eq grounded.lt_size]
    exact fits
  | share stead _ ih =>
    refine .share ⟨stead.grounded.grows grows, stead.newGrounded.grows grows, ?_⟩ ih
    intro part needs
    rw [needs_iff steady stead.newGrounded grows]
    exact stead.needs part ((needs_iff steady stead.grounded grows).mp needs)

/-- A node can be passed on to a part of it. -/
theorem Passable.part (passable : Passable start book clear graph path id) {part : NodeId}
    (needs : start.Needs book graph id part) :
    Passable start book clear graph (id :: path) part where
  grounded := needs.grounded passable.grounded
  free clear := (passable.free clear).of_needs needs
  onward clear := by
    refine forall_mem_cons.mpr ⟨⟨passable.grounded.lt_size, fun back => ?_⟩, ?_⟩
    · exact passable.free clear id .refl (.head' needs back)
    · intro place member
      obtain ⟨inside, apart⟩ := passable.onward clear place member
      exact ⟨inside, fun back => apart (.head needs back)⟩

/-- Nodes that can all be visited are put before the rest. -/
theorem Course.visits {operands : List NodeId}
    (each : ∀ operand ∈ operands, Passable start book clear graph path operand)
    (rest : Course start book clear graph path stack) :
    Course start book clear graph path (operands.map .visit ++ stack) := by
  induction operands with
  | nil => exact rest
  | cons operand others ih =>
    obtain ⟨here, onward⟩ := forall_mem_cons.mp each
    exact .visit here (ih onward)

/-- A node can be passed on to what takes its place. -/
theorem Passable.replaced (passable : Passable start book clear graph path id)
    (steady : book.Steady) (unknown : start.code? id = none)
    (lowered : book.lower graph id = .ok (.replaced later new)) :
    Passable start book clear later (id :: path) new := by
  have takes := steady.takesPlace lowered
  -- The node in its place is new, so a way back to an old node is a way from the replaced one.
  have back {place : NodeId} (old : place < graph.size)
      (chain : ReflTransGen (start.Needs book later) new place) :
      TransGen (start.Needs book graph) id place := by
    rcases Relation.reflTransGen_iff_eq_or_transGen.mp chain with same | chain
    · rw [same, takes.last] at old
      exact absurd old (Nat.not_lt_of_le (Nat.le_succ _))
    · exact loop_of_replaced steady passable.grounded unknown lowered old chain
  refine ⟨passable.grounded.replaced takes, fun clear =>
    (passable.free clear).replaced steady passable.grounded unknown lowered, fun clear => ?_⟩
  refine forall_mem_cons.mpr ⟨⟨?_, fun chain => ?_⟩, fun place member => ?_⟩
  · exact Nat.lt_of_lt_of_le passable.grounded.lt_size takes.grows.size
  · exact passable.free clear id .refl (back passable.grounded.lt_size chain)
  · obtain ⟨inside, apart⟩ := passable.onward clear place member
    exact ⟨Nat.lt_of_lt_of_le inside takes.grows.size,
      fun chain => apart (back inside chain).to_reflTransGen⟩

namespace Stands

/-- A node is remembered that meets no cycle. -/
theorem remember {onward : List NodeId} {rest : List Work} {code : String} {middle : Generator}
    (stands : Stands start book clear before path stack) (same : SameCodes before middle)
    (grounded : before.graph.GroundedFrom id) (free : start.Free book before.graph id)
    (course : Course start book clear before.graph onward rest) :
    Stands start book clear (finalState (remember id code middle)) onward rest := by
  have graph : (finalState (Generator.remember id code middle)).graph = before.graph := same.graph
  refine ⟨?_, fun other unknown => ?_, fun other known fresh => ?_, ?_⟩
  · rw [graph]
    exact stands.grows
  · rw [code?_remember, same.code?] at unknown
    split at unknown
    · cases unknown
    · exact stands.kept other unknown
  · rw [graph]
    rw [code?_remember, same.code?] at known
    split at known
    · rename_i here
      rw [← here]
      exact ⟨grounded, free⟩
    · exact stands.known other known fresh
  · rw [graph]
    exact course

/-- No cycle is met from a node with a code. -/
theorem free_of_code (stands : Stands start book clear before path stack)
    (known : before.code? id ≠ none) : start.Free book before.graph id := by
  by_cases fresh : start.code? id = none
  · exact (stands.known id known fresh).2
  · exact .of_parts fun _ needs => absurd needs.1 fresh

variable {job : Job} {next : Work} {onward : List NodeId} {more : List Work}
  (stands : Stands start job.book clear before path (next :: stack)) (steady : job.book.Steady)

include stands steady

/-- What one step keeps. -/
theorem step (fresh : ∀ place, start.graph.size ≤ place → start.code? place = none)
    (stepped : step job path next before = .ok (onward, more) after) :
    Stands start job.book clear after onward (more ++ stack) := by
  have course := stands.course
  cases outcome_of_eq stepped with
  | skip known =>
    cases course with
    | visit _ rest => exact { stands with course := rest }
  | leaf unknown idle role same =>
    cases course with
    | visit passable rest =>
      have free : start.Free job.book before.graph _ :=
        .of_parts fun _ needs => absurd role needs.2.role
      exact stands.remember same passable.grounded free rest
  | @await id template unknown idle role lowered =>
    cases course with
    | visit passable rest =>
      have computed : (before.graph.node id).operation.role ≠ .leaf := by
        rw [role]
        nofun
      have fits : template.fits (before.graph.node id).operands.length
          template.form.writesResult = true := by
        cases steady.tame.lower_cases before.graph id with
        | unmatched failed _ _ => cases failed.symm.trans lowered
        | replaced other _ _ _ => cases other.symm.trans lowered
        | written other fits =>
          cases other.symm.trans lowered
          exact fits
      refine { stands with course := ?_ }
      rw [append_assoc]
      refine .visits (fun operand uses => passable.part ⟨stands.kept id unknown, ?_⟩)
        (.emit passable.grounded fits rest)
      refine RuleBook.partOf_of_unreplaced (fun _ _ other => ?_) computed uses
      cases other.symm.trans lowered
  | @replace id new later unknown idle role lowered =>
    cases course with
    | visit passable rest =>
      have takes := steady.takesPlace lowered
      have grounded := passable.grounded
      have newUnknown : start.code? new = none := by
        apply fresh
        rw [takes.last]
        exact Nat.le_succ_of_le stands.grows.size
      refine ⟨stands.grows.trans takes.grows, stands.kept, fun other known unknown => ?_, ?_⟩
      · obtain ⟨inside, free⟩ := stands.known other known unknown
        exact ⟨inside.grows takes.grows, (free_iff steady inside takes.grows).mpr free⟩
      · refine .visit (passable.replaced steady (stands.kept id unknown) lowered)
          (.share ⟨grounded.grows takes.grows, grounded.replaced takes, fun part needs => ?_⟩
            (rest.grows steady takes.grows))
        have before := (needs_iff steady grounded takes.grows).mp needs
        exact ⟨newUnknown, takes.partOf lowered before.2⟩
  | @emit id template code middle emitted =>
    cases course with
    | emit grounded fits rest =>
      rw [erase_cons_head]
      have same := (emit_sameCodes job.options id template).of_eq_ok emitted
      refine stands.remember same grounded (.of_parts fun part needs => ?_) rest
      apply stands.free_of_code
      rw [← Option.isSome_iff_ne_none]
      exact isSome_code?_of_emit emitted needs.2.uses
  | @share id new code known =>
    cases course with
    | share stead rest =>
      rw [erase_cons_head]
      have free : start.Free job.book before.graph new := by
        apply stands.free_of_code
        rw [known]
        nofun
      refine stands.remember (Std.Refl.refl before) stead.grounded ?_ rest
      exact .of_parts fun part needs => free.of_needs (stead.needs part needs)

/-- A step reports a cycle only where one is met. -/
theorem acyclic_of_step {fault : Fault}
    (stepped : Generator.step job path next before = .error fault after) (free : clear) :
    fault.Acyclic := by
  have course := stands.course
  cases outcome_of_eq stepped with
  | cycle visited =>
    cases course with
    | visit passable _ => exact absurd .refl (passable.onward free _ visited).2
  | statement => exact fun _ => nofun
  | leafFails failed => exact (lowerLeaf_quiet _ _ _ _).failing_of_eq_error failed
  | refuse failed =>
    rintro _ rfl
    exact (steady.tame.unmatched_of_lower failed).1
  | emitFails failed =>
    cases course with
    | emit _ fits _ => exact (emit_quiet job.options fits).failing_of_eq_error failed
  | shareFails => exact fun _ => nofun

end Stands

section

variable (steady : job.book.Steady)
  (fresh : ∀ place, start.graph.size ≤ place → start.code? place = none)

include steady fresh

/-- What a whole run keeps. -/
theorem Stands.work {steps : Nat} (stands : Stands start job.book clear before path stack) :
    Ends (fun fault => clear → fault.Acyclic) (work job steps path stack) before
      fun done after => done = true → ∃ path, Stands start job.book clear after path [] := by
  induction steps generalizing path stack before with
  | zero =>
    cases stack with
    | nil => exact fun _ => ⟨path, stands⟩
    | cons next rest => exact nofun
  | succ steps ih =>
    cases stack with
    | nil => exact fun _ => ⟨path, stands⟩
    | cons next rest =>
      cases stepped : Generator.step job path next before with
      | error fault after =>
        exact .of_eq_error (work_of_step_error stepped) (stands.acyclic_of_step steady stepped)
      | ok result after =>
        exact .of_eq (work_of_step_ok stepped) (ih (stands.step steady fresh stepped))

/-- Where a root has code, no cycle is met from it, and where none is met, no fault reports one. -/
theorem lowerExpression_free {root : NodeId} (grounded : start.graph.GroundedFrom root) :
    Ends (fun fault => start.Free job.book start.graph root → fault.Acyclic)
      (lowerExpression job root) start fun _ _ => start.Free job.book start.graph root := by
  have stands : Stands start job.book (start.Free job.book start.graph root) start []
      [.visit root] :=
    ⟨.refl _, fun _ => id, fun _ known unknown => absurd unknown known,
      .visit ⟨grounded, id, fun _ => nofun⟩ .nil⟩
  have within : Ends (fun fault => start.Free job.book start.graph root → fault.Acyclic)
      (lowerWithin job (stepLimit start.graph) root) start
      fun found _ => found.isSome = true → start.Free job.book start.graph root := by
    refine (stands.work steady fresh).bind fun done after ended => ?_
    cases done with
    | false => exact nofun
    | true =>
      obtain ⟨path, ended⟩ := ended rfl
      refine .get_bind ?_
      cases known : after.code? root with
      | none => exact fun _ _ => nofun
      | some code =>
        intro _
        refine (free_iff steady grounded ended.grows).mp (ended.free_of_code ?_)
        rw [known]
        nofun
  refine .get_bind (within.bind fun found after free => ?_)
  cases found with
  | none => exact fun _ _ => nofun
  | some code => exact free rfl

end

/-- The steps that are allowed for an expression are enough. -/
theorem answer?_lowerWithin (tame : job.book.Tame) (root : NodeId) (start : Generator) :
    answer? (lowerWithin job (stepLimit start.graph) root start) =
      some (answer (lowerExpression job root start)) := by
  rw [lowerExpression, bind_of_eq_ok (get_eq_ok start)]
  cases lowered : lowerWithin job (stepLimit start.graph) root start with
  | error fault after =>
    rw [bind_of_eq_error lowered]
    rfl
  | ok found after =>
    rw [bind_of_eq_ok lowered]
    cases found with
    | some code => rfl
    | none =>
      obtain ⟨done, middle, worked, ended⟩ := bind_eq_ok.mp lowered
      cases done with
      | false => exact absurd worked (work_stepLimit_ended tame root start middle)
      | true =>
        obtain ⟨_, _, got, ended⟩ := bind_eq_ok.mp ended
        cases got
        cases known : middle.code? root with
        | none =>
          rw [known] at ended
          cases ended
        | some code =>
          rw [known] at ended
          cases ended

/-- Lowering ends, within the steps that are allowed and as the recursion does. It reports no cycle
where none is ahead, and gives no code where one is. -/
theorem lowerExpression_finds_cycles {name : String} {target : Target} {language : Language}
    (found : Catalog.builtin.target name = .ok target) (job : Job)
    (rules : target.books.get? language = some job.book) (root : NodeId) (start : Generator) :
    answer? (lowerWithin job (stepLimit start.graph) root start) =
        some (answer (lowerExpression job root start)) ∧
      lowerDirectly job [] root start = some (answer (lowerExpression job root start)) ∧
      ((∀ id, start.graph.Reaches root id → id < start.graph.size) →
        (∀ id, (start.code? id).isSome = true → id < start.graph.size) →
        (¬ start.CycleAhead job.book root →
          ∀ fault after, lowerExpression job root start = .error fault after →
            ∀ id, fault ≠ .graph (.cycle id)) ∧
        (start.CycleAhead job.book root →
          ∃ fault after, lowerExpression job root start = .error fault after)) := by
  have steady := Catalog.builtin_steady found language job.book rules
  have appends := (Catalog.builtin_orderly found language job.book rules).appends
  have ended := answer?_lowerWithin steady.tame root start
  refine ⟨ended, lowerDirectly_of_lowerWithin appends ended, fun grounded remembered => ?_⟩
  have fresh (place : NodeId) (beyond : start.graph.size ≤ place) : start.code? place = none := by
    by_contra known
    exact absurd (remembered place (Option.isSome_iff_ne_none.mpr known)) (Nat.not_lt_of_le beyond)
  have ahead := cycleAhead_iff steady fresh grounded
  have ends := lowerExpression_free steady fresh grounded
  constructor
  · intro none fault after failed
    rw [ahead, not_not] at none
    exact ends.failing_of_eq_error failed none
  · intro cycle
    cases lowered : lowerExpression job root start with
    | error fault after => exact ⟨fault, after, rfl⟩
    | ok code after => exact absurd (ends.post_of_eq_ok lowered) (ahead.mp cycle)

/-- The lesser of a variable and of the negation of the result. -/
def looped : Generator where
  graph :=
    ⟨#[{ operation := .variable, format := .binary32, payload := .variable "x" },
      { operation := .minimum, operands := [2, 0], format := .binary32 },
      { operation := .negation, operands := [1], format := .binary32 }]⟩
  document := Document.create .c {}

/-- The choice in the place of the minimum leads to the negation, and that one to the minimum. -/
theorem looped_cycleAhead : looped.CycleAhead Portable.book 1 := by
  have found : Catalog.builtin.target "generic" = .ok Portable.target := rfl
  have tame := (Catalog.builtin_steady found .c Portable.book rfl).tame
  obtain ⟨later, new, lowered, choice, negation⟩ : ∃ later new,
      Portable.book.lower looped.graph 1 = .ok (.replaced later new) ∧
        later.node new = { operation := .select, operands := [3, 2, 0], format := .binary32 } ∧
        later.node 2 = { operation := .negation, operands := [1], format := .binary32 } :=
    ⟨_, _, rfl, rfl, rfl⟩
  have toChoice : looped.Pursues Portable.book (looped.graph, 1) (later, new) :=
    ⟨rfl, .replacement nofun lowered⟩
  have toNegation : looped.Pursues Portable.book (later, new) (later, 2) := by
    refine ⟨rfl, .operand ?_ (tame.ne_replaced ?_) ?_⟩
    · rw [choice]
      nofun
    · rw [choice]
      rfl
    · rw [choice]
      simp
  have toMinimum : looped.Pursues Portable.book (later, 2) (later, 1) := by
    refine ⟨rfl, .operand ?_ (tame.ne_replaced ?_) ?_⟩
    · rw [negation]
      nofun
    · rw [negation]
      rfl
    · rw [negation]
      simp
  exact ⟨_, _, 1, .refl, .tail (.tail (.single toChoice) toNegation) toMinimum⟩

theorem lowerExpression_looped :
    looped.CycleAhead Portable.book 1 ∧
      ∃ fault after, lowerExpression portable 1 looped = .error fault after := by
  have found : Catalog.builtin.target "generic" = .ok Portable.target := rfl
  have rules : Portable.target.books.get? .c = some portable.book := rfl
  obtain ⟨_, _, cycles⟩ := lowerExpression_finds_cycles found portable rules 1 looped
  have grounded (id : NodeId) (reached : looped.graph.Reaches 1 id) : id < looped.graph.size :=
    reached.lt_size (by decide) (by decide)
  refine ⟨looped_cycleAhead, (cycles grounded ?_).2 looped_cycleAhead⟩
  intro id known
  cases known

end Generator

end Retarget
