import Retarget.Proofs.Naming.Confining
import Retarget.Proofs.Output.Run
import Retarget.Proofs.Output.Sketching

/-!
# Where declarations are written

The names that a run binds, and the outline of what it did. When all scopes of a run are closed, its
document is the file of that outline: every name that was bound is declared once, at the head of the
file or of the block in which it was bound.
-/

namespace Retarget

namespace Document

namespace Operation

/-- The category in which an operation declares. -/
def category? (document : Document) : Operation → Option Category
  | .temporary _ _ =>
    match document.current.flavor with
    | .hardware _ _ => some .signal
    | _ => some .variable
  | .signal _ _ => some .signal
  | .constant _ _ | .constantValue _ _ _ => some .constant
  | .table _ _ => some .table
  | .declare category _ _ => some category
  | .freeFunction _ _ => some .function
  | _ => none

/-- What an operation binds: the name that it gives, where that name was free before. -/
def binding? (operation : Operation) (document : Document) : Option Binding :=
  match operation.category? document, operation.declared? document, operation.perform document with
  | some category, some id, .ok (some name) after =>
    if document.current.scope.isFree document.names.tables name then
      some { category, name, id, entity := after.names.entities.entity id }
    else none
  | _, _, _ => none

/-- What an operation that succeeds adds to a sketch. -/
def mark (operation : Operation) (document : Document) (sketch : Sketch) : Sketch :=
  match operation with
  | .append text => sketch.add (.text text)
  | .openSharing _ => sketch.openScope
  | .close => sketch.closeScope
  | .link transition => sketch.linkScope transition
  | _ => sketch.bind (operation.binding? document)

/-- The sketch of a document after an operation. An operation that fails adds nothing. -/
def trace (operation : Operation) (document : Document) (sketch : Sketch) : Sketch :=
  match operation.perform document with
  | .ok _ _ => operation.mark document sketch
  | .error _ _ => sketch

/-- Whether an operation names only entities that were made before. -/
def namesMade (document : Document) : Operation → Bool
  | .signal id _ | .constant id _ | .table id _ | .declare _ _ id | .freeFunction _ id =>
    id < document.names.entities.size
  | _ => true

/-- Whether an operation writes text, opens or closes scopes of their own names, or declares an
entity that was made before. -/
def isPlain (document : Document) : Operation → Bool
  | .append _ | .close | .link _ | .freeName _ | .alloc _ | .temporary _ _
  | .constantValue _ _ _ => true
  | .openSharing extra => extra.isEmpty
  | .signal id _ | .constant id _ | .table id _ | .declare _ _ id | .freeFunction _ id =>
    id < document.names.entities.size
  | .comment _ | .header _ | .localHeader _ | .library _ | .headerComment _ | .indent | .dedent =>
    false

end Operation

/-- Whether all operations of a run are plain where they are done. -/
def isPlainRun : List Operation → Document → Bool
  | [], _ => true
  | operation :: rest, document =>
    operation.isPlain document && isPlainRun rest (finalState (operation.perform document))

/-- The names that a run binds, in order. -/
def bound : List Operation → Document → List Binding
  | [], _ => []
  | operation :: rest, document =>
    (operation.binding? document).toList ++ bound rest (finalState (operation.perform document))

/-- The sketch of a document after a run. -/
def traced : List Operation → Document → Sketch → Sketch
  | [], _, sketch => sketch
  | operation :: rest, document, sketch =>
    traced rest (finalState (operation.perform document)) (operation.trace document sketch)

/-- The names of the innermost scope. -/
def naming (document : Document) : Naming where
  toNames := document.names
  scope := document.current.scope

section Step

variable {policy : SharingPolicy} {language : Language} {document : Document} {sketch : Sketch}

theorem Sketched.founded (sketched : document.Sketched policy language sketch)
    (defaults : policy.sharedCategories = [.constant, .table, .function]) :
    document.naming.Founded := by
  obtain ⟨base, below, placed, _, rest⟩ := sketched.tracked.housed
  intro category
  have place : document.current.scope.own category = TableSet.placed policy base category := by
    rw [placed]
  exact place ▸ TableSet.placed_lt defaults rest.top_ge below category

/-- The document after an action on its names. -/
def renamed (document : Document) (after : Naming) : Document :=
  { document with
    names := after.toNames, current := { document.current with scope := after.scope } }

theorem withNames_of_eq_ok {α : Type} {action : NamingM α} {value : α} {after : Naming}
    (done : action { toNames := document.names, scope := document.current.scope } =
      .ok value after) : withNames action document = .ok value (document.renamed after) := by
  unfold withNames Draft.withNames
  rw [done]
  rfl

theorem withNames_of_eq_error {α : Type} {action : NamingM α} {fault : Fault} {after : Naming}
    (failed : action { toNames := document.names, scope := document.current.scope } =
      .error fault after) : withNames action document = .error fault (document.renamed after) := by
  unfold withNames Draft.withNames
  rw [failed]
  rfl

namespace Operation

theorem map_withNames {α β : Type} (change : α → β) (action : NamingM α) :
    (change <$> withNames action) document = withNames (change <$> action) document := by
  rw [map_eq_pure_bind, map_eq_pure_bind]
  cases outcome : action { toNames := document.names, scope := document.current.scope } with
  | error fault after =>
    rw [bind_of_eq_error (withNames_of_eq_error outcome)]
    exact (withNames_of_eq_error (bind_of_eq_error outcome)).symm
  | ok value after =>
    have done : (action >>= fun value => pure (change value))
        { toNames := document.names, scope := document.current.scope } =
        .ok (change value) after := bind_of_eq_ok outcome
    rw [bind_of_eq_ok (withNames_of_eq_ok outcome), withNames_of_eq_ok done]
    rfl

theorem perform_declare (category : Category) (name : String) (id : EntityId) :
    (Operation.declare category name id).perform document =
      (some <$> withNames (do Naming.declare category name id; return name)) document := by
  change (withNames (Naming.declare category name id) >>= fun _ => pure (some name)) document = _
  rw [bind_pure_comp, bind_pure_comp, map_withNames, map_withNames, Functor.map_map]

theorem perform_table (id : EntityId) (stem : String) :
    (Operation.table id stem).perform document =
      (some <$> withNames (TableName.name <$> Naming.declareTable id stem)) document := by
  change ((fun named => some named.name) <$> withNames (Naming.declareTable id stem)) document = _
  rw [map_withNames, map_withNames, Functor.map_map]

/-- Whether an operation acts on the names of the innermost scope alone. -/
def isNaming : Operation → Bool
  | .freeName _ | .alloc _ | .temporary _ _ | .signal _ _ | .constant _ _ | .constantValue _ _ _
  | .table _ _ | .declare _ _ _ | .freeFunction _ _ => true
  | _ => false

/-- An operation acts on the names of the innermost scope and binds what it is said to bind. -/
def Names (document : Document) (operation : Operation) : Prop :=
  ∃ after, finalState (operation.perform document) = document.renamed after ∧
    Naming.Confined document.naming after (operation.binding? document)

/-- An action on names that binds nothing. -/
theorem Names.of_unbound {operation : Operation} {α : Type} {action : NamingM α}
    (confined : Naming.Confined document.naming (finalState (action document.naming)) none)
    (performs : finalState (operation.perform document) = finalState (withNames action document))
    (unbound : operation.binding? document = none) : operation.Names document := by
  refine ⟨_, ?_, unbound ▸ confined⟩
  rw [performs, finalState_withNames]
  rfl

/-- An operation that gives a name to an entity. -/
theorem Names.of_confines (operation : Operation) {action : NamingM String} {category : Category}
    {id : EntityId}
    (confines : Naming.Confines document.naming category id (action document.naming))
    (performs : operation.perform document = (some <$> withNames action) document)
    (inCategory : operation.category? document = some category)
    (declared : operation.declared? document = some id) : operation.Names document := by
  unfold Names binding?
  rw [inCategory, declared, performs, map_eq_pure_bind]
  cases outcome : action document.naming with
  | error fault after =>
    rw [outcome] at confines
    rw [bind_of_eq_error (withNames_of_eq_error outcome)]
    exact ⟨after, rfl, confines⟩
  | ok name after =>
    rw [outcome] at confines
    rw [bind_of_eq_ok (withNames_of_eq_ok outcome)]
    exact ⟨after, rfl, confines⟩

/-- A temporary is a signal in hardware and a variable elsewhere. -/
theorem temporary_names (founded : document.naming.Founded) (stem : String) (format : Format) :
    (Operation.temporary stem format).Names document := by
  have bound (category : Category) (made : Entity)
      (given : Draft.declareTemporary document.current.flavor stem format =
        Naming.declareNew category stem made)
      (inCategory : category? document (.temporary stem format) = some category) :
      (Operation.temporary stem format).Names document := by
    refine .of_confines _ (Naming.declareNew_confines category founded stem made) ?_ inCategory rfl
    rw [← given]
    rfl
  unfold Draft.declareTemporary category? at bound
  cases flavor : document.current.flavor <;> rw [flavor] at bound <;> exact bound _ _ rfl rfl

theorem perform_names {operation : Operation} (naming : operation.isNaming = true)
    (founded : document.naming.Founded) : operation.Names document := by
  cases operation with
  | freeName stem =>
    exact .of_unbound (Naming.freeName_confined stem document.naming)
      (finalState_map some _ document) rfl
  | alloc entity =>
    exact .of_unbound (Naming.alloc_confined entity document.naming)
      (finalState_andThen _ _ document) rfl
  | temporary stem format => exact temporary_names founded stem format
  | signal id stem =>
    exact .of_confines _ (Naming.declareSignal_confines founded id stem) rfl rfl rfl
  | constant id stem =>
    exact .of_confines _ (Naming.declareConstant_confines founded id stem) rfl rfl rfl
  | constantValue value format stem =>
    exact .of_confines _ (Naming.declareConstantValue_confines founded value format stem)
      rfl rfl rfl
  | table id stem =>
    exact .of_confines _ (Naming.declareTable_confines founded id stem) (perform_table id stem)
      rfl rfl
  | declare category name id =>
    exact .of_confines _ (Naming.declare_confines category founded name id)
      (perform_declare category name id) rfl rfl
  | freeFunction stem id =>
    exact .of_confines _ (Naming.declareFree_confines .function founded stem id) rfl rfl rfl
  | _ => cases naming

theorem namesMade_of_isPlain {operation : Operation} (plain : operation.isPlain document = true) :
    operation.namesMade document = true := by
  cases operation with
  | signal | constant | table | declare | freeFunction => exact plain
  | _ => rfl

section

variable {operation : Operation} (made : operation.namesMade document = true)
  (founded : document.naming.Founded)

include made founded

/-- What an operation declares was made before, or the operation makes it. -/
theorem declared_made {id : EntityId} {name : String} {after : Document}
    (declared : operation.declared? document = some id)
    (done : operation.perform document = .ok (some name) after) :
    ∃ entity, after.names.entities[id]? = some entity := by
  have kept (naming : operation.isNaming = true) (inside : id < document.names.entities.size) :
      ∃ entity, after.names.entities[id]? = some entity := by
    obtain ⟨later, performed, confined⟩ := perform_names naming founded
    rw [done] at performed
    cases performed
    exact ⟨_, confined.entities id _ (Array.getElem?_eq_getElem inside)⟩
  cases operation with
  | temporary stem format =>
    cases declared
    obtain ⟨_, named, same⟩ := map_eq_ok.mp done
    change withNames (Draft.declareTemporary document.current.flavor stem format) document =
      _ at named
    unfold Draft.declareTemporary at named
    split at named
    all_goals
      obtain ⟨naming, acted, rfl⟩ := withNames_eq_ok named
      exact ⟨_, Naming.entities_of_declareNew acted⟩
  | constantValue value format stem =>
    cases declared
    obtain ⟨_, named, same⟩ := map_eq_ok.mp done
    obtain ⟨naming, acted, rfl⟩ := withNames_eq_ok named
    exact ⟨_, Naming.entities_of_alloc (fun id => Naming.grows_permits.declareConstant id stem) acted⟩
  | signal given stem | constant given stem | table given stem | declare category given stem
  | freeFunction stem given =>
    cases declared
    exact kept rfl (of_decide_eq_true made)
  | _ => cases declared

theorem known_of_namesMade :
    ∀ binding ∈ operation.binding? document,
      binding.Known (finalState (operation.perform document)).names.entities := by
  intro binding member
  unfold binding? at member
  split at member
  · rename_i category id name after inCategory declared done
    split at member
    · cases member
      obtain ⟨entity, known⟩ := declared_made made founded declared done
      rw [done]
      change after.names.entities[id]? = some (after.names.entities.entity id)
      rw [Entities.entity, known, Option.getD_some]
    · cases member
  · cases member

end

theorem binding?_of_eq_error {operation : Operation} {fault : Fault} {after : Document}
    (failed : operation.perform document = .error fault after) :
    operation.binding? document = none := by
  unfold binding?
  rw [failed]
  cases operation.category? document <;> cases operation.declared? document <;> rfl

theorem trace_of_isNaming {operation : Operation} (naming : operation.isNaming = true) :
    operation.trace document sketch = sketch.bind (operation.binding? document) := by
  unfold trace
  cases outcome : operation.perform document with
  | error fault after => simp [binding?_of_eq_error outcome, Sketch.bind]
  | ok name after =>
    cases operation with
    | append | openSharing | close | link => cases naming
    | _ => rfl

section

variable (sketched : document.Sketched policy language sketch)
  (defaults : policy.sharedCategories = [.constant, .table, .function])

include sketched defaults

theorem perform_close_sketched (blocks : language ≠ .gappa) :
    (finalState (perform .close document)).Sketched policy language
      (trace .close document sketch) := by
  by_cases outermost : sketch.enclosing = []
  · have failed : (Operation.close).perform document =
        .error (.nesting .nothingToClose) document :=
      bind_of_eq_error (bind_of_eq_error
        (merge_of_outermost (sketched.enclosing_eq_nil_iff.mpr outermost)))
    simp only [trace, failed]
    exact sketched
  · obtain ⟨after, closed, kept⟩ := sketched.closeScope defaults blocks outermost
    have done : (Operation.close).perform document = .ok none after := bind_of_eq_ok closed
    simp only [trace, done]
    exact kept

theorem perform_link_sketched (blocks : language ≠ .gappa) (transition : String) :
    (finalState (perform (.link transition) document)).Sketched policy language
      (trace (.link transition) document sketch) := by
  by_cases outermost : sketch.enclosing = []
  · have failed : (Operation.link transition).perform document =
        .error (.nesting .nothingToClose) document := by
      refine bind_of_eq_error ?_
      rw [linkScope_eq (by rw [sketched.language_eq]; exact blocks)]
      exact bind_of_eq_error (merge_of_outermost (sketched.enclosing_eq_nil_iff.mpr outermost))
    simp only [trace, failed]
    exact sketched
  · obtain ⟨after, linked, kept⟩ := sketched.linkScope defaults blocks outermost transition
    have done : (Operation.link transition).perform document = .ok none after :=
      bind_of_eq_ok linked
    simp only [trace, done]
    exact kept

/-- What one operation does to a document and to its sketch. -/
theorem perform_sketched (blocks : language ≠ .gappa) {operation : Operation}
    (plain : operation.isPlain document = true) :
    (finalState (operation.perform document)).Sketched policy language
      (operation.trace document sketch) := by
  cases naming : operation.isNaming with
  | true =>
    have founded := sketched.founded defaults
    have known := known_of_namesMade (namesMade_of_isPlain plain) founded
    obtain ⟨after, performed, confined⟩ := perform_names naming founded
    rw [performed] at known ⊢
    rw [trace_of_isNaming naming]
    exact sketched.gains defaults ⟨confined, known⟩
  | false =>
    cases operation with
    | append text => exact sketched.append text
    | openSharing extra =>
      rw [List.isEmpty_iff.mp plain]
      exact sketched.openScope defaults blocks
    | close => exact perform_close_sketched sketched defaults blocks
    | link transition => exact perform_link_sketched sketched defaults blocks transition
    | comment | header | localHeader | library | headerComment | indent | dedent => cases plain
    | _ => cases naming

end

/-- An operation adds to the bindings of a sketch what it binds. -/
theorem bindings_trace (operation : Operation) (document : Document) (sketch : Sketch) :
    (operation.trace document sketch).bindings =
      sketch.bindings ++ (operation.binding? document).toList := by
  unfold trace
  cases outcome : operation.perform document with
  | error fault after => simp [binding?_of_eq_error outcome]
  | ok name after =>
    cases operation with
    | append text => simp [mark, binding?, category?, Sketch.bindings_add, Outline.partBindings]
    | openSharing extra => simp [mark, binding?, category?, Sketch.bindings_openScope]
    | close => simp [mark, binding?, category?, Sketch.bindings_closeScope]
    | link transition => simp [mark, binding?, category?, Sketch.bindings_linkScope]
    | _ => exact Sketch.bindings_bind _ _

end Operation

end Step

theorem bindings_traced (operations : List Operation) (document : Document) (sketch : Sketch) :
    (traced operations document sketch).bindings =
      sketch.bindings ++ bound operations document := by
  induction operations generalizing document sketch with
  | nil => simp [traced, bound]
  | cons operation rest ih =>
    rw [traced, ih, operation.bindings_trace, bound, List.append_assoc]

/-- A document follows the sketch of a run along the run. -/
theorem run_sketched {policy : SharingPolicy} {language : Language}
    (defaults : policy.sharedCategories = [.constant, .table, .function])
    (blocks : language ≠ .gappa) {operations : List Operation} {document : Document}
    {sketch : Sketch} (sketched : document.Sketched policy language sketch)
    (plain : isPlainRun operations document = true) :
    (run operations document).Sketched policy language (traced operations document sketch) := by
  induction operations generalizing document sketch with
  | nil => exact sketched
  | cons operation rest ih =>
    obtain ⟨first, others⟩ := Bool.and_eq_true_iff.mp plain
    exact ih (operation.perform_sketched sketched defaults blocks first) others

/-- After a run that closed its scopes, the file is that of the outline of the run. It declares
each name that was bound, once, and no others. -/
theorem run_declared {policy : SharingPolicy} {language : Language}
    (defaults : policy.sharedCategories = [.constant, .table, .function])
    (blocks : language ≠ .gappa) {operations : List Operation}
    (plain : isPlainRun operations (create language policy) = true)
    (closed : (run operations (create language policy)).depth = 1) (headers : Bool) :
    (run operations (create language policy)).finish headers =
        .ok (Outline.file policy language (traced operations (create language policy) {}).current
          headers) ∧
      Outline.bindings (traced operations (create language policy) {}).current =
        bound operations (create language policy) ∧
      (Outline.emitted policy (traced operations (create language policy) {}).current).Perm
        (bound operations (create language policy)) := by
  have sketched := run_sketched defaults blocks (Sketched.create defaults blocks) plain
  have outermost := sketched.enclosing_eq_nil_iff.mp
    (List.length_eq_zero_iff.mp (Nat.succ.inj closed))
  have all := bindings_traced operations (create language policy) {}
  rw [Sketch.bindings, outermost] at all
  refine ⟨sketched.finish defaults blocks outermost headers, all, ?_⟩
  rw [← show Outline.bindings _ = bound operations _ from all]
  exact Outline.emitted_perm policy _

/-- Two linked scopes with a local each and one table that both use, and a scope too many closed. -/
def branches : List Operation :=
  [.alloc (.table [.int 1] .int32), .append "if (c) ", .openSharing [],
    .temporary "x" .int32, .table 0 "t", .link "else", .table 0 "t", .temporary "x" .int32,
    .append "y;\n", .close, .close]

theorem branches_declared :
    isPlainRun branches (create .vhdl { uniquifier := "u" }) = true ∧
      (run branches (create .vhdl { uniquifier := "u" })).depth = 1 ∧
      (run branches (create .vhdl { uniquifier := "u" })).finish false =
        .ok (Outline.file { uniquifier := "u" } .vhdl
          (traced branches (create .vhdl { uniquifier := "u" }) {}).current false) ∧
      Outline.bindings (traced branches (create .vhdl { uniquifier := "u" }) {}).current =
        bound branches (create .vhdl { uniquifier := "u" }) ∧
      (Outline.emitted { uniquifier := "u" }
        (traced branches (create .vhdl { uniquifier := "u" }) {}).current).Perm
        (bound branches (create .vhdl { uniquifier := "u" })) := by
  have plain : isPlainRun branches (create .vhdl { uniquifier := "u" }) = true := by
    decide +kernel
  have closed : (run branches (create .vhdl { uniquifier := "u" })).depth = 1 := by
    decide +kernel
  exact ⟨plain, closed, run_declared rfl (by decide) plain closed false⟩

end Document

end Retarget
