import Retarget.Proofs.Output.Nesting

/-!
# Runs of a document

Any sequence of operations on a document, in which operations may fail and the run goes on from the
state that a failure leaves. After every run each name is held by at most one of the tables that the
current scope sees, and whatever was bound on the way is still bound.
-/

namespace Retarget

namespace Document

/-- What can be done to a document under construction. -/
inductive Operation where
  | append (text : String)
  | comment (text : String)
  | header (name : String)
  | localHeader (name : String)
  | library (name : String)
  | headerComment (text : String)
  | indent
  | dedent
  /-- Opens a scope that shares some categories with the current one. -/
  | openSharing (extra : List Category)
  | close
  | link (transition : String)
  | freeName (stem : String)
  | alloc (entity : Entity)
  | temporary (stem : String) (format : Format)
  | signal (entity : EntityId) (stem : String)
  | constant (entity : EntityId) (stem : String)
  | constantValue (value : Scalar) (format : Format) (stem : String)
  | table (entity : EntityId) (stem : String)
  /-- Declares a function, a component or a reserved name as it is given. -/
  | declare (category : Category) (name : String) (entity : EntityId)
  /-- Declares a function under a name made from a stem. -/
  | freeFunction (stem : String) (entity : EntityId)

namespace Operation

/-- Does an operation. Operations that take or declare a name give it. -/
def perform : Operation → DocumentM (Option String)
  | .append text => do Document.append text; return none
  | .comment text => do addComment text; return none
  | .header name => do addHeader name; return none
  | .localHeader name => do addLocalHeader name; return none
  | .library name => do addLibrary name; return none
  | .headerComment text => do addHeaderComment text; return none
  | .indent => do Document.indent; return none
  | .dedent => do Document.dedent; return none
  | .openSharing extra => do Document.openSharing extra; return none
  | .close => do closeScope; return none
  | .link transition => do linkScope transition; return none
  | .freeName stem => some <$> withNames (Naming.freeName stem)
  | .alloc entity => do let _ ← withNames (Naming.alloc entity); return none
  | .temporary stem format => some <$> declareTemporary stem format
  | .signal entity stem => some <$> withNames (Naming.declareSignal entity stem)
  | .constant entity stem => some <$> withNames (Naming.declareConstant entity stem)
  | .constantValue value format stem =>
    some <$> withNames (Naming.declareConstantValue value format stem)
  | .table entity stem => (some ·.name) <$> withNames (Naming.declareTable entity stem)
  | .declare category name entity => do
    withNames (Naming.declare category name entity)
    return some name
  | .freeFunction stem entity =>
    some <$> withNames (Naming.declareFree .function stem entity)

/-- The entity that an operation declares: one that exists, or the next one to be made. -/
def declared? (document : Document) : Operation → Option EntityId
  | .temporary _ _ | .constantValue _ _ _ => some document.names.entities.size
  | .signal entity _ | .constant entity _ | .table entity _ | .declare _ _ entity
  | .freeFunction _ entity => some entity
  | _ => none

/-- Whether an operation changes what drafts hold, and neither scopes nor names. -/
def isWriting : Operation → Bool
  | .append _ | .comment _ | .header _ | .localHeader _ | .library _ | .headerComment _ | .indent
  | .dedent => true
  | _ => false

theorem perform_sameScopes {operation : Operation} (writing : operation.isWriting = true)
    (document : Document) : SameScopes document (finalState (operation.perform document)) := by
  cases operation with
  | append text => exact modifyCurrent_sameScopes (·.scope_append text) document
  | comment text => exact modifyCurrent_sameScopes (·.scope_addComment text) document
  | header name => exact modifyRoot_sameScopes (·.scope_addHeader name) document
  | localHeader name => exact modifyCurrent_sameScopes (·.scope_addHeader name) document
  | library name => exact modifyRoot_sameScopes (·.scope_addLibrary name) document
  | headerComment text => exact modifyRoot_sameScopes (·.scope_addHeaderComment text) document
  | indent => exact modifyCurrent_sameScopes Draft.scope_indent document
  | dedent =>
    rw [perform, finalState_andThen]
    exact tryCurrent_sameScopes (fun _ _ => Draft.scope_dedent) document
  | _ => cases writing

theorem perform_keeps (operation : Operation) : Changes Keeps operation.perform := by
  cases operation with
  | openSharing extra => exact .bind (Document.openSharing_keeps extra) fun _ => .pure none
  | close => exact .bind closeScope_keeps fun _ => .pure none
  | link transition => exact .bind (linkScope_keeps transition) fun _ => .pure none
  | freeName stem => exact .map (withNames_keeps (Naming.grows_permits.freeName stem))
  | alloc entity =>
    exact .bind (withNames_keeps (Naming.grows_permits.alloc entity)) fun _ => .pure none
  | temporary stem format => exact .map (declareTemporary_keeps stem format)
  | signal => exact .map (withNames_keeps (Naming.grows_permits.declareSignal _ _))
  | constant entity stem =>
    exact .map (withNames_keeps (Naming.grows_permits.declareConstant entity stem))
  | constantValue value format stem =>
    exact .map (withNames_keeps (Naming.grows_permits.declareConstantValue value format stem))
  | table => exact .map (withNames_keeps (Naming.grows_permits.declareTable _ _))
  | declare category name entity =>
    exact .bind (withNames_keeps (Naming.declare_grows category name entity)) fun _ =>
      .pure (some name)
  | freeFunction stem entity =>
    exact .map (withNames_keeps (Naming.grows_permits.declareFree .function stem entity))
  | _ => exact fun document => (perform_sameScopes rfl document).keeps

theorem lookup?_of_withNames {α : Type} {action : NamingM α} {text : α → String}
    {document after : Document} {category : Category} {name : String} {entity : EntityId}
    (done : ((fun value => some (text value)) <$> withNames action) document =
      .ok (some name) after)
    (binds : ∀ value naming, action { toNames := document.names, scope := document.current.scope } =
      .ok value naming → naming.scope.Binds naming.tables category (text value) entity) :
    ∃ id, after.current.scope.Sees id ∧
      (after.names.tables.table id).lookup? name = some entity := by
  obtain ⟨value, named, same⟩ := map_eq_ok.mp done
  cases same
  obtain ⟨naming, acted, rfl⟩ := withNames_eq_ok named
  obtain ⟨set, member, found⟩ := binds value naming acted
  exact ⟨set category, ⟨set, member, category, rfl⟩, found⟩

/-- A declaration that succeeds binds its name to its entity in a table that is seen. -/
theorem lookup?_of_perform {operation : Operation} {document after : Document} {name : String}
    {entity : EntityId} (well : document.WellNested)
    (declares : operation.declared? document = some entity)
    (done : operation.perform document = .ok (some name) after) :
    ∃ id, after.current.scope.Sees id ∧
      (after.names.tables.table id).lookup? name = some entity := by
  cases operation with
  | temporary stem format =>
    cases declares
    change (some <$> withNames (Draft.declareTemporary document.current.flavor stem format))
      document = _ at done
    unfold Draft.declareTemporary at done
    split at done
    · exact lookup?_of_withNames done fun _ _ => Naming.declareNew_binds well.apart
    · exact lookup?_of_withNames done fun _ _ => Naming.declareNew_binds well.apart
  | signal declared stem =>
    cases declares
    exact lookup?_of_withNames done fun _ _ => Naming.declareSignal_binds well.apart
  | constant declared stem =>
    cases declares
    exact lookup?_of_withNames done fun _ _ => Naming.declareConstant_binds well.apart
  | constantValue value format stem =>
    cases declares
    exact lookup?_of_withNames done fun _ _ => Naming.declareConstantValue_binds well.apart
  | table declared stem =>
    cases declares
    exact lookup?_of_withNames done fun _ _ => Naming.declareTable_binds well.apart
  | declare category given declared =>
    cases declares
    have named : ((fun _ => some given) <$> withNames (Naming.declare category given entity))
        document = .ok (some name) after := done
    exact lookup?_of_withNames named fun _ _ => Naming.declare_binds well.apart
  | freeFunction stem declared =>
    cases declares
    exact lookup?_of_withNames done fun _ _ => Naming.declareFree_binds well.apart
  | _ => cases declares

end Operation

/-- The document after a sequence of operations, failed ones included. -/
def run (operations : List Operation) (document : Document) : Document :=
  operations.foldl (fun document operation => finalState (operation.perform document)) document

theorem run_keeps (operations : List Operation) (document : Document) :
    Keeps document (run operations document) := by
  induction operations generalizing document with
  | nil => exact .refl document
  | cons operation rest ih => exact .trans (operation.perform_keeps document) (ih _)

theorem run_wellNested (language : Language) (policy : SharingPolicy)
    (operations : List Operation) : (run operations (create language policy)).WellNested :=
  (run_keeps operations _).nested (create_wellNested language policy)

theorem run_append (first second : List Operation) (document : Document) :
    run (first ++ second) document = run second (run first document) :=
  List.foldl_append

/-- After any run each name is held by at most one of the tables that the current scope sees. A
declaration that succeeds then binds its name in such a table, and no later run changes that. -/
theorem run_names_apart (language : Language) (policy : SharingPolicy)
    (operations : List Operation) :
    (∀ name, {id | (run operations (create language policy)).current.scope.Sees id ∧
      ((run operations (create language policy)).names.tables.table id).isFree name =
        false}.Subsingleton) ∧
    ∀ (operation : Operation) (name : String) (entity : EntityId) (after : Document),
      operation.declared? (run operations (create language policy)) = some entity →
      operation.perform (run operations (create language policy)) = .ok (some name) after →
      ∃ id, after.current.scope.Sees id ∧
        ∀ more, ((run more after).names.tables.table id).lookup? name = some entity := by
  have well := (run_keeps operations _).nested (create_wellNested language policy)
  constructor
  · intro name first firstHolds second secondHolds
    exact well.apart.apart name first second firstHolds.1 secondHolds.1 firstHolds.2 secondHolds.2
  · intro operation name entity after declares done
    obtain ⟨id, seen, bound⟩ := Operation.lookup?_of_perform well declares done
    exact ⟨id, seen, fun more => (run_keeps more after).bound id name entity bound⟩

/-- Two nested blocks with one table of signals, and a failed step back in between. -/
def sharedSignals : List Operation :=
  [.openSharing [], .temporary "s" .bool, .dedent, .openSharing [.signal]]

/-- The second signal of a stem gets a number, and keeps its name in whatever comes after. -/
theorem run_sharedSignals :
    ∃ after, (Operation.temporary "s" .bool).perform (run sharedSignals (create .vhdl {})) =
        .ok (some "s0") after ∧
      ∃ id, after.current.scope.Sees id ∧
        ∀ more, ((run more after).names.tables.table id).lookup? "s0" = some 1 := by
  have done : (Operation.temporary "s" .bool).perform (run sharedSignals (create .vhdl {})) =
      .ok (some "s0") (finalState
        ((Operation.temporary "s" .bool).perform (run sharedSignals (create .vhdl {})))) := by
    cbv
  exact ⟨_, done, (run_names_apart .vhdl {} sharedSignals).2 _ _ _ _ (by cbv) done⟩

end Document

end Retarget
