import Retarget.Proofs.Naming.Fresh
import Retarget.Proofs.Output.Declared
import Retarget.Proofs.Output.Layout

/-!
# Driving a document over a tree of scopes

A document that is written item by item, with a declaration for every one that the tree asks for,
ends as the printed tree.
-/

namespace Retarget

open List

/-- The category in which an entity is declared. -/
def Entity.category : Entity → Category
  | .constant _ _ => .constant
  | .variable _ => .variable
  | .signal _ => .signal
  | .table _ _ => .table
  | .function _ _ => .function
  | .component _ => .component
  | .reserved _ => .reserved

/-- A declaration to be made: an entity, and the stem of its name. -/
structure Request where
  stem : String
  entity : Entity

/-- The category and the entity of a declaration. -/
def Binding.kind (binding : Binding) : Category × Entity :=
  (binding.category, binding.entity)

namespace Request

/-- The category and the entity that a declaration is to have. -/
def kind (request : Request) : Category × Entity :=
  (request.entity.category, request.entity)

/-- The declaration once it has a name. -/
def binding (request : Request) (name : String) (id : EntityId) : Binding where
  category := request.entity.category
  name
  id
  entity := request.entity

/-- Makes the entity and gives it a name. -/
def give (request : Request) (flavor : Flavor) : NamingM String :=
  match request.entity with
  | .constant value format => Naming.declareConstantValue value format request.stem
  | .variable format => Draft.declareTemporary flavor request.stem format
  | .signal format => do Naming.declareSignal (← Naming.alloc (.signal format)) request.stem
  | .table values storage => do
    TableName.name <$> Naming.declareTable (← Naming.alloc (.table values storage)) request.stem
  | entity => do Naming.declareFree entity.category request.stem (← Naming.alloc entity)

/-- Makes the declaration in the current scope. -/
def declare (request : Request) : DocumentM Binding := do
  let document ← get
  let name ← Document.withNames (request.give document.current.flavor)
  return request.binding name document.names.entities.size

end Request

namespace Naming

section

variable {naming after : Naming} {category : Category} {entity : Entity} {name : String}

/-- A new entity that got a free name is bound to it. -/
theorem Confines.gains_of_isFree {id : EntityId}
    (confines : Confines naming category id (.ok name after))
    (free : naming.scope.isFree naming.tables name = true)
    (made : after.entities[id]? = some entity) :
    Gains naming after (some { category, name, id, entity }) := by
  have gains := confines.gains made
  rwa [if_pos free] at gains

/-- A made entity under a name from a stem. -/
theorem alloc_declareFree_gains (founded : naming.Founded) (recorded : naming.Recorded)
    (category : Category) (stem : String) (entity : Entity) :
    ∃ name after, (alloc entity >>= declareFree category stem) naming = .ok name after ∧
      Gains naming after (some { category, name, id := naming.entities.size, entity }) := by
  have unnamed := recorded.nameOf?_eq_none (naming.scope.own category) (Nat.le_refl _)
  obtain ⟨name, after, free, declared⟩ :
      ∃ name after, (finalState (alloc entity naming)).scope.isFree
          (finalState (alloc entity naming)).tables name = true ∧
        declareFree category stem naming.entities.size (finalState (alloc entity naming)) =
          .ok name after := declareFree_succeeds stem unnamed
  have done : (alloc entity >>= declareFree category stem) naming = .ok name after := by
    rw [bind_of_eq_ok (alloc_eq_ok entity naming), declared]
  have confines : Confines naming category naming.entities.size
      ((alloc entity >>= declareFree category stem) naming) :=
    .bind (alloc_confined entity naming) rfl fun allocated =>
      declareFree_confines category (allocated.founded founded) stem _
  rw [done] at confines
  refine ⟨name, after, done, confines.gains_of_isFree free ?_⟩
  exact entities_of_alloc (fun id => grows_permits.declareFree category stem id) done

theorem alloc_declareSignal_eq (recorded : naming.Recorded) (stem : String) (entity : Entity) :
    (alloc entity >>= fun id => declareSignal id stem) naming =
      (alloc entity >>= declareFree .signal stem) naming := by
  have allocated := alloc_eq_ok entity naming
  have unnamed : (finalState (alloc entity naming)).scope.signalName?
      (finalState (alloc entity naming)).tables naming.entities.size = none :=
    recorded.nameOf?_eq_none (naming.scope.own .signal) (Nat.le_refl _)
  rw [bind_of_eq_ok allocated, bind_of_eq_ok allocated]
  exact declareSignal_of_unnamed unnamed stem

theorem alloc_declareTable_eq (recorded : naming.Recorded) (stem : String) (entity : Entity) :
    (alloc entity >>= fun id => TableName.name <$> declareTable id stem) naming =
      (alloc entity >>= declareFree .table stem) naming := by
  have allocated := alloc_eq_ok entity naming
  have unnamed : (finalState (alloc entity naming)).scope.tableName?
      (finalState (alloc entity naming)).tables naming.entities.size = none := by
    refine findSome?_eq_none_iff.mpr fun set _ => ?_
    exact recorded.nameOf?_eq_none (set .table) (Nat.le_refl _)
  rw [bind_of_eq_ok allocated, bind_of_eq_ok allocated]
  exact name_declareTable_of_unnamed unnamed stem

end

end Naming

namespace Request

/-- A declaration in a plain scope always succeeds, and it binds its new entity. -/
theorem give_gains {naming : Naming} (founded : naming.Founded) (recorded : naming.Recorded)
    (request : Request) :
    ∃ name after, request.give .plain naming = .ok name after ∧
      Naming.Gains naming after (some (request.binding name naming.entities.size)) := by
  obtain ⟨stem, entity⟩ := request
  cases entity with
  | constant value format =>
    obtain ⟨name, after, free, declared⟩ :=
      Naming.declareConstantValue_succeeds founded recorded value format stem
    have confines := Naming.declareConstantValue_confines founded value format stem
    rw [declared] at confines
    refine ⟨name, after, declared, confines.gains_of_isFree free ?_⟩
    exact Naming.entities_of_alloc (fun id => Naming.grows_permits.declareConstant id stem) declared
  | «variable» format =>
    obtain ⟨name, after, free, declared⟩ :=
      Naming.declareNew_succeeds recorded .variable stem (.variable format)
    have confines := Naming.declareNew_confines .variable founded stem (.variable format)
    rw [declared] at confines
    exact ⟨name, after, declared,
      confines.gains_of_isFree free (Naming.entities_of_declareNew declared)⟩
  | signal format =>
    have same := Naming.alloc_declareSignal_eq recorded stem (.signal format)
    have given := Naming.alloc_declareFree_gains founded recorded .signal stem (.signal format)
    rw [← same] at given
    exact given
  | table values storage =>
    have same := Naming.alloc_declareTable_eq recorded stem (.table values storage)
    have given :=
      Naming.alloc_declareFree_gains founded recorded .table stem (.table values storage)
    rw [← same] at given
    exact given
  | function result arguments =>
    exact Naming.alloc_declareFree_gains founded recorded .function stem _
  | component pins => exact Naming.alloc_declareFree_gains founded recorded .component stem _
  | reserved format => exact Naming.alloc_declareFree_gains founded recorded .reserved stem _

end Request

namespace Document

variable {document after : Document}

section

variable (recorded : document.names.Recorded)

include recorded

theorem recorded_push (extra : List Category) : (document.push extra).names.Recorded := by
  intro id entry member
  rw [entries_push] at member
  exact recorded id entry member

theorem recorded_closeScope (done : closeScope document = .ok () after) : after.names.Recorded := by
  obtain ⟨_, _, _, _, _, _, _, rfl⟩ := exists_of_closeScope done
  exact recorded

theorem recorded_linkScope {transition : String}
    (done : linkScope transition document = .ok () after) : after.names.Recorded := by
  obtain ⟨_, enclosing, _, current, _, _, _, rfl⟩ := exists_of_linkScope done
  have middle : Document.names { document with current, enclosing } |>.Recorded := recorded
  exact recorded_push middle []

end

theorem recorded_create (language : Language) (policy : SharingPolicy) :
    (create language policy).names.Recorded := by
  intro id entry member
  rw [entries_create] at member
  cases member

/-- The document follows the sketch, and its tables hold only entities that were made. -/
structure Follows (policy : SharingPolicy) (document : Document) (sketch : Sketch) : Prop where
  defaults : policy.sharedCategories = [.constant, .table, .function]
  sketched : document.Sketched policy .c sketch
  recorded : document.names.Recorded

end Document

namespace Item

mutual

/-- Writes an item to the current scope. -/
def drive : Item Request → DocumentM (Item Binding)
  | .line text => do
    Document.append (text ++ "\n")
    return .line text
  | .declaration request => .declaration <$> request.declare
  | .block header scope linked => do
    Document.append header
    Document.openScope
    let scope ← driveAll scope
    let linked ← driveLinked linked
    Document.closeScope
    return .block header scope linked

/-- Writes the items of a scope. -/
def driveAll : List (Item Request) → DocumentM (List (Item Binding))
  | [] => return []
  | item :: rest => do
    let item ← item.drive
    let rest ← driveAll rest
    return item :: rest

/-- Writes the further scopes of a block. -/
def driveLinked :
    List (String × List (Item Request)) → DocumentM (List (String × List (Item Binding)))
  | [] => return []
  | (transition, scope) :: rest => do
    Document.linkScope transition
    let scope ← driveAll scope
    let rest ← driveLinked rest
    return (transition, scope) :: rest

end

section

variable {policy : SharingPolicy}

theorem declare_follows (request : Request) {document : Document} {sketch : Sketch}
    (follows : document.Follows policy sketch) :
    ∃ binding after, request.declare document = .ok binding after ∧
      after.Follows policy (sketch.bind (some binding)) ∧ binding.kind = request.kind := by
  have founded := follows.sketched.founded follows.defaults
  have flavor : document.current.flavor = .plain := by rw [follows.sketched.current]; rfl
  obtain ⟨name, after, given, gains⟩ := request.give_gains founded follows.recorded
  refine ⟨request.binding name document.names.entities.size, document.renamed after, ?_,
    ⟨follows.defaults, follows.sketched.gains follows.defaults gains,
      gains.recorded follows.recorded⟩, rfl⟩
  change (Document.withNames (request.give document.current.flavor) >>= fun name =>
    pure (request.binding name document.names.entities.size) : DocumentM Binding) document = _
  rw [flavor, bind_of_eq_ok (Document.withNames_of_eq_ok given)]
  rfl

mutual

theorem drive_follows : ∀ (item : Item Request) {document : Document} {sketch : Sketch},
    document.Follows policy sketch →
    ∃ written after, item.drive document = .ok written after ∧
      after.Follows policy { sketch with current := sketch.current ++ written.parts } ∧
      written.map Binding.kind = item.map Request.kind
  | .line text, document, sketch, follows =>
    ⟨.line text, _, rfl,
      ⟨follows.defaults, follows.sketched.append (text ++ "\n"), follows.recorded⟩, rfl⟩
  | .declaration request, document, sketch, follows => by
    obtain ⟨binding, after, declared, kept, same⟩ := declare_follows request follows
    refine ⟨.declaration binding, after, map_eq_ok.mpr ⟨binding, declared, rfl⟩, kept, ?_⟩
    rw [map, map, same]
  | .block header scope linked, document, sketch, follows => by
    have defaults := follows.defaults
    have headed := follows.sketched.append header
    have opened : Document.Follows policy _ _ :=
      ⟨defaults, headed.openScope defaults (by decide),
        Document.recorded_push follows.recorded []⟩
    obtain ⟨first, middle, driven, inside, sameFirst⟩ := driveAll_follows scope opened
    obtain ⟨others, last, current, pending, drivenOthers, kept, before, scopes, sameOthers⟩ :=
      driveLinked_follows linked inside rfl
    obtain ⟨after, closed, finished⟩ :=
      kept.sketched.closeScope defaults (by decide) (cons_ne_nil _ _)
    refine ⟨.block header first others, after, ?_,
      ⟨defaults, ?_, Document.recorded_closeScope kept.recorded closed⟩, ?_⟩
    · rw [drive, bind_of_eq_ok (rfl : Document.append header document = .ok () _),
        bind_of_eq_ok (rfl : Document.openScope _ = .ok () _), bind_of_eq_ok driven,
        bind_of_eq_ok drivenOthers, bind_of_eq_ok closed]
      rfl
    · rw [Sketch.closeScope] at finished
      dsimp only at finished
      rw [before, scopes] at finished
      simpa [parts, Sketch.add, Sketch.openScope, Pending.scopes] using finished
    · rw [map, map, sameFirst, sameOthers]

theorem driveAll_follows : ∀ (items : List (Item Request)) {document : Document}
    {sketch : Sketch}, document.Follows policy sketch →
    ∃ written after, driveAll items document = .ok written after ∧
      after.Follows policy { sketch with current := sketch.current ++ partsOf written } ∧
      mapAll Binding.kind written = mapAll Request.kind items
  | [], document, sketch, follows => by
    refine ⟨[], document, rfl, ?_, rfl⟩
    rw [partsOf, append_nil]
    exact follows
  | item :: rest, document, sketch, follows => by
    obtain ⟨first, middle, driven, kept, same⟩ := drive_follows item follows
    obtain ⟨others, after, drivenRest, finished, sameRest⟩ := driveAll_follows rest kept
    refine ⟨first :: others, after, ?_, ?_, ?_⟩
    · rw [driveAll, bind_of_eq_ok driven, bind_of_eq_ok drivenRest]
      rfl
    · rw [partsOf, ← append_assoc]
      exact finished
    · rw [mapAll, mapAll, same, sameRest]

theorem driveLinked_follows : ∀ (linked : List (String × List (Item Request)))
    {document : Document} {sketch : Sketch} {pending : Pending} {around : List Pending},
    document.Follows policy sketch → sketch.enclosing = pending :: around →
    ∃ written after current last, driveLinked linked document = .ok written after ∧
      after.Follows policy { current, enclosing := last :: around } ∧
      last.before = pending.before ∧
      last.scopes current = pending.scopes sketch.current ++ partsLinked written ∧
      mapLinked Binding.kind written = mapLinked Request.kind linked
  | [], document, sketch, pending, around, follows, inside => by
    refine ⟨[], document, sketch.current, pending, rfl, ?_, rfl, ?_, rfl⟩
    · rw [← inside]
      exact follows
    · rw [partsLinked, append_nil]
  | (transition, scope) :: rest, document, sketch, pending, around, follows, inside => by
    have defaults := follows.defaults
    have present : sketch.enclosing ≠ [] := inside ▸ cons_ne_nil _ _
    obtain ⟨middle, linked, sketched⟩ :=
      follows.sketched.linkScope defaults (by decide) present transition
    have opened : middle.Follows policy _ :=
      ⟨defaults, sketched, Document.recorded_linkScope follows.recorded linked⟩
    rw [Sketch.linkScope, inside] at opened
    obtain ⟨first, later, driven, kept, same⟩ := driveAll_follows scope opened
    obtain ⟨others, after, current, last, drivenRest, finished, before, scopes, sameRest⟩ :=
      driveLinked_follows rest kept rfl
    refine ⟨(transition, first) :: others, after, current, last, ?_, finished, before, ?_, ?_⟩
    · rw [driveLinked, bind_of_eq_ok linked, bind_of_eq_ok driven, bind_of_eq_ok drivenRest]
      rfl
    · rw [scopes, partsLinked]
      simp [Pending.scopes]
    · rw [mapLinked, mapLinked, same, sameRest]

end

/-- A tree of scopes written to a new document in C is printed as it stands: every request gets a
declaration, and all scopes are closed at the end. -/
theorem finish_driveAll (defaults : policy.sharedCategories = [.constant, .table, .function])
    (items : List (Item Request)) :
    ∃ written after, driveAll items (.create .c policy) = .ok written after ∧
      mapAll Binding.kind written = mapAll Request.kind items ∧ after.depth = 1 ∧
      after.finish false = .ok (print policy written) := by
  have created : (Document.create .c policy).Follows policy {} :=
    ⟨defaults, .create defaults (by decide), Document.recorded_create .c policy⟩
  obtain ⟨written, after, driven, kept, same⟩ := driveAll_follows items created
  have closed := kept.sketched.enclosing_eq_nil_iff.mpr rfl
  refine ⟨written, after, driven, same, ?_, ?_⟩
  · rw [Document.depth, closed]
    rfl
  · rw [kept.sketched.finish defaults (by decide) rfl, ← file_partsOf]
    rfl

end

/-- A branch with a local on each side, under a table that is declared at the head of the file. -/
def branchTree : List (Item Request) :=
  [.line "start();",
    .block "if (c) "
      [.line "a();", .declaration ⟨"x", .variable .int32⟩,
        .block "while (d) " [.declaration ⟨"t", .table [.int 1] .int32⟩, .line "b();"] []]
      [("else", [.declaration ⟨"x", .variable .int32⟩])]]

theorem finish_driveAll_branchTree :
    SharingPolicy.sharedCategories {} = [.constant, .table, .function] ∧
      ∃ written after, driveAll branchTree (.create .c {}) = .ok written after ∧
        mapAll Binding.kind written = mapAll Request.kind branchTree ∧ after.depth = 1 ∧
        after.finish false = .ok (print {} written) :=
  ⟨rfl, finish_driveAll rfl branchTree⟩

end Item

end Retarget
