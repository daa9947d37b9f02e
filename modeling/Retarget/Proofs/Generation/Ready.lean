import Retarget.Generation.Function
import Retarget.Proofs.Output.Balance
import Retarget.Proofs.Rule.Orderly
import Retarget.Proofs.Template.Fitting

/-!
# States in which generation can go on

Between two steps of generation the document is balanced, the tables of values that are remembered
were made, and the graph has grown from a given one. From such a state leaves with a value and
templates that fit are written without a fault, in every language.
-/

namespace Retarget.Generator

/-- Generation can go on in drafts that are in the given numbers of blocks. -/
structure Ready (job : Job) (graph : Graph) (frame : Option Frame) (depths : List Nat)
    (generator : Generator) : Prop where
  grows : graph.Grows generator.graph
  framed : generator.frame = frame
  balanced : generator.document.Balanced job.options.language
    generator.document.names.entities.size depths
  tables : ∀ id entity, generator.tables.get? id = some entity →
    entity < generator.document.names.entities.size

section

variable {job : Job} {graph larger : Graph} {frame : Option Frame} {depths others : List Nat}
  {depth : Nat} {before after : Generator} {expected : Fault → Prop} {α : Type}

/-- A change of the codes and counts alone. -/
theorem Ready.congr (ready : before.Ready job graph frame depths)
    (same : after.graph = before.graph) (framed : after.frame = before.frame)
    (document : after.document = before.document) (tables : after.tables = before.tables) :
    after.Ready job graph frame depths where
  grows := by
    rw [same]
    exact ready.grows
  framed := framed.trans ready.framed
  balanced := by
    rw [document]
    exact ready.balanced
  tables := by
    rw [tables, document]
    exact ready.tables

/-- The graph as it is may take the place of the one it has grown from. -/
theorem Ready.rebase (ready : before.Ready job graph frame depths) :
    before.Ready job before.graph frame depths :=
  ⟨.refl _, ready.framed, ready.balanced, ready.tables⟩

theorem Ready.of_grows (grows : graph.Grows larger) (ready : before.Ready job larger frame depths) :
    before.Ready job graph frame depths :=
  ⟨grows.trans ready.grows, ready.framed, ready.balanced, ready.tables⟩

section

variable (ready : before.Ready job graph frame depths)

include ready

/-- What is done to a balanced document. -/
theorem onDocument_gives {action : DocumentM α} {post : α → Document → Prop}
    (ends : Ends expected action before.document fun value document =>
      document.Balanced job.options.language before.document.names.entities.size others ∧
        post value document) :
    Ends expected (onDocument action) before fun value after =>
      after.Ready job graph frame others ∧ post value after.document := by
  unfold Ends EndsIn onDocument
  cases outcome : action before.document with
  | error fault document => exact ends.failing_of_eq_error outcome
  | ok value document =>
    obtain ⟨balanced, held⟩ := ends.post_of_eq_ok outcome
    refine ⟨⟨ready.grows, ready.framed, ?_, ?_⟩, held⟩
    · exact { balanced with counted := Nat.le_refl _ }
    · exact fun id entity known =>
        Nat.lt_of_lt_of_le (ready.tables id entity known) balanced.counted

theorem onDocument_ends {action : DocumentM α}
    (ends : Ends expected action before.document fun _ document =>
      document.Balanced job.options.language before.document.names.entities.size others) :
    Ends expected (onDocument action) before fun _ after =>
      after.Ready job graph frame others :=
  (onDocument_gives ready (ends.mono fun _ _ balanced => ⟨balanced, trivial⟩)).mono
    fun _ _ held => held.1

/-! ## Writing -/

theorem write_ends (text : String) :
    Ends expected (write text) before fun _ after => after.Ready job graph frame depths :=
  onDocument_ends ready (.of_eq_ok rfl
    (ready.balanced.modifyCurrent (·.scope_append text) (·.level_append text)))

theorem record_ends (change : Session → Session) :
    Ends expected (record change) before fun _ after => after.Ready job graph frame depths :=
  .of_eq_ok rfl (ready.congr rfl rfl rfl rfl)

theorem pushMemo_ends :
    Ends expected pushMemo before fun _ after => after.Ready job graph frame depths :=
  .of_eq_ok rfl (ready.congr rfl rfl rfl rfl)

theorem popMemo_ends :
    Ends expected popMemo before fun _ after => after.Ready job graph frame depths := by
  refine .of_eq_ok rfl ?_
  dsimp only
  split
  · exact ready.congr rfl rfl rfl rfl
  · exact ready.congr rfl rfl rfl rfl

end

theorem openScope_ends (ready : before.Ready job graph frame (depth :: depths)) :
    Ends expected openScope before fun _ after =>
      after.Ready job graph frame (0 :: (depth + 1) :: depths) := by
  refine (onDocument_ends ready ready.balanced.openScope_ends).bind fun _ opened ready => ?_
  exact (pushMemo_ends ready).bind fun _ pushed ready => record_ends ready _

section

variable (ready : before.Ready job graph frame (0 :: (depth + 1) :: depths))

include ready

theorem closeScope_ends :
    Ends expected closeScope before fun _ after => after.Ready job graph frame (depth :: depths) :=
  (popMemo_ends ready).bind fun _ _ ready => onDocument_ends ready ready.balanced.closeScope_ends

theorem linkScope_ends (blocks : job.options.language ≠ .gappa) (transition : String) :
    Ends expected (linkScope transition) before fun _ after =>
      after.Ready job graph frame (0 :: (depth + 1) :: depths) := by
  refine (popMemo_ends ready).bind fun _ popped ready => ?_
  refine (onDocument_ends ready (ready.balanced.linkScope_ends blocks transition)).bind ?_
  intro _ linked ready
  exact (pushMemo_ends ready).bind fun _ pushed ready => record_ends ready _

end

theorem indent_ends (ready : before.Ready job graph frame (depth :: depths)) :
    Ends expected (onDocument Document.indent) before fun _ after =>
      after.Ready job graph frame ((depth + 1) :: depths) :=
  onDocument_ends ready ready.balanced.indent_ends

theorem dedent_ends (ready : before.Ready job graph frame ((depth + 1) :: depths)) :
    Ends expected (onDocument Document.dedent) before fun _ after =>
      after.Ready job graph frame (depth :: depths) :=
  onDocument_ends ready ready.balanced.dedent_ends

theorem materialize_ends (ready : before.Ready job graph frame depths) (stem code : String)
    (format : Format) :
    Ends expected (materialize stem code format) before fun _ after =>
      after.Ready job graph frame depths := by
  refine .get_bind ?_
  refine (onDocument_ends ready (ready.balanced.declareTemporary_ends stem format)).bind ?_
  intro name declared ready
  refine (write_ends ready _).bind fun _ written ready => ?_
  exact (record_ends ready _).bind fun _ _ ready => .pure ready

/-! ## Leaves and templates -/

theorem tableEntity_ends (ready : before.Ready job graph frame depths) (id : NodeId)
    (values : List Scalar) (format : Format) :
    Ends expected (tableEntity id values format) before fun entity after =>
      after.Ready job graph frame depths ∧ entity < after.document.names.entities.size := by
  refine .get_bind ?_
  cases known : before.tables.get? id with
  | some entity => exact .pure ⟨ready, ready.tables id entity known⟩
  | none =>
    refine (onDocument_gives ready (ready.balanced.alloc_ends _)).bind ?_
    rintro entity middle ⟨ready, made⟩
    refine .modify_bind (.pure ⟨⟨ready.grows, ready.framed, ready.balanced, ?_⟩, made⟩)
    intro other found present
    rcases OrderedMap.eq_or_get?_of_get?_insert present with ⟨_, rfl⟩ | earlier
    · exact made
    · exact ready.tables other found earlier

theorem lowerLeaf_ends (ready : before.Ready job graph frame depths) (id : NodeId) {node : Node}
    (carries : node.payload ≠ .none) :
    Ends expected (lowerLeaf job.options id node) before fun _ after =>
      after.Ready job graph frame depths := by
  unfold lowerLeaf
  split
  · exact .pure ready
  · split
    · exact onDocument_ends ready (ready.balanced.declareConstantValue_ends _ _ _)
    · exact .pure ready
  · refine (tableEntity_ends ready id _ node.format).bind ?_
    rintro entity middle ⟨ready, made⟩
    refine (onDocument_ends ready (ready.balanced.declareTable_ends made _)).bind ?_
    intro table declared ready
    exact (record_ends ready _).bind fun _ _ ready => .pure ready
  · rename_i bare
    exact absurd bare carries

theorem surroundings_answer (job : Job) (graph : Graph) (frame : Option Frame)
    (depths : List Nat) :
    (surroundings job.options.language).Answer expected (Ready job graph frame depths) where
  requireHeader header _ ready :=
    onDocument_ends ready (ready.balanced.modifyRoot_ends (·.scope_addHeader header)
      (·.level_addHeader header))
  requireLibrary library _ ready :=
    onDocument_ends ready (ready.balanced.modifyRoot_ends (·.scope_addLibrary library)
      (·.level_addLibrary library))
  materialize code format _ ready := materialize_ends ready "tmp" code format

/-- A template that fits is written over the codes of operands. -/
theorem emitOver_ends (ready : before.Ready job graph frame depths) (id : NodeId)
    {template : Template} {operands : List String}
    (fits : template.fits operands.length template.form.writesResult = true) :
    Ends expected (emitOver job.options id template operands) before fun _ after =>
      after.Ready job graph frame depths := by
  have answer : (surroundings job.options.language).Answer expected
      (Ready job graph frame depths) :=
    surroundings_answer job graph frame depths
  refine .get_bind ((record_ends ready _).bind fun _ recorded ready => ?_)
  dsimp only
  split
  · rename_i writes
    rw [writes] at fits
    refine (onDocument_ends ready (ready.balanced.declareTemporary_ends _ _)).bind ?_
    intro name declared ready
    refine (record_ends ready _).bind fun _ counted ready => ?_
    refine (Template.instantiate_ends answer _ ready template fits).bind fun code made ready => ?_
    exact (write_ends ready _).bind fun _ _ ready => .pure ready
  · rename_i writes
    rw [Bool.not_eq_true] at writes
    rw [writes] at fits
    refine (Template.instantiate_ends answer _ ready template fits).bind fun code made ready => ?_
    split
    · exact materialize_ends ready _ code _
    · exact .pure ready

end

end Retarget.Generator
