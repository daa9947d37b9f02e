import Retarget.Proofs.Generation.Sound

/-!
# Safe lowering of expressions

The code that lowering gives a node is expressed where it is remembered. Instances of templates,
leaves and emitted nodes are followed one by one; the stack of pending work then needs to know only
that each piece of it was chosen by the book for its node.
-/

namespace Retarget

open List

theorem Template.Part.trans {part middle whole : Template} (inner : part.Part middle)
    (outer : middle.Part whole) : part.Part whole := by
  induction outer with
  | whole => exact inner
  | nested member _ ih => exact .nested member ih

theorem Template.inPlace_of_not_materialized {template : Template}
    (absent : template.form.materialized = false) : template.inPlace = template := by
  have same : ∀ form : Form, form.materialized = false →
      { form with materialized := false } = form := by
    intro form absent
    rw [← absent]
  cases template with
  | plain form => exact congrArg Template.plain (same form absent)
  | applied form arguments => exact congrArg (Template.applied · arguments) (same form absent)

namespace View

variable (view : View) (form : Form) (arguments : List String) (result : Option String)
  (format : Format)

theorem require_outcome : form.require view.surroundings () := by
  have asks : ∀ texts : List String,
      texts.forM (fun _ => (Pure.pure () : Outcomes PUnit)) () := by
    intro texts
    induction texts with
    | nil => exact rfl
    | cons _ _ ih => exact ⟨(), rfl, ih⟩
  exact ⟨(), asks form.headers, asks form.libraries⟩

variable {view form arguments result format} {code : String}

theorem liftExcept_outcome {given : Except Fault String} (coded : given = .ok code) :
    (liftExcept given : Outcomes String) code := by
  rw [coded]
  exact rfl

theorem finish_outcome
    (coded : form.shape.code ⟨arguments, result, Language.c.typeName format, format.width⟩ =
      .ok code)
    (absent : (form.materialized && !form.writesResult) = false) :
    form.finish view.surroundings arguments result format code := by
  refine ⟨code, liftExcept_outcome coded, ?_⟩
  simp only [absent, Bool.false_eq_true, ↓reduceIte]
  exact rfl

/-- A template that asks for a temporary gives the name of one. -/
theorem Yields.declares {template : Template} {operands : List String}
    (stored : (template.form.materialized && !template.form.writesResult) = true)
    (yields : view.Yields template operands result format code) :
    view.Declares .variable code := by
  have finished {form : Form} {arguments : List String}
      (stored : (form.materialized && !form.writesResult) = true)
      (given : form.finish view.surroundings arguments result format code) :
      view.Declares .variable code := by
    obtain ⟨_, _, named⟩ := given
    rw [if_pos stored] at named
    exact named.1
  unfold Yields Template.instantiate at yields
  cases template with
  | plain form =>
    obtain ⟨_, _, given⟩ := yields
    exact finished stored given
  | applied form arguments =>
    obtain ⟨_, _, _, _, given⟩ := yields
    exact finished stored given

end View

namespace Generator

variable {job : Job} {before : Generator}

theorem require_safe (sound : before.Sound job) (form : Form) :
    Safe job (form.require (surroundings .c)) before fun _ after => Leads job before after := by
  have asks : ∀ {request : String → GeneratorM PUnit} (state : Generator), Leads job before state →
      (∀ text middle, Leads job before middle →
        Safe job (request text) middle fun _ after => Leads job middle after) →
      ∀ texts : List String,
        Safe job (texts.forM request) state fun _ after => Leads job before after := by
    intro request state leads each texts
    refine .forM (fun text _ middle reached => ?_) leads
    exact (each text middle reached).mono fun _ _ next => reached.trans next
  refine (asks before sound.leads (fun header middle leads => ?_) form.headers).bind
    fun _ state leads => asks state leads (fun library middle leads => ?_) form.libraries
  · exact (onDocument_safe leads.sound (.header header)
      (Document.addHeader_advances header)).mono fun _ _ done => done.1
  · exact (onDocument_safe leads.sound (.library library)
      (Document.addLibrary_advances library)).mono fun _ _ done => done.1

/-- A temporary stores its code where the assignment is legible. -/
theorem materialize_safe (sound : before.Sound job) (stem code : String) (format : Format)
    (legible : ∀ name state, Leads job before state → state.view.Declares .variable name →
      Legible job state (Language.c.assignment name code false)) :
    Safe job (materialize stem code format) before fun name after =>
      Leads job before after ∧ after.view.Stores name (Language.c.assignment name code false) := by
  refine .get_bind ?_
  rw [sound.language]
  refine (declareTemporary_safe sound stem format).chain fun name state leads declared => ?_
  refine (write_safe leads.sound (legible name state leads declared)).chain ?_
  rintro _ written leads' ⟨_, inside⟩
  refine (record_safe leads'.sound _).chain ?_
  rintro _ _ leads'' rfl
  exact .pure ⟨leads''.sound.leads, leads'.evolves.extends.declares _ _ declared, inside⟩

/-- The code of a form over the codes of its arguments, in any surroundings where it may go to a
temporary. -/
theorem finish_safe (sound : before.Sound job) (form : Form) (arguments : List String)
    (result : Option String) (format : Format)
    (legible : (form.materialized && !form.writesResult) = true → ∀ code name state,
      form.shape.code ⟨arguments, result, Language.c.typeName format, format.width⟩ = .ok code →
      Leads job before state → state.view.Declares .variable name →
      Legible job state (Language.c.assignment name code false)) :
    Safe job (form.finish (surroundings .c) arguments result format) before fun code after =>
      Leads job before after ∧
        form.finish after.view.surroundings arguments result format code := by
  refine (Safe.liftExcept _).bind ?_
  rintro code _ ⟨coded, rfl⟩
  by_cases stored : (form.materialized && !form.writesResult) = true
  · simp only [stored, ↓reduceIte]
    refine (materialize_safe sound "tmp" code _ fun name state =>
      legible stored code name state coded).mono ?_
    rintro name after ⟨leads, stores⟩
    refine ⟨leads, code, View.liftExcept_outcome coded, ?_⟩
    simp only [stored, ↓reduceIte]
    exact stores
  · rw [Bool.not_eq_true] at stored
    simp only [stored, Bool.false_eq_true, ↓reduceIte]
    exact .pure ⟨sound.leads, View.finish_outcome coded stored⟩

/-- Codes of the operands of a node that has a template. -/
def Supplied (job : Job) (generator : Generator) (id : NodeId) (template : Template)
    (operands : List String) : Prop :=
  ∃ codes, generator.Prepared job id template codes ∧
    operands = (generator.graph.node id).operands.map codes

variable {id : NodeId} {whole : Template} {operands : List String}

theorem Evolves.supplied {after : Generator} (evolves : Evolves before after)
    (supplied : before.Supplied job id whole operands) :
    after.Supplied job id whole operands := by
  obtain ⟨codes, prepared, same⟩ := supplied
  refine ⟨codes, evolves.prepared prepared, ?_⟩
  rw [same, evolves.graph.operands_eq prepared.chose.lt_size]

theorem Supplied.legible {generator : Generator}
    (supplied : generator.Supplied job id whole operands) {part : Template} (format : Format)
    {name code : String} (within : part.Part whole)
    (declared : generator.view.Declares .variable name)
    (yields : generator.view.Yields part.inPlace operands none format code) :
    Legible job generator (Language.c.assignment name code false) := by
  obtain ⟨codes, prepared, rfl⟩ := supplied
  exact .assignment prepared within declared yields

mutual

/-- The parts of a template that go to temporaries are stored before the template names them. -/
theorem instantiate_safe {before : Generator} (sound : before.Sound job)
    (supplied : before.Supplied job id whole operands) (format : Format) :
    (template : Template) → template.Part whole →
    Safe job (template.instantiate (surroundings .c) operands none format) before
      fun code after => Leads job before after ∧
        after.view.Yields template operands none format code
  | .plain form, within => by
    unfold View.Yields Template.instantiate
    refine (require_safe sound form).andThen fun _ state leads => ?_
    refine (finish_safe leads.sound form operands none format ?_).mono ?_
    · intro _ code name later coded leads' declared
      have evolves := (leads.trans leads').evolves
      refine Supplied.legible (evolves.supplied supplied) format within declared ?_
      exact ⟨(), View.require_outcome _ _, View.finish_outcome coded rfl⟩
    · rintro code after ⟨leads', finished⟩
      exact ⟨leads', (), View.require_outcome _ _, finished⟩
  | .applied form arguments, within => by
    unfold View.Yields Template.instantiate
    refine (require_safe sound form).andThen fun _ state leads => ?_
    have parts : ∀ inner, .nested inner ∈ arguments → inner.Part whole :=
      fun inner member => .trans (.nested member (.whole inner)) within
    refine (expandAll_safe leads.sound (leads.evolves.supplied supplied) arguments parts).chain
      fun codes middle leads' expanded => ?_
    -- The codes of the arguments are needed twice: where the value goes to a temporary, and
    -- after.
    have kept : ∀ later, Leads job middle later →
        expandAll later.view.surroundings operands none arguments codes := fun later onward =>
      expandAll_related Outcomes.sequential onward.evolves.extends.surroundings operands none
        arguments codes expanded
    refine (finish_safe leads'.sound form codes none format ?_).mono ?_
    · intro _ code name later coded onward declared
      have evolves := (leads.trans (leads'.trans onward)).evolves
      refine Supplied.legible (evolves.supplied supplied) format within declared ?_
      exact ⟨(), View.require_outcome _ _, codes, kept later onward,
        View.finish_outcome coded rfl⟩
    · rintro code after ⟨onward, finished⟩
      exact ⟨onward, (), View.require_outcome _ _, codes, kept after onward, finished⟩

theorem expandAll_safe {before : Generator} (sound : before.Sound job)
    (supplied : before.Supplied job id whole operands) :
    (arguments : List TemplateArgument) →
    (∀ inner, .nested inner ∈ arguments → inner.Part whole) →
    Safe job (expandAll (surroundings .c) operands none arguments) before
      fun codes after => Leads job before after ∧
        expandAll after.view.surroundings operands none arguments codes
  | [], _ => by
    unfold expandAll
    exact .pure ⟨sound.leads, rfl⟩
  | argument :: rest, parts => by
    unfold expandAll
    have first := expand_safe sound supplied argument fun inner same =>
      parts inner (same ▸ mem_cons_self)
    refine first.chain fun code state leads expanded => ?_
    have others := expandAll_safe leads.sound (leads.evolves.supplied supplied) rest
      fun inner member => parts inner (mem_cons_of_mem _ member)
    refine others.chain fun codes after leads' expanded' => ?_
    refine .pure ⟨leads'.sound.leads, code, ?_, codes, expanded', rfl⟩
    exact expand_related Outcomes.sequential leads'.evolves.extends.surroundings operands none
      argument code expanded

theorem expand_safe {before : Generator} (sound : before.Sound job)
    (supplied : before.Supplied job id whole operands) :
    (argument : TemplateArgument) → (∀ inner, argument = .nested inner → inner.Part whole) →
    Safe job (expand (surroundings .c) operands none argument) before
      fun code after => Leads job before after ∧
        expand after.view.surroundings operands none argument code
  | .operand _, _ | .result, _ => by
    unfold expand
    refine (Safe.liftExcept _).mono ?_
    rintro code _ ⟨coded, rfl⟩
    rw [coded]
    exact ⟨sound.leads, rfl⟩
  | .literal text, _ => by
    unfold expand
    exact .pure ⟨sound.leads, rfl⟩
  | .nested template, parts => by
    unfold expand
    exact instantiate_safe sound supplied _ template (parts template rfl)

end

theorem tableEntity_safe (sound : before.Sound job) (id : NodeId) (values : List Scalar)
    (format : Format) :
    Safe job (tableEntity id values format) before fun _ after => Leads job before after := by
  refine .get_bind ?_
  cases before.tables.get? id with
  | some entity => exact .pure sound.leads
  | none =>
    refine (onNames_safe sound (Naming.grows_permits.alloc _)).bind ?_
    rintro entity state ⟨leads, _, _⟩
    have kept : Leads job state { state with tables := state.tables.insert id entity } :=
      leads.sound.advance (.refl _) (.refl _) rfl rfl
    refine .bind (modify_safe (fun _ => rfl) kept) ?_
    rintro _ _ ⟨leads', rfl⟩
    exact .pure (leads.trans leads')

/-- A leaf is expressed by its name, its value, or a name that is declared for it. -/
theorem lowerLeaf_safe (sound : before.Sound job) (language : job.options.language = .c)
    (id : NodeId) :
    Safe job (lowerLeaf job.options id (before.graph.node id)) before fun code after =>
      Leads job before after ∧ after.Expresses job id code := by
  unfold lowerLeaf
  cases leaf : (before.graph.node id).payload with
  | none => exact .throw _
  | «variable» name => exact .pure ⟨sound.leads, .named leaf⟩
  | constant value =>
    have inside : id < before.graph.size := Graph.lt_size_of_payload (leaf ▸ nofun)
    dsimp only
    split
    · refine (onNames_safe sound (Naming.grows_permits.declareConstantValue _ _ _)).mono ?_
      rintro name after ⟨leads, _, named⟩
      have bound := Naming.declareConstantValue_binds sound.nested.apart named
      exact ⟨leads, .constant ((leads.evolves.graph.payload_eq inside).trans leaf)
        (leads.sound.declares bound)⟩
    · rw [language]
      exact .pure ⟨sound.leads, .literal leaf⟩
  | table values =>
    have inside : id < before.graph.size := Graph.lt_size_of_payload (leaf ▸ nofun)
    refine (tableEntity_safe sound id values _).andThen fun entity state leads => ?_
    refine (onNames_safe leads.sound (Naming.grows_permits.declareTable entity _)).chain ?_
    rintro table after leads' ⟨_, named⟩
    have bound := Naming.declareTable_binds leads.sound.nested.apart named
    refine (record_safe leads'.sound _).chain ?_
    rintro _ _ leads'' rfl
    have grown := (leads.trans leads').evolves.graph
    exact .pure ⟨leads''.sound.leads, .table ((grown.payload_eq inside).trans leaf)
      (leads'.sound.declares bound)⟩

theorem Prepared.yields {after : Generator} {codes : NodeId → String}
    (prepared : before.Prepared job id whole codes) (evolves : Evolves before after)
    {result : Option String} {code : String}
    (yields : before.view.Yields whole ((before.graph.node id).operands.map codes) result
      (before.graph.node id).format code) :
    after.view.Yields whole ((after.graph.node id).operands.map codes) result
      (after.graph.node id).format code := by
  rw [evolves.graph.operands_eq prepared.chose.lt_size,
    evolves.graph.format_eq prepared.chose.lt_size]
  exact yields.mono evolves.extends

theorem Supplied.lt_size (supplied : before.Supplied job id whole operands) :
    id < before.graph.size := by
  obtain ⟨_, prepared, _⟩ := supplied
  exact prepared.chose.lt_size

/-- A template that stores its result itself takes the operands as they are. -/
theorem Supplied.eq_plain (orderly : job.book.Orderly)
    (supplied : before.Supplied job id whole operands) (writes : whole.form.writesResult = true) :
    ∃ form, whole = .plain form := by
  obtain ⟨_, ⟨⟨_, _, _, lowered⟩, _⟩, _⟩ := supplied
  obtain ⟨selected⟩ := RuleBook.chosen_of_lower lowered
  have direct := orderly.direct _ (RuleBook.mem_actions_of_select selected)
  cases whole with
  | plain form => exact ⟨form, rfl⟩
  | applied form arguments =>
    change form.writesResult = true at writes
    change (!form.writesResult) = true at direct
    rw [writes] at direct
    cases direct

/-- What the book chose is the reason for a piece of work. -/
def Work.Justified (book : RuleBook) (graph : Graph) : Work → Prop
  | .visit _ => True
  | .emit id template => book.Chose graph id (.template template)
  | .share id replacement =>
    ∃ later, book.Chose graph id (.replaced later replacement) ∧ later.Grows graph

theorem Work.Justified.mono {book : RuleBook} {graph larger : Graph} (grows : graph.Grows larger) :
    {next : Work} → next.Justified book graph → next.Justified book larger
  | .visit _, _ => trivial
  | .emit _ _, chose => RuleBook.Chose.mono chose grows
  | .share _ _, ⟨later, chose, grown⟩ => ⟨later, chose.mono grows, grown.trans grows⟩

theorem replace_safe (sound : before.Sound job) {graph : Graph} (grows : before.graph.Grows graph)
    (id replacement : NodeId) :
    Safe job (replace graph id replacement) before fun _ after =>
      Leads job before after ∧ after.graph = graph := by
  refine (record_safe sound _).chain ?_
  rintro _ state leads rfl
  refine .mono (modify_safe (fun _ => rfl) (leads.sound.advance (.refl _) grows rfl rfl)) ?_
  rintro _ _ ⟨leads', rfl⟩
  exact ⟨leads', rfl⟩

section

variable (sound : before.Sound job)

include sound

/-- A node whose template stores its result itself is expressed by the temporary. -/
theorem statement_safe {form : Form} (supplied : before.Supplied job id (.plain form) operands)
    (writes : form.writesResult = true) {name : String}
    (declared : before.view.Declares .variable name) :
    Safe job (do
      let code ← (Template.plain form).instantiate (surroundings .c) operands (some name)
        (before.graph.node id).format
      write (endLine code)
      return name) before fun code after =>
        Leads job before after ∧ after.Expresses job id code ∧
          after.view.Declares .variable code := by
  have inside := supplied.lt_size
  have instantiated : Safe job ((Template.plain form).instantiate (surroundings .c) operands
      (some name) (before.graph.node id).format) before fun code state =>
        Leads job before state ∧ state.view.Yields (.plain form) operands (some name)
          (before.graph.node id).format code := by
    unfold View.Yields Template.instantiate
    refine (require_safe sound form).andThen fun _ state leads => ?_
    refine (finish_safe leads.sound form operands (some name) _ fun impossible => ?_).mono ?_
    · rw [writes, Bool.not_true, Bool.and_false] at impossible
      cases impossible
    · rintro code after ⟨leads', finished⟩
      exact ⟨leads', (), View.require_outcome _ _, finished⟩
  refine instantiated.chain fun code state leads yields => ?_
  obtain ⟨codes, prepared, rfl⟩ := leads.evolves.supplied supplied
  rw [← leads.evolves.graph.format_eq inside] at yields
  have declared' := leads.evolves.extends.declares _ _ declared
  refine (write_safe leads.sound (.statement prepared declared' yields)).chain ?_
  rintro _ after leads' ⟨_, written⟩
  have declared'' := leads'.evolves.extends.declares _ _ declared'
  have prepared' := leads'.evolves.prepared prepared
  exact .pure ⟨leads'.sound.leads, .written prepared'.chose prepared'.operands
    (prepared.yields leads'.evolves yields) ⟨declared'', written⟩, declared''⟩

/-- Codes that are remembered for the operands of a node are supplied to its template. -/
theorem Sound.supplied (chose : job.book.Chose before.graph id (.template whole))
    (known : before.operandCodes (before.graph.node id).operands = .ok operands) :
    before.Supplied job id whole operands := by
  have remembered := operandCodes_eq_ok.mp known
  refine ⟨fun operand => (before.code? operand).getD "", ⟨chose, fun operand member => ?_⟩, ?_⟩
  · have found : before.code? operand ∈ operands.map some := by
      rw [← remembered]
      exact mem_map_of_mem member
    obtain ⟨code, _, same⟩ := mem_map.mp found
    rw [← same]
    exact sound.expresses same.symm
  · calc operands
      _ = (operands.map some).map fun code => code.getD "" := by
        rw [map_map]
        exact (map_id operands).symm
      _ = (before.graph.node id).operands.map fun operand => (before.code? operand).getD "" := by
        rw [← remembered, map_map]
        rfl

variable (language : job.options.language = .c) (orderly : job.book.Orderly)

include language orderly

/-- A node whose operands are expressed is expressed by what is emitted for it, which is a temporary
where the node is used more than once. -/
theorem emitOver_safe (supplied : before.Supplied job id whole operands) :
    Safe job (emitOver job.options id whole operands) before fun code after =>
      Leads job before after ∧ after.Expresses job id code ∧
        (1 < (before.uses.get? id).getD 0 → after.view.Declares .variable code) := by
  have inside := supplied.lt_size
  refine .get_bind ?_
  refine (record_safe sound _).chain ?_
  rintro _ state leads -
  rw [language]
  by_cases writes : whole.form.writesResult = true
  · simp only [writes, ↓reduceIte]
    obtain ⟨form, rfl⟩ := supplied.eq_plain orderly writes
    refine (declareTemporary_safe leads.sound _ _).chain fun name middle leads' declared => ?_
    refine (record_safe leads'.sound _).chain ?_
    rintro _ _ leads'' rfl
    have evolves := (leads.trans (leads'.trans leads'')).evolves
    rw [← evolves.graph.format_eq inside]
    exact (statement_safe leads''.sound (evolves.supplied supplied) writes declared).mono
      fun _ _ done => ⟨done.1, done.2.1, fun _ => done.2.2⟩
  · simp only [writes]
    have supplied' := leads.evolves.supplied supplied
    refine (instantiate_safe leads.sound supplied' _ whole (.whole whole)).chain
      fun code middle leads' yields => ?_
    obtain ⟨codes, prepared, rfl⟩ := leads'.evolves.supplied supplied'
    rw [← (leads.trans leads').evolves.graph.format_eq inside] at yields
    split
    · rename_i stored
      have absent : whole.form.materialized = false :=
        (Bool.not_eq_true' _).mp ((Bool.and_eq_true _ _).mp stored).1
      refine (materialize_safe leads'.sound _ code _ fun name later onward declared => ?_).mono ?_
      · have within : whole.inPlace = whole := Template.inPlace_of_not_materialized absent
        rw [← within] at yields
        exact Supplied.legible (onward.evolves.supplied ⟨codes, prepared, rfl⟩) _ (.whole whole)
          declared (yields.mono onward.evolves.extends)
      · rintro name after ⟨onward, stores⟩
        have prepared' := onward.evolves.prepared prepared
        exact ⟨onward, .stored prepared'.chose prepared'.operands
          (prepared.yields onward.evolves yields) stores, fun _ => stores.1⟩
    · rename_i unstored
      refine .pure ⟨leads'.sound.leads, .inline prepared.chose prepared.operands yields, ?_⟩
      intro shared
      apply yields.declares
      rw [Bool.not_eq_true] at writes
      rw [writes, Bool.not_false, Bool.and_true]
      simpa [shared] using unstored

theorem emit_safe (chose : job.book.Chose before.graph id (.template whole)) :
    Safe job (emit job.options id whole) before fun code after =>
      Leads job before after ∧ after.Expresses job id code ∧
        (1 < (before.uses.get? id).getD 0 → after.view.Declares .variable code) := by
  refine .get_bind ((Safe.liftExcept _).bind ?_)
  rintro codes _ ⟨known, rfl⟩
  exact emitOver_safe sound language orderly (sound.supplied chose known)

theorem visit_safe (path : List NodeId) (id : NodeId) :
    Safe job (step job path (.visit id)) before fun result after =>
      Leads job before after ∧ ∀ more ∈ result.2, more.Justified job.book after.graph := by
  refine .get_bind ?_
  by_cases known : (before.code? id).isSome
  · simp only [known, ↓reduceIte]
    exact .pure ⟨sound.leads, forall_mem_nil _⟩
  by_cases visited : id ∈ path
  · simp only [known, visited, Bool.false_eq_true, ↓reduceIte]
    exact .throw _
  simp only [known, visited, Bool.false_eq_true, ↓reduceIte]
  cases role : (before.graph.node id).operation.role with
  | statement => exact .throw _
  | leaf =>
    refine (lowerLeaf_safe sound language id).chain fun code state leads expresses => ?_
    refine (remember_safe leads.sound expresses).chain ?_
    rintro _ after leads' -
    exact .pure ⟨leads'.sound.leads, forall_mem_nil _⟩
  | value =>
    refine (Safe.liftExcept _).bind ?_
    rintro lowering _ ⟨lowered, rfl⟩
    have chose : job.book.Chose before.graph id lowering :=
      ⟨before.graph, .refl _, Graph.lt_size_of_value role, lowered⟩
    cases lowering with
    | template template =>
      refine .pure ⟨sound.leads, forall_mem_append.mpr ⟨?_, forall_mem_singleton.mpr chose⟩⟩
      exact forall_mem_map.mpr fun _ _ => trivial
    | replaced graph replacement =>
      have grows := orderly.appends.grows lowered
      refine (replace_safe sound grows id replacement).chain ?_
      rintro _ after leads rfl
      refine .pure ⟨leads.sound.leads, forall_mem_cons.mpr ⟨trivial, ?_⟩⟩
      exact forall_mem_singleton.mpr ⟨_, chose.mono grows, .refl _⟩

/-- One piece of work keeps the state sound, and gives reasons for the work that it adds. -/
theorem step_safe (path : List NodeId) (next : Work)
    (justified : next.Justified job.book before.graph) :
    Safe job (step job path next) before fun result after =>
      Leads job before after ∧ ∀ more ∈ result.2, more.Justified job.book after.graph := by
  cases next with
  | visit id => exact visit_safe sound language orderly path id
  | emit id template =>
    refine (emit_safe sound language orderly justified).chain fun code state leads emitted => ?_
    refine (remember_safe leads.sound emitted.1).chain ?_
    rintro _ after leads' -
    exact .pure ⟨leads'.sound.leads, forall_mem_nil _⟩
  | share id replacement =>
    obtain ⟨later, chose, grown⟩ := justified
    refine .get_bind ?_
    cases known : before.code? replacement with
    | none => exact .throw _
    | some code =>
      have expresses : before.Expresses job id code :=
        .replaced chose grown (sound.expresses known)
      refine (remember_safe sound expresses).chain ?_
      rintro _ after leads -
      exact .pure ⟨leads.sound.leads, forall_mem_nil _⟩

end

theorem work_safe (language : job.options.language = .c) (orderly : job.book.Orderly)
    (steps : Nat) : ∀ (path : List NodeId) (pending : List Work) {before : Generator},
    before.Sound job → (∀ next ∈ pending, next.Justified job.book before.graph) →
    Safe job (work job steps path pending) before fun _ after => Leads job before after := by
  induction steps with
  | zero =>
    intro path pending before sound _
    cases pending with
    | nil => exact .pure sound.leads
    | cons next rest => exact .pure sound.leads
  | succ steps ih =>
    intro path pending before sound justified
    cases pending with
    | nil => exact .pure sound.leads
    | cons next rest =>
      obtain ⟨here, others⟩ := forall_mem_cons.mp justified
      refine (step_safe sound language orderly path next here).bind ?_
      rintro ⟨onward, more⟩ state ⟨leads, added⟩
      refine (ih onward (more ++ rest) leads.sound (forall_mem_append.mpr ⟨added, ?_⟩)).mono
        fun _ _ leads' => leads.trans leads'
      exact fun later old => (others later old).mono leads.evolves.graph

/-- The code that lowering gives for a node is expressed in the innermost scope. -/
theorem lowerExpression_safe (sound : before.Sound job) (language : job.options.language = .c)
    (orderly : job.book.Orderly) (root : NodeId) :
    Safe job (lowerExpression job root) before fun code after =>
      Leads job before after ∧ after.Expresses job root code := by
  refine .get_bind ?_
  have started : ∀ next ∈ [Work.visit root], next.Justified job.book before.graph :=
    forall_mem_singleton.mpr trivial
  have within : Safe job (lowerWithin job (stepLimit before.graph) root) before
      fun result after => Leads job before after ∧ ∀ code, result = some code →
        after.Expresses job root code := by
    refine (work_safe language orderly _ [] [.visit root] sound started).andThen
      fun enough state leads => ?_
    cases enough with
    | false => exact .pure ⟨leads.sound.leads, fun _ impossible => by cases impossible⟩
    | true =>
      refine .get_bind ?_
      cases known : state.code? root with
      | none => exact .throw _
      | some code =>
        refine .pure ⟨leads.sound.leads, ?_⟩
        rintro _ ⟨⟩
        exact leads.sound.expresses known
  refine within.chain fun result state leads expresses => ?_
  cases result with
  | none => exact .throw _
  | some code => exact .pure ⟨leads.sound.leads, expresses code rfl⟩

end Generator

end Retarget
