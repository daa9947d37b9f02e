import Retarget.Proofs.Generation.Passing

/-!
# Sound states of generation

Between two steps, the draft of the innermost scope is in no block, and those around it are each in
the block of the next scope. This and `InScope` make up `Sound`. An action is `Safe` where it passes
through states that are in scope, and ends, if it succeeds, in a state with a given property; the
steps of generation are safe from sound states and lead to sound states.
-/

namespace Retarget

open List

theorem forall_mem_of_forall₂ {α : Type} {related : α → α → Prop} {property : α → Prop}
    {first second : List α} (pairs : List.Forall₂ related first second)
    (kept : ∀ left right, related left right → property left → property right)
    (all : ∀ value ∈ first, property value) : ∀ value ∈ second, property value := by
  intro value member
  obtain ⟨earlier, known, pair⟩ := exists_of_mem_forall₂ pairs member
  exact kept earlier value pair (all earlier known)

namespace Generator

/-- A state between two steps of the generation of C code. -/
structure Sound (job : Job) (generator : Generator) : Prop where
  inScope : generator.InScope job
  language : generator.document.language = .c
  nested : generator.document.WellNested
  plain : ∀ draft ∈ generator.document.drafts, draft.flavor = .plain
  flat : generator.document.current.depth = 0
  deeper : ∀ draft ∈ generator.document.enclosing, draft.depth = 1

/-- What a run within one scope may do: names stay bound, drafts are written on and the graph
grows. -/
structure Evolves (before after : Generator) : Prop where
  bound : before.document.names.tables.Persist after.document.names.tables
  drafts : List.Forall₂ Draft.Continues before.document.drafts after.document.drafts
  graph : before.graph.Grows after.graph
  outer : after.outerMemos = before.outerMemos

/-- A sound state that is reached within one scope. -/
structure Leads (job : Job) (before after : Generator) : Prop where
  sound : after.Sound job
  evolves : Evolves before after

/-- A sound state that is reached in a scope inside another one. -/
structure Inside (job : Job) (outer inner : Generator) : Prop where
  sound : inner.Sound job
  bound : outer.document.names.tables.Persist inner.document.names.tables
  drafts : List.Forall₂ Draft.Continues outer.document.drafts inner.document.enclosing
  graph : outer.graph.Grows inner.graph
  memos : inner.outerMemos = outer.levels

section

variable {id : NodeId} {code : String} {job : Job} {first second third before after : Generator}

theorem Evolves.refl (generator : Generator) : Evolves generator generator :=
  ⟨fun _ _ _ => id, forall₂_refl _, .refl _, rfl⟩

theorem Evolves.trans (left : Evolves first second) (right : Evolves second third) :
    Evolves first third where
  bound := left.bound.trans right.bound
  drafts := forall₂_trans left.drafts right.drafts
  graph := left.graph.trans right.graph
  outer := right.outer.trans left.outer

theorem Evolves.extends (evolves : Evolves before after) : before.view.Extends after.view :=
  .of_continues evolves.bound evolves.drafts

theorem Evolves.prepared (evolves : Evolves before after) {template : Template}
    {codes : NodeId → String} (prepared : before.Prepared job id template codes) :
    after.Prepared job id template codes where
  chose := prepared.chose.mono evolves.graph
  operands operand member := by
    rw [evolves.graph.operands_eq prepared.chose.lt_size] at member
    exact Retarget.Expresses.mono (prepared.operands operand member) evolves.extends evolves.graph

theorem Sound.leads (sound : before.Sound job) : Leads job before before :=
  ⟨sound, .refl before⟩

theorem Leads.trans (left : Leads job first second) (right : Leads job second third) :
    Leads job first third :=
  ⟨right.sound, left.evolves.trans right.evolves⟩

theorem Inside.trans (inside : Inside job first second) (leads : Leads job second third) :
    Inside job first third where
  sound := leads.sound
  bound := inside.bound.trans leads.evolves.bound
  drafts := forall₂_trans inside.drafts (forall₂_cons.mp leads.evolves.drafts).2
  graph := inside.graph.trans leads.evolves.graph
  memos := leads.evolves.outer.trans inside.memos

/-- The codes of the scopes around an open one stay expressed while their drafts are written on. -/
theorem Inside.expressed (inside : Inside job first second) {tables : NameTables}
    {drafts : List Draft} (bound : second.document.names.tables.Persist tables)
    (continued : List.Forall₂ Draft.Continues second.document.enclosing drafts) :
    Expressed job.book second.graph tables first.levels drafts := by
  have kept := inside.sound.inScope.tail.mono (.refl _) bound continued
  rw [inside.memos] at kept
  exact kept

theorem Sound.expresses (sound : before.Sound job) (known : before.code? id = some code) :
    before.Expresses job id code :=
  sound.inScope.expresses known

/-- A state whose drafts are written on in the blocks they are in, and whose codes are kept. -/
theorem Sound.advance (sound : before.Sound job)
    (document : Document.Advances before.document after.document)
    (graph : before.graph.Grows after.graph) (memo : after.memo = before.memo)
    (outer : after.outerMemos = before.outerMemos) : Leads job before after := by
  have drafts : List.Forall₂ Draft.Continues before.document.drafts after.document.drafts :=
    document.drafts.imp fun _ _ => Draft.Advances.toContinues
  obtain ⟨innermost, around⟩ := forall₂_cons.mp document.drafts
  refine ⟨⟨?_, ?_, ?_, ?_, ?_, ?_⟩, ⟨document.keeps.bound, drafts, graph, outer⟩⟩
  · have kept := sound.inScope.mono graph document.keeps.bound drafts
    rw [levels, ← memo, ← outer] at kept
    exact kept
  · exact document.language.trans sound.language
  · exact document.keeps.nested sound.nested
  · exact forall_mem_of_forall₂ document.drafts
      (fun _ _ advances plain => advances.flavor.trans plain) sound.plain
  · exact innermost.depth.trans sound.flat
  · exact forall_mem_of_forall₂ around
      (fun _ _ advances depth => advances.depth.trans depth) sound.deeper

theorem Sound.remember (sound : before.Sound job) (expresses : before.Expresses job id code) :
    Leads job before { before with memo := before.memo.insert id code } :=
  ⟨{ sound with inScope := sound.inScope.insert expresses }, { Evolves.refl before with }⟩

theorem onDocument_eq_ok {α : Type} {action : DocumentM α} {value : α}
    (done : onDocument action before = .ok value after) :
    ∃ document, action before.document = .ok value document ∧ after = { before with document } := by
  unfold onDocument at done
  cases outcome : action before.document with
  | error fault document =>
    rw [outcome] at done
    cases done
  | ok result document =>
    rw [outcome] at done
    cases done
    exact ⟨document, rfl, rfl⟩

theorem popMemo_eq_ok {memo : Memo} {outerMemos : List Memo}
    (around : before.outerMemos = memo :: outerMemos) (done : popMemo before = .ok () after) :
    after = { before with memo, outerMemos } := by
  rw [popMemo, modify_eq_ok, around] at done
  cases done
  rfl

theorem Sound.openScope (sound : before.Sound job) (done : openScope before = .ok () after) :
    Inside job before after := by
  have keeps := (Document.openSharing_keeps []).of_eq_ok
    (show Document.openScope before.document = .ok () _ from rfl)
  have opened := before.document.current.append_advances
    before.document.current.language.blockOpen
  have drafts : List.Forall₂ Draft.Continues before.document.drafts
      (before.document.current.openBlock :: before.document.enclosing) :=
    .cons (opened.toContinues.trans (.of_text_append rfl rfl)) (forall₂_refl _)
  have plain := forall_mem_cons.mp sound.plain
  cases done
  refine ⟨⟨?_, sound.language, keeps.nested sound.nested, ?_, rfl, ?_⟩, keeps.bound, drafts,
    .refl _, rfl⟩
  · exact (sound.inScope.mono (.refl _) keeps.bound drafts).push _
  · refine forall_mem_cons.mpr ⟨?_, forall_mem_cons.mpr ⟨?_, plain.2⟩⟩
    · apply Document.flavor_push
      exact sound.language
    · exact opened.flavor.trans plain.1
  · refine forall_mem_cons.mpr ⟨?_, sound.deeper⟩
    exact congrArg Nat.succ (opened.depth.trans sound.flat)

theorem Inside.closeScope (inside : Inside job before after)
    (done : closeScope after = .ok () third) :
    Leads job before third ∧ third.memo = before.memo := by
  obtain ⟨_, middle, popped, closed⟩ := bind_eq_ok.mp done
  cases popMemo_eq_ok inside.memos popped
  obtain ⟨document, closing, rfl⟩ := onDocument_eq_ok closed
  have keeps := Document.closeScope_keeps.of_eq_ok closing
  have plain := forall_mem_cons.mp inside.sound.plain
  obtain ⟨language, parent, enclosing, around, rest, continues, depth, flavor⟩ :=
    Document.closeScope_eq_ok closing
  have deeper := inside.sound.deeper
  -- The draft around the scope takes in what the scope has written and leaves the scope's block.
  have drafts : List.Forall₂ Draft.Continues after.document.enclosing document.drafts := by
    change List.Forall₂ _ _ (document.current :: document.enclosing)
    rw [around, rest]
    exact .cons continues (forall₂_refl _)
  rw [around] at deeper plain
  obtain ⟨outermost, others⟩ := forall_mem_cons.mp deeper
  refine ⟨⟨⟨?_, language.trans inside.sound.language, keeps.nested inside.sound.nested, ?_, ?_, ?_⟩,
    inside.bound.trans keeps.bound, forall₂_trans inside.drafts drafts, inside.graph, rfl⟩, rfl⟩
  · exact inside.expressed keeps.bound drafts
  · obtain ⟨parentPlain, restPlain⟩ := forall_mem_cons.mp plain.2
    refine forall_mem_cons.mpr ⟨flavor.trans parentPlain, ?_⟩
    rw [rest]
    exact restPlain
  · exact Nat.succ.inj (depth.symm.trans outermost)
  · rw [rest]
    exact others

theorem Inside.linkScope {transition : String} (inside : Inside job before after)
    (done : linkScope transition after = .ok () third) : Inside job before third := by
  obtain ⟨_, middle, popped, linked⟩ := bind_eq_ok.mp done
  cases popMemo_eq_ok inside.memos popped
  obtain ⟨_, middle, changed, pushed⟩ := bind_eq_ok.mp linked
  obtain ⟨document, linking, rfl⟩ := onDocument_eq_ok changed
  cases pushed
  have keeps := (Document.linkScope_keeps transition).of_eq_ok linking
  have plain := forall_mem_cons.mp inside.sound.plain
  obtain ⟨language, parent, outer, enclosing, around, rest, advances, flat, flavor⟩ :=
    Document.linkScope_eq_ok linking
  have deeper := inside.sound.deeper
  have drafts : List.Forall₂ Draft.Continues after.document.enclosing document.enclosing := by
    rw [around, rest]
    exact .cons advances.toContinues (forall₂_refl _)
  rw [around] at deeper plain
  obtain ⟨outermost, others⟩ := forall_mem_cons.mp deeper
  refine ⟨⟨?_, language.trans inside.sound.language, keeps.nested inside.sound.nested, ?_, flat,
    ?_⟩, inside.bound.trans keeps.bound, forall₂_trans inside.drafts drafts, inside.graph, rfl⟩
  · exact (inside.expressed keeps.bound drafts).push document.current
  · obtain ⟨parentPlain, restPlain⟩ := forall_mem_cons.mp plain.2
    refine forall_mem_cons.mpr ⟨flavor inside.sound.language, ?_⟩
    rw [rest]
    exact forall_mem_cons.mpr ⟨advances.flavor.trans parentPlain, restPlain⟩
  · rw [rest]
    exact forall_mem_cons.mpr ⟨advances.depth.trans outermost, others⟩

end

/-- An action that passes through states in scope, and ends in states with a property. -/
structure Safe {α : Type} (job : Job) (action : GeneratorM α) (before : Generator)
    (post : α → Generator → Prop) : Prop where
  passes : Passes job (InScope job) action before
  ends : ∀ value after, action before = .ok value after → post value after

namespace Safe

variable {job : Job} {α β : Type} {action : GeneratorM α} {next : α → GeneratorM β}
  {before : Generator} {middle : α → Generator → Prop} {post : β → Generator → Prop}

theorem pure {value : β} (held : post value before) :
    Safe job (Pure.pure value) before post :=
  ⟨.pure value before, fun _ _ done => by cases done; exact held⟩

theorem throw (fault : Fault) : Safe job (throw fault) before post :=
  ⟨.throw fault before, fun _ _ done => by cases done⟩

theorem liftExcept (result : Except Fault α) :
    Safe job (liftExcept result) before fun value after => result = .ok value ∧ before = after := by
  cases result with
  | ok value => exact .pure ⟨rfl, rfl⟩
  | error fault => exact .throw fault

theorem mono {other : α → Generator → Prop} (safe : Safe job action before middle)
    (weaker : ∀ value after, middle value after → other value after) :
    Safe job action before other :=
  ⟨safe.passes, fun value after done => weaker value after (safe.ends value after done)⟩

theorem bind (first : Safe job action before middle)
    (rest : ∀ value state, middle value state → Safe job (next value) state post) :
    Safe job (action >>= next) before post where
  passes := .bind first.passes fun value state done =>
    (rest value state (first.ends value state done)).passes
  ends value after done := by
    obtain ⟨result, state, reached, finished⟩ := bind_eq_ok.mp done
    exact (rest result state (first.ends result state reached)).ends value after finished

theorem get_bind {next : Generator → GeneratorM β} (rest : Safe job (next before) before post) :
    Safe job (get >>= next) before post where
  passes := .bind (.get before) fun value state done => by
    cases done
    exact rest.passes
  ends := rest.ends

/-- Two actions within one scope, one after the other. -/
theorem chain (first : Safe job action before fun value state =>
      Leads job before state ∧ middle value state)
    (rest : ∀ value state, Leads job before state → middle value state →
      Safe job (next value) state fun result after => Leads job state after ∧ post result after) :
    Safe job (action >>= next) before fun result after =>
      Leads job before after ∧ post result after :=
  first.bind fun value state reached =>
    (rest value state reached.1 reached.2).mono fun _ _ ended =>
      ⟨reached.1.trans ended.1, ended.2⟩

theorem andThen (first : Safe job action before fun _ state => Leads job before state)
    (rest : ∀ value state, Leads job before state →
      Safe job (next value) state fun result after => Leads job state after ∧ post result after) :
    Safe job (action >>= next) before fun result after =>
      Leads job before after ∧ post result after :=
  (first.mono fun _ _ leads => ⟨leads, trivial⟩).chain fun value state leads _ =>
    rest value state leads

theorem forM {holds : Generator → Prop} {values : List α} {action : α → GeneratorM PUnit}
    (each : ∀ value ∈ values, ∀ state, holds state →
      Safe job (action value) state fun _ after => holds after)
    (start : holds before) : Safe job (values.forM action) before fun _ after => holds after := by
  induction values generalizing before with
  | nil => exact .pure start
  | cons value rest ih =>
    refine (each value mem_cons_self before start).bind fun _ state held => ?_
    exact ih (fun other member => each other (mem_cons_of_mem _ member)) held

theorem step (primitive : Primitive action)
    (ends : ∀ value after, action before = .ok value after →
      Leads job before after ∧ middle value after) :
    Safe job action before fun value after => Leads job before after ∧ middle value after :=
  ⟨.step primitive fun value after done => (ends value after done).1.sound.inScope, ends⟩

end Safe

section

variable {job : Job} {before : Generator}

theorem modify_safe {change : Generator → Generator}
    (same : ∀ generator, (change generator).document = generator.document)
    (leads : Leads job before (change before)) :
    Safe job (modify change) before fun _ after =>
      Leads job before after ∧ after = change before := by
  refine .step (.records _ same) ?_
  rintro _ _ ⟨⟩
  exact ⟨leads, rfl⟩

section

variable (sound : before.Sound job)

include sound

theorem record_safe (change : Session → Session) :
    Safe job (record change) before fun _ after =>
      Leads job before after ∧ after = { before with session := change before.session } :=
  modify_safe (fun _ => rfl) (sound.advance (.refl _) (.refl _) rfl rfl)

theorem remember_safe {id : NodeId} {code : String} (expresses : before.Expresses job id code) :
    Safe job (remember id code) before fun _ after =>
      Leads job before after ∧ after = { before with memo := before.memo.insert id code } :=
  modify_safe (fun _ => rfl) (sound.remember expresses)

theorem onDocument_safe {α : Type} {action : DocumentM α}
    (primitive : Primitive (onDocument action)) (advances : Changes Document.Advances action) :
    Safe job (onDocument action) before fun value after =>
      Leads job before after ∧ ∃ document, action before.document = .ok value document ∧
        after = { before with document } := by
  refine .step primitive fun value after done => ?_
  obtain ⟨document, acted, rfl⟩ := onDocument_eq_ok done
  exact ⟨sound.advance (advances.of_eq_ok acted) (.refl _) rfl rfl, document, acted, rfl⟩

/-- A text that is written stands in the innermost draft as it is. -/
theorem write_safe {text : String} (legible : Legible job before text) :
    Safe job (write text) before fun _ after =>
      Leads job before after ∧ after.memo = before.memo ∧
        ∃ draft ∈ after.document.drafts, text.toList <:+: draft.text.toList := by
  have leads : ∀ after, write text before = .ok () after → Leads job before after := by
    rintro after ⟨⟩
    exact sound.advance (Document.append_advances text before.document) (.refl _) rfl rfl
  refine ⟨.write legible fun after done => (leads after done).sound.inScope, ?_⟩
  intro value after done
  refine ⟨leads after done, ?_⟩
  cases done
  refine ⟨rfl, before.document.current.append text, mem_cons_self, ?_⟩
  unfold Draft.append
  simp only [sound.flat, ↓reduceIte, String.toList_append]
  exact (suffix_append _ _).isInfix

end

/-- The names of the innermost scope. -/
def naming (generator : Generator) : Naming :=
  { toNames := generator.document.names, scope := generator.document.current.scope }

section

variable (sound : before.Sound job)

include sound

theorem onNames_safe {α : Type} {action : NamingM α} (grows : Changes Naming.Grows action) :
    Safe job (onNames action) before fun value after =>
      Leads job before after ∧ after.memo = before.memo ∧
        action before.naming = .ok value after.naming := by
  refine (onDocument_safe sound (.names action) (Document.withNames_advances grows)).mono ?_
  rintro value after ⟨leads, document, acted, rfl⟩
  obtain ⟨naming, named, rfl⟩ := Document.withNames_eq_ok acted
  exact ⟨leads, rfl, named⟩

theorem Sound.declares {category : Category} {name : String} {entity : EntityId}
    (bound : before.naming.scope.Binds before.naming.tables category name entity) :
    before.view.Declares category name := by
  obtain ⟨tables, member, found⟩ := bound
  change tables ∈ before.document.current.scope.chain at member
  rw [sound.nested.chain_eq] at member
  obtain ⟨scope, inside, rfl⟩ := mem_map.mp member
  obtain ⟨draft, here, rfl⟩ : ∃ draft ∈ before.document.drafts, draft.scope = scope :=
    mem_map.mp inside
  exact ⟨draft, here, (NameTable.not_isFree_iff _ _).mpr ⟨entity, found⟩⟩

theorem declareTemporary_safe (stem : String) (format : Format) :
    Safe job (onDocument (Document.declareTemporary stem format)) before fun name after =>
      Leads job before after ∧ after.view.Declares .variable name := by
  refine (onDocument_safe sound (.temporary stem format)
    (Document.declareTemporary_advances stem format)).mono ?_
  rintro name after ⟨leads, document, acted, rfl⟩
  refine ⟨leads, ?_⟩
  change Document.withNames (Draft.declareTemporary before.document.current.flavor stem format)
    before.document = _ at acted
  rw [(forall_mem_cons.mp sound.plain).1] at acted
  obtain ⟨naming, named, rfl⟩ := Document.withNames_eq_ok acted
  exact leads.sound.declares (Naming.declareNew_binds sound.nested.apart named)

theorem openScope_safe : Safe job openScope before fun _ after => Inside job before after :=
  ⟨.step .opens fun _ _ done => (sound.openScope done).sound.inScope,
    fun _ _ done => sound.openScope done⟩

end

theorem linkScope_safe {outer : Generator} (inside : Inside job outer before)
    (transition : String) :
    Safe job (linkScope transition) before fun _ after => Inside job outer after :=
  ⟨.step (.links transition) fun _ _ done => (inside.linkScope done).sound.inScope,
    fun _ _ done => inside.linkScope done⟩

theorem closeScope_safe {outer : Generator} (inside : Inside job outer before) :
    Safe job closeScope before fun _ after =>
      Leads job outer after ∧ after.memo = outer.memo :=
  ⟨.step .closes fun _ _ done => (inside.closeScope done).1.sound.inScope,
    fun _ _ done => inside.closeScope done⟩

end

end Generator

end Retarget
