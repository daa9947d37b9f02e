import Retarget.Proofs.Generation.Sound
import Retarget.Proofs.Output.Mirroring
import Retarget.Proofs.Rule.Mirroring

/-!
# Runs of generation that mirror each other

Two runs of generation over graphs that mirror each other write the same, as long as both succeed.
The steps that each of them may take depend on its own graph, so they are compared step by step and
not bound by bound.
-/

namespace Retarget

open List

/-- What two runs of generation set out from. -/
structure Outset extends Footing where
  nodes : Pairing
  /-- The graphs when the runs set out. -/
  graph : Graph
  graph' : Graph

namespace Generator

variable {no no' : Option NodeId}

/-- Two states of generation that were reached in the same way, with a number of scopes open in the
outermost one. -/
structure Mirrors (outset : Outset) (depth : Nat) (generator other : Generator) : Prop where
  graph : generator.graph.Mirrors outset.nodes other.graph
  kept : outset.graph.Extends generator.graph
  kept' : outset.graph'.Extends other.graph
  document : generator.document.Mirrors outset.toFooting depth 0 other.document
  levels : List.Forall₂ (OrderedMap.Mirrors outset.nodes (· = ·)) generator.levels other.levels
  uses : generator.uses.Mirrors outset.nodes (· = ·) other.uses
  frame : generator.frame = other.frame

/-- Pieces of work that stand for each other. -/
inductive Work.Mirrors (nodes : Pairing) : Work → Work → Prop where
  | visit {id partner : NodeId} (pairs : nodes.Pairs id partner) :
      Mirrors nodes (.visit id) (.visit partner)
  | emit {id partner : NodeId} (pairs : nodes.Pairs id partner) (template : Template) :
      Mirrors nodes (.emit id template) (.emit partner template)
  | share {id partner new new' : NodeId} (pairs : nodes.Pairs id partner)
      (also : nodes.Pairs new new') : Mirrors nodes (.share id new) (.share partner new')

variable {outset : Outset} {depth : Nat} {generator other : Generator} {id partner : NodeId}

theorem Mirrors.code?_eq (mirrors : generator.Mirrors outset depth other)
    (pairs : outset.nodes.Pairs id partner) : generator.code? id = other.code? partner := by
  have levels := mirrors.levels
  unfold code?
  generalize generator.levels = first at levels
  generalize other.levels = second at levels
  induction levels with
  | nil => rfl
  | cons here _ ih => rw [findSome?_cons, findSome?_cons, here.get?_eq pairs, ih]

theorem Mirrors.operandCodes_eq (mirrors : generator.Mirrors outset depth other)
    {operands operands' : List NodeId} (listed : List.Forall₂ outset.nodes.Pairs operands operands')
    {codes codes' : List String} (known : generator.operandCodes operands = .ok codes)
    (known' : other.operandCodes operands' = .ok codes') : codes = codes' := by
  have same : operands'.map other.code? = operands.map generator.code? :=
    map_eq_map_of_forall₂ listed fun _ _ here => (mirrors.code?_eq here).symm
  rw [operandCodes_eq_ok.mp known, operandCodes_eq_ok.mp known'] at same
  exact map_injective_iff.mpr (Option.some_injective _) same.symm

/-! ## Single steps -/

theorem onDocument_together {α : Type} {action action' : DocumentM α} {depth' : Nat}
    (mirrors : generator.Mirrors outset depth other)
    (together : Together action generator.document action' other.document
      fun value value' next beside => value = value' ∧ next.Mirrors outset.toFooting depth' 0 beside) :
    Together (onDocument action) generator (onDocument action') other
      fun value value' next beside => value = value' ∧ next.Mirrors outset depth' beside := by
  intro value value' next beside done also
  obtain ⟨document, acted, rfl⟩ := onDocument_eq_ok done
  obtain ⟨document', acted', rfl⟩ := onDocument_eq_ok also
  obtain ⟨same, documents⟩ := together _ _ _ _ acted acted'
  exact ⟨same, { mirrors with document := documents }⟩

theorem onDocument_agrees {α : Type} {action : DocumentM α}
    (agrees : Agrees (Document.Mirrors outset.toFooting depth 0) action action) :
    Agrees (Mirrors outset depth) (onDocument action) (onDocument action) :=
  fun _ _ mirrors => onDocument_together mirrors (agrees _ _ mirrors.document)

theorem onNames_agrees {α : Type} {action : NamingM α}
    (agrees : Agrees (Naming.Mirrors outset.names outset.policy.shares) action action) :
    Agrees (Mirrors outset (depth + 1)) (onNames action) (onNames action) :=
  onDocument_agrees (Document.withNames_agrees agrees)

theorem write_agrees (text : String) :
    Agrees (Mirrors outset depth) (write text) (write text) :=
  onDocument_agrees (.modified fun _ _ mirrors => mirrors.modifyCurrent (·.append text))

/-- What a session counts is not looked at. -/
theorem record_agrees (change change' : Session → Session) :
    Agrees (Mirrors outset depth) (record change) (record change') :=
  .modified fun _ _ mirrors => { mirrors with }

section

variable (mirrors : generator.Mirrors outset depth other)

include mirrors

theorem Mirrors.remember (pairs : outset.nodes.Pairs id partner) (code : String) :
    Together (remember id code) generator (remember partner code) other
      fun _ _ next beside => next.Mirrors outset depth beside := by
  obtain ⟨here, around⟩ := forall₂_cons.mp mirrors.levels
  exact .modified { mirrors with levels := .cons (here.insert pairs rfl) around }

theorem Mirrors.openScope :
    Together openScope generator openScope other
      fun _ _ next beside => next.Mirrors outset (depth + 1) beside := by
  have opened := onDocument_together mirrors
    (mirrors.document.openScope.mono fun _ _ _ _ opened => ⟨rfl, opened⟩)
  refine opened.bind fun _ _ next beside opened => ?_
  refine .modify_bind (.modified ?_)
  exact { opened.2 with levels := .cons .empty opened.2.levels }

theorem Mirrors.popMemo :
    Together popMemo generator popMemo other
      fun _ _ next beside => next.Mirrors outset depth beside := by
  have around := (forall₂_cons.mp mirrors.levels).2
  refine .modified ?_
  cases outer : generator.outerMemos with
  | nil =>
    rw [outer] at around
    rw [forall₂_nil_left_iff.mp around]
    exact { mirrors with levels := .cons .empty .nil }
  | cons memo rest =>
    rw [outer] at around
    obtain ⟨memo', rest', _, _, outer'⟩ := forall₂_cons_left_iff.mp around
    rw [outer'] at around ⊢
    exact { mirrors with levels := around }

end

theorem Mirrors.closeScope (mirrors : generator.Mirrors outset (depth + 1) other) :
    Together closeScope generator closeScope other
      fun _ _ next beside => next.Mirrors outset depth beside := by
  refine mirrors.popMemo.bind fun _ _ _ _ mirrors => ?_
  have closed := onDocument_together mirrors
    (mirrors.document.closeScope.mono fun _ _ _ _ closed => ⟨rfl, closed⟩)
  exact closed.mono fun _ _ _ _ closed => closed.2

theorem linkScope_agrees (transition : String) :
    Agrees (Mirrors outset (depth + 1)) (linkScope transition) (linkScope transition) := by
  intro generator other mirrors
  refine mirrors.popMemo.bind fun _ _ next beside mirrors => ?_
  refine (onDocument_agrees (Document.linkScope_agrees transition) next beside mirrors).bind
    fun _ _ next beside linked => ?_
  refine .modify_bind (.modified ⟨rfl, ?_⟩)
  exact { linked.2 with levels := .cons .empty linked.2.levels }

theorem reserve_agrees (name : String) (format : Format) :
    Agrees (Mirrors outset (depth + 1)) (reserve name format) (reserve name format) :=
  onNames_agrees (Naming.claim_agrees (outset.standard.shares_eq_false (by decide)) name _)

theorem materialize_agrees (stem code : String) (format : Format) :
    Agrees (Mirrors outset (depth + 1)) (materialize stem code format)
      (materialize stem code format) := by
  intro generator other mirrors
  refine .get_bind ?_
  rw [mirrors.document.language, mirrors.document.language']
  refine (onDocument_agrees (Document.declareTemporary_agrees stem format) _ _ mirrors).bind ?_
  rintro name _ next beside ⟨rfl, mirrors⟩
  refine (write_agrees _ _ _ mirrors).bind fun _ _ _ _ written => ?_
  exact (record_agrees _ _ _ _ written.2).bind fun _ _ _ _ recorded => .pure ⟨rfl, recorded.2⟩

/-! ## Expressions -/

theorem agrees_sequential (outset : Outset) (depth : Nat) :
    Sequential (m := GeneratorM) (n := GeneratorM)
      fun _ first second => Agrees (Mirrors outset (depth + 1)) first second :=
  ⟨.pure, .throw, .bind⟩

theorem surroundings_related (language : Language) :
    Surroundings.Related
      (fun _ first second => Agrees (Mirrors outset (depth + 1)) first second)
      (surroundings language) (surroundings language) where
  requireHeader header := @onDocument_agrees _ _ _ (Document.addHeader header)
    (.modified fun _ _ mirrors => mirrors.modifyRoot fun root => { root with })
  requireLibrary library := @onDocument_agrees _ _ _ (Document.addLibrary library)
    (.modified fun _ _ mirrors => mirrors.modifyRoot fun root => { root with })
  materialize := materialize_agrees "tmp"
  typeName := rfl

/-- Leaves have the same code, tables apart. -/
theorem lowerLeaf_together (mirrors : generator.Mirrors outset (depth + 1) other) (options : Options)
    {node node' : Node} (same : node.Mirrors outset.nodes node') :
    Together (lowerLeaf options id node) generator (lowerLeaf options partner node') other
      fun code code' next beside => code = code' ∧ next.Mirrors outset (depth + 1) beside := by
  unfold lowerLeaf
  rw [← same.payload, ← same.tag, ← same.format, ← same.operation]
  cases carried : node.payload with
  | «variable» name => exact .pure ⟨rfl, mirrors⟩
  | constant value =>
    dsimp only
    split
    · exact onNames_agrees (Naming.declareConstantValue_agrees outset.standard.shares_constant
        value node.format _) generator other mirrors
    · exact .pure ⟨rfl, mirrors⟩
  | table values => exact absurd carried (same.tableless values)
  | none => exact .throw_left _

theorem instantiate_agrees (language : Language) (operands : List String) (result : Option String)
    (format : Format) (template : Template) :
    Agrees (Mirrors outset (depth + 1))
      (template.instantiate (surroundings language) operands result format)
      (template.instantiate (surroundings language) operands result format) :=
  Template.instantiate_related (agrees_sequential outset depth) (surroundings_related language)
    operands result format template

section

variable (mirrors : generator.Mirrors outset (depth + 1) other) (options : Options)
  (pairs : outset.nodes.Pairs id partner) (template : Template)

include mirrors pairs

/-- Nodes have the same code over the same codes. -/
theorem emitOver_together (operands : List String) :
    Together (emitOver options id template operands) generator
      (emitOver options partner template operands) other
      fun code code' next beside => code = code' ∧ next.Mirrors outset (depth + 1) beside := by
  have same := mirrors.graph.node pairs
  have uses := mirrors.uses.get?_eq pairs
  unfold emitOver
  refine .get_bind ?_
  dsimp only
  rw [← same.operation, ← same.tag, ← same.format, ← uses]
  refine (record_agrees _ _ _ _ mirrors).bind fun _ _ next beside recorded => ?_
  split
  · refine (onDocument_agrees (Document.declareTemporary_agrees _ _) _ _ recorded.2).bind ?_
    rintro name _ next beside ⟨rfl, mirrors⟩
    refine (record_agrees _ _ _ _ mirrors).bind fun _ _ _ _ recorded => ?_
    refine (instantiate_agrees _ _ _ _ template _ _ recorded.2).bind ?_
    rintro code _ next beside ⟨rfl, mirrors⟩
    exact (write_agrees _ _ _ mirrors).bind fun _ _ _ _ written => .pure ⟨rfl, written.2⟩
  · refine (instantiate_agrees _ _ _ _ template _ _ recorded.2).bind ?_
    rintro code _ next beside ⟨rfl, mirrors⟩
    split
    · exact materialize_agrees _ _ _ _ _ mirrors
    · exact .pure ⟨rfl, mirrors⟩

theorem emit_together :
    Together (emit options id template) generator (emit options partner template) other
      fun code code' next beside => code = code' ∧ next.Mirrors outset (depth + 1) beside := by
  have listed := (mirrors.graph.node pairs).operands
  unfold emit
  refine .get_bind ?_
  refine .liftExcept_bind fun codes codes' known known' => ?_
  cases mirrors.operandCodes_eq listed known known'
  exact emitOver_together mirrors options pairs template codes

end

theorem Mirrors.replace (mirrors : generator.Mirrors outset depth other)
    {graph graph' : Graph} {new new' : NodeId} (pairs : outset.nodes.Pairs id partner)
    (also : outset.nodes.Pairs new new') (graphs : graph.Mirrors outset.nodes graph')
    (kept : generator.graph.Extends graph) (kept' : other.graph.Extends graph') :
    Together (replace graph id new) generator (replace graph' partner new') other
      fun _ _ next beside => next.Mirrors outset depth beside := by
  refine .modify_bind (.modified ?_)
  exact { mirrors with
    graph := graphs
    kept := mirrors.kept.trans kept
    kept' := mirrors.kept'.trans kept'
    uses := graphs.moveUses mirrors.uses pairs also }

variable {job : Job} {onTheWay onTheWay' : List NodeId}

/-- What two steps leave to do. -/
def Remaining (outset : Outset) (left right : List NodeId × List Work) : Prop :=
  List.Forall₂ outset.nodes.Pairs left.1 right.1 ∧
    List.Forall₂ (Work.Mirrors outset.nodes) left.2 right.2

section

variable (extended : job.book.ExtendsPortable) (tame : job.book.Tame)

include extended tame

section

variable (mirrors : generator.Mirrors outset (depth + 1) other)

include mirrors

/-- One piece of work is done in both runs. -/
theorem step_together (waits : List.Forall₂ outset.nodes.Pairs onTheWay onTheWay')
    {next next' : Work} (same : next.Mirrors outset.nodes next') :
    Together (step job onTheWay next) generator (step job onTheWay' next') other
      fun left right next beside =>
        Remaining outset left right ∧ next.Mirrors outset (depth + 1) beside := by
  cases same with
  | @visit id partner pairs =>
    have node := mirrors.graph.node pairs
    have path : id ∈ onTheWay ↔ partner ∈ onTheWay' := outset.nodes.mem_iff waits pairs
    refine .get_bind ?_
    dsimp only
    simp only [mirrors.code?_eq pairs, path, node.operation]
    split
    · exact .pure ⟨⟨waits, .nil⟩, mirrors⟩
    split
    · exact .throw_left _
    cases (other.graph.node partner).operation.role with
    | statement => exact .throw_left _
    | leaf =>
      refine (lowerLeaf_together mirrors job.options node).bind ?_
      rintro code _ next beside ⟨rfl, mirrors⟩
      exact (mirrors.remember pairs code).bind fun _ _ _ _ mirrors =>
        .pure ⟨⟨waits, .nil⟩, mirrors⟩
    | value =>
      -- The same rule is chosen for nodes that stand for each other.
      have visits : Relator.LiftFun outset.nodes.Pairs (Work.Mirrors outset.nodes) .visit .visit :=
        fun _ _ => .visit
      have operands := rel_map visits (mirrors.graph.node pairs).operands
      refine .liftExcept_bind fun lowering lowering' lowered lowered' => ?_
      cases extended.lower_mirrors mirrors.graph pairs lowered lowered' with
      | template template =>
        exact .pure ⟨⟨.cons pairs waits,
          rel_append operands (.cons (.emit pairs template) .nil)⟩, mirrors⟩
      | replaced graphs also =>
        have kept := tame.lower_extends lowered
        have kept' := tame.lower_extends lowered'
        refine (mirrors.replace pairs also graphs kept kept').bind fun _ _ _ _ mirrors => ?_
        exact .pure ⟨⟨.cons pairs waits, .cons (.visit also) (.cons (.share pairs also) .nil)⟩,
          mirrors⟩
  | emit pairs template =>
    refine (emit_together mirrors job.options pairs template).bind ?_
    rintro code _ next beside ⟨rfl, mirrors⟩
    refine (mirrors.remember pairs code).bind fun _ _ _ _ mirrors => ?_
    exact .pure ⟨⟨outset.nodes.forall₂_erase waits pairs, .nil⟩, mirrors⟩
  | share pairs also =>
    unfold step
    refine .get_bind ?_
    rw [mirrors.code?_eq also]
    split
    · rename_i code _
      refine (mirrors.remember pairs code).bind fun _ _ _ _ mirrors => ?_
      exact .pure ⟨⟨outset.nodes.forall₂_erase waits pairs, .nil⟩, mirrors⟩
    · exact .throw_left _

/-- Stacks of work are worked off in both runs, where the steps of both are enough. -/
theorem work_together {steps steps' : Nat}
    (waits : List.Forall₂ outset.nodes.Pairs onTheWay onTheWay') {stack stack' : List Work}
    (same : List.Forall₂ (Work.Mirrors outset.nodes) stack stack') :
    Together (work job steps onTheWay stack) generator (work job steps' onTheWay' stack') other
      fun enough enough' next beside => enough = true → enough' = true →
        next.Mirrors outset (depth + 1) beside := by
  induction steps generalizing steps' generator other onTheWay onTheWay' stack stack' with
  | zero =>
    cases same with
    | nil =>
      cases steps' <;> exact .pure fun _ _ => mirrors
    | cons =>
      rintro _ _ _ _ ⟨⟩ _ finished
      cases finished
  | succ steps ih =>
    cases same with
    | nil =>
      cases steps' <;> exact .pure fun _ _ => mirrors
    | cons here rest =>
      cases steps' with
      | zero =>
        rintro _ _ _ _ _ ⟨⟩ _ finished
        cases finished
      | succ steps' =>
        refine (step_together extended tame mirrors waits here).bind ?_
        rintro ⟨path, more⟩ ⟨path', more'⟩ next beside ⟨⟨waits, stacked⟩, mirrors⟩
        exact ih mirrors waits (rel_append stacked rest)

/-- Values that stand for each other have the same code. -/
theorem lowerExpression_together (pairs : outset.nodes.Pairs id partner) :
    Together (lowerExpression job id) generator (lowerExpression job partner) other
      fun code code' next beside => code = code' ∧ next.Mirrors outset (depth + 1) beside := by
  have within (steps steps' : Nat) :
      Together (lowerWithin job steps id) generator (lowerWithin job steps' partner) other
        fun found found' next beside => ∀ code code', found = some code → found' = some code' →
          code = code' ∧ next.Mirrors outset (depth + 1) beside := by
    refine (work_together extended tame mirrors .nil (.cons (.visit pairs) .nil)).bind ?_
    intro enough enough' next beside finished
    cases enough with
    | false =>
      rintro _ _ _ _ ⟨⟩ _ _ _ ⟨⟩
    | true =>
      cases enough' with
      | false => rintro _ _ _ _ _ ⟨⟩ _ _ _ ⟨⟩
      | true =>
        have mirrors := finished rfl rfl
        refine .get_bind ?_
        rw [mirrors.code?_eq pairs]
        cases beside.code? partner with
        | none => exact .throw_left _
        | some code =>
          refine .pure ?_
          rintro _ _ ⟨⟩ ⟨⟩
          exact ⟨rfl, mirrors⟩
  refine .get_bind ((within _ _).bind ?_)
  intro found found' next beside same
  cases found with
  | none => exact .throw_left _
  | some code =>
    cases found' with
    | none => exact .throw_right _
    | some code' => exact .pure (same code code' rfl rfl)

end

end

/-! ## Statements -/

/-- A way to lower statements that stand for each other. -/
def Lowers (outset : Outset) (lower lower' : NodeId → GeneratorM Unit) : Prop :=
  ∀ {depth generator other id partner}, Mirrors outset (depth + 1) generator other →
    outset.nodes.Pairs id partner →
    Together (lower id) generator (lower' partner) other
      fun _ _ next beside => next.Mirrors outset (depth + 1) beside

variable {lower lower' : NodeId → GeneratorM Unit}

section

variable (lowers : Lowers outset lower lower')
  (mirrors : generator.Mirrors outset (depth + 1) other)

include lowers mirrors

theorem lowerElseC_together (branch : Option.Rel outset.nodes.Pairs no no') :
    Together (lowerElseC lower no) generator (lowerElseC lower' no') other
      fun _ _ next beside => next.Mirrors outset (depth + 1) beside := by
  match no, no', branch with
  | _, _, .none => exact .pure mirrors
  | _, _, .some pairs =>
    exact (linkScope_agrees "else" _ _ mirrors).bind fun _ _ _ _ linked => lowers linked.2 pairs

theorem lowerConditionC_together (condition : String) {yes yes' : NodeId}
    (first : outset.nodes.Pairs yes yes') (second : Option.Rel outset.nodes.Pairs no no') :
    Together (lowerConditionC lower condition yes no) generator
      (lowerConditionC lower' condition yes' no') other
      fun _ _ next beside => next.Mirrors outset (depth + 1) beside := by
  refine (write_agrees _ _ _ mirrors).bind fun _ _ _ _ written => ?_
  refine written.2.openScope.bind fun _ _ _ _ opened => ?_
  refine (lowers opened first).bind fun _ _ _ _ lowered => ?_
  refine (lowerElseC_together lowers lowered second).bind fun _ _ _ _ lowered => ?_
  exact lowered.closeScope

end

theorem lowerResult_together (c : job.options.language = .c)
    (mirrors : generator.Mirrors outset depth other) (code : String) :
    Together (lowerResult job.options code) generator (lowerResult job.options code) other
      fun _ _ next beside => next.Mirrors outset depth beside := by
  refine .get_bind ?_
  rw [mirrors.frame, c]
  cases other.frame with
  | none => exact .throw_left _
  | some frame => exact (write_agrees _ _ _ mirrors).mono fun _ _ _ _ written => written.2

section

variable (extended : job.book.ExtendsPortable) (tame : job.book.Tame)
  (c : job.options.language = .c)

include extended tame c

theorem lowerCondition_together (lowers : Lowers outset lower lower')
    (mirrors : generator.Mirrors outset (depth + 1) other) {condition condition' : NodeId}
    (pairs : outset.nodes.Pairs condition condition') {yes yes' : NodeId}
    (first : outset.nodes.Pairs yes yes') (second : Option.Rel outset.nodes.Pairs no no') :
    Together (lowerCondition job lower condition yes no) generator
      (lowerCondition job lower' condition' yes' no') other
      fun _ _ next beside => next.Mirrors outset (depth + 1) beside := by
  refine (lowerExpression_together extended tame mirrors pairs).bind ?_
  rintro code _ next beside ⟨rfl, mirrors⟩
  rw [c]
  exact lowerConditionC_together lowers mirrors code first second

/-- Statements that stand for each other are lowered in the same way. -/
theorem lowerStatement_lowers (bound bound' : Nat) :
    Lowers outset (lowerStatement job bound) (lowerStatement job bound') := by
  induction bound generalizing bound' with
  | zero => exact fun _ _ => .throw_left _
  | succ bound ih =>
    intro depth generator other id partner mirrors pairs
    cases bound' with
    | zero => exact .throw_right _
    | succ bound' =>
      have node := mirrors.graph.node pairs
      have listed := node.operands
      refine .get_bind ?_
      dsimp only
      rw [node.operation]
      generalize (other.graph.node partner).operation = operation
      generalize (generator.graph.node id).operands = operands at listed
      generalize (other.graph.node partner).operands = operands' at listed
      cases operation with
      | sequence =>
        exact .forM listed (fun _ _ here _ _ mirrors => ih bound' mirrors here) mirrors
      | ret =>
        cases listed with
        | nil => exact .throw_left _
        | cons here _ =>
          refine (lowerExpression_together extended tame mirrors here).bind ?_
          rintro code _ next beside ⟨rfl, mirrors⟩
          exact lowerResult_together c mirrors code
      | condition =>
        match operands, operands', listed with
        | [_, _], [_, _], .cons condition (.cons yes .nil) =>
          exact lowerCondition_together extended tame c (ih bound') mirrors condition yes
            .none
        | [_, _, _], [_, _, _], .cons condition (.cons yes (.cons no .nil)) =>
          exact lowerCondition_together extended tame c (ih bound') mirrors condition yes
            (.some no)
        | [], _, _ => exact .throw_left _
        | [_], _, _ => exact .throw_left _
        | _ :: _ :: _ :: _ :: _, _, _ => exact .throw_left _
      | _ =>
        exact (lowerExpression_together extended tame mirrors pairs).bind
          fun _ _ _ _ lowered => .pure lowered.2

end

end Generator

end Retarget
