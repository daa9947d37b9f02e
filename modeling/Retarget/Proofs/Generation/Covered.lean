import Retarget.Proofs.Generation.InScope
import Retarget.Proofs.Source.WellFormed
import Retarget.Proofs.Target.Portable

/-!
# What is generated has rules

Code for a value is made by rules, so where a body was lowered, the book has a rule for every value
of it (`Generator.covers_of_generate`). The rules were chosen while the graph grew, and what took the
place of a value is made over its operands, so nothing of the body goes unseen.
-/

namespace Retarget

open List

theorem Node.Made.payload_eq_none {value statement : NodeId → Prop} {node : Node}
    (made : node.Made value statement) (role : node.operation.role = .value) :
    node.payload = .none := by
  cases made with
  | constant => cases role
  | «variable» => cases role
  | table => cases role
  | computed => rfl
  | result => rfl
  | condition => rfl
  | sequence => rfl

namespace Graph.Formed

variable {graph : Graph} {id operand : NodeId}

/-- Only leaves carry anything. -/
theorem payload_eq_none (formed : graph.Formed) (role : (graph.node id).operation.role = .value) :
    (graph.node id).payload = .none :=
  (formed id (lt_size_of_value role)).payload_eq_none role

end Graph.Formed

namespace RuleBook

variable {book : RuleBook} {base graph : Graph} {id : NodeId} {lowering : Lowering}

theorem CoversFrom.of_operands
    (own : (graph.node id).operation.role = .value → book.Covers graph id)
    (each : ∀ operand ∈ (graph.node id).operands, book.CoversFrom graph operand) :
    book.CoversFrom graph id := by
  intro place reached role
  rcases Relation.ReflTransGen.cases_head reached with rfl | ⟨operand, uses, onward⟩
  · exact own role
  · exact each operand uses place onward role

/-- A leaf needs no rule. -/
theorem CoversFrom.of_leaf (role : (graph.node id).operation.role = .leaf)
    (bare : (graph.node id).operands = []) : book.CoversFrom graph id := by
  refine .of_operands (fun value => ?_) fun operand uses => ?_
  · rw [role] at value
    cases value
  · rw [bare] at uses
    cases uses

/-- What was chosen for a node while the graph grew is chosen by a rule that is for the node from the
start. -/
theorem Chose.covers (chose : book.Chose graph id lowering) (guarded : book.Guarded)
    (formed : base.Formed) (grows : base.Grows graph) (inside : id < base.size) :
    book.Covers base id := by
  obtain ⟨earlier, grown, known, lowered⟩ := chose
  have before (operand : NodeId) (uses : operand ∈ (graph.node id).operands) : operand < id := by
    rw [grows.operands_eq inside] at uses
    exact formed.operand_lt uses
  have here : base.Alike graph id := by
    refine .of_grows grows inside fun operand uses => ?_
    exact Nat.lt_trans (formed.operand_lt uses) inside
  have there : earlier.Alike graph id := by
    refine .of_grows grown known fun operand uses => ?_
    rw [← grown.operands_eq known] at uses
    exact Nat.lt_trans (before operand uses) known
  exact guarded.covers (there.trans here.symm) (covers_of_lower lowered)

theorem Tame.isReplaced_of_chose (tame : book.Tame) {later : Graph} {new : NodeId}
    (chose : book.Chose graph id (.replaced later new)) :
    (graph.node id).operation.isReplaced = true := by
  obtain ⟨earlier, grown, known, lowered⟩ := chose
  rw [grown.operation_eq known]
  obtain ⟨isReplaced, _, _⟩ := tame.replaces lowered
  exact isReplaced

end RuleBook

namespace Expresses

variable {book : RuleBook} {view : View} {base graph : Graph} {id : NodeId} {code : String}

/-- Where a computed value is expressed and nothing took its place, so are its operands. -/
theorem of_operand (expresses : Expresses book view graph id code) (tame : book.Tame)
    (bare : (graph.node id).payload = .none)
    (unreplaced : (graph.node id).operation.isReplaced = false) {operand : NodeId}
    (uses : operand ∈ (graph.node id).operands) :
    ∃ code, Expresses book view graph operand code := by
  cases expresses with
  | named leaf | literal leaf | constant leaf | table leaf => cases bare.symm.trans leaf
  | inline _ operands | stored _ operands | written _ operands =>
    exact ⟨_, operands operand uses⟩
  | replaced chose _ _ =>
    rw [tame.isReplaced_of_chose chose] at unreplaced
    cases unreplaced

/-- What took the place of a value is made over its operands, so they are expressed, but for a
constant divisor. -/
theorem of_replaced (extended : book.ExtendsPortable) (tame : book.Tame) {later : Graph}
    {new operand : NodeId} (chose : book.Chose graph id (.replaced later new))
    (grows : later.Grows graph) (expresses : Expresses book view graph new code)
    (uses : operand ∈ (graph.node id).operands) :
    (graph.node operand).payload ≠ .none ∨ ∃ code, Expresses book view graph operand code := by
  obtain ⟨earlier, grown, known, lowered⟩ := chose
  obtain ⟨_, first, second, rebuilt, joins, rfl⟩ := extended.rebuilt lowered
  rw [grown.operands_eq known] at uses
  have inside : earlier.size + 1 < later.size := by
    rw [joins.size]
    exact Nat.lt_succ_self _
  obtain ⟨tag, node⟩ : ∃ tag, graph.node (earlier.size + 1) = { second with tag } := by
    obtain ⟨_, joined⟩ := joins.outer
    obtain ⟨tag, same⟩ := grows.node _ inside
    exact ⟨tag, by rw [same, joined]⟩
  have operands {operand : NodeId} (uses : operand ∈ second.operands)
      (bare : second.payload = .none) (unreplaced : second.operation.isReplaced = false) :
      ∃ code, Expresses book view graph operand code := by
    apply expresses.of_operand tame
    · rw [node]
      exact bare
    · rw [node]
      exact unreplaced
    · rw [node]
      exact uses
  cases rebuilt with
  | product two constant _ =>
    rw [two] at uses
    rcases mem_cons.mp uses with rfl | last
    · exact .inr (operands mem_cons_self rfl rfl)
    · rw [mem_singleton.mp last]
      rw [← grown.payload_eq (Graph.lt_size_of_payload constant)] at constant
      exact .inl constant
  | choice two _ _ =>
    rw [two] at uses
    exact .inr (operands (mem_cons_of_mem _ uses) rfl rfl)

/-- A book has a rule for all parts of a value that is expressed. -/
theorem coversFrom (extended : book.ExtendsPortable) (tame : book.Tame) (formed : base.Formed)
    (grows : base.Grows graph) (value : base.Value id)
    (expresses : Expresses book view graph id code) : book.CoversFrom base id := by
  induction value generalizing code with
  | leaf role _ bare => exact .of_leaf role bare
  | @computed id role operands ih =>
    have inside := Graph.lt_size_of_value role
    have bare : (graph.node id).payload = .none :=
      (grows.payload_eq inside).trans (formed.payload_eq_none role)
    have same := grows.operands_eq inside
    have covers {lowering : Lowering} (chose : book.Chose graph id lowering)
        (each : ∀ operand ∈ (base.node id).operands, book.CoversFrom base operand) :
        book.CoversFrom base id :=
      .of_operands (fun _ => chose.covers extended.guarded formed grows inside) each
    cases expresses with
    | named leaf | literal leaf | constant leaf | table leaf => cases bare.symm.trans leaf
    | inline chose each | stored chose each | written chose each =>
      exact covers chose fun operand uses => ih operand uses (each operand (same ▸ uses))
    | replaced chose later inner =>
      refine covers chose fun operand uses => ?_
      rcases inner.of_replaced extended tame chose later (same ▸ uses) with carries | ⟨_, each⟩
      · have known := Graph.Value.lt_size (operands operand uses)
        rw [grows.payload_eq known] at carries
        -- A divisor with a value of its own is a leaf.
        cases operands operand uses with
        | leaf role _ bare => exact .of_leaf role bare
        | computed role _ => exact absurd (formed.payload_eq_none role) carries
      · exact ih operand uses each

end Expresses

namespace Generator

section

variable {job : Job} {base : Graph} {branches : Prop} {before after : Generator} {id : NodeId}
  {lower : NodeId → GeneratorM Unit}

/-- Where a part is lowered, the book has rules for all values of it. -/
def Reveals (job : Job) (base : Graph) (lower : NodeId → GeneratorM Unit) (part : NodeId) : Prop :=
  ∀ before after : Generator, before.Sound job → base.Grows before.graph →
    lower part before = .ok () after → job.book.CoversFrom base part

/-- Statements in a row are lowered one after the other, each from a sound state. -/
theorem covers_of_forM {parts : List NodeId}
    (safe : ∀ id {state : Generator}, state.Sound job →
      Safe job (lower id) state fun _ after => Leads job state after)
    (each : ∀ part ∈ parts, Reveals job base lower part)
    (sound : before.Sound job) (grows : base.Grows before.graph)
    (done : parts.forM lower before = .ok () after) :
    ∀ part ∈ parts, job.book.CoversFrom base part := by
  induction parts generalizing before with
  | nil => exact forall_mem_nil _
  | cons part rest ih =>
    obtain ⟨first, others⟩ := forall_mem_cons.mp each
    obtain ⟨_, middle, lowered, remaining⟩ := bind_eq_ok.mp done
    have leads := (safe part sound).ends _ _ lowered
    exact forall_mem_cons.mpr ⟨first _ _ sound grows lowered,
      ih others leads.sound (grows.trans leads.evolves.graph) remaining⟩

variable (language : job.options.language = .c) (orderly : job.book.Orderly)
  (extended : job.book.ExtendsPortable) (tame : job.book.Tame) (formed : base.Formed)

include language orderly extended tame formed

theorem covers_of_lowerExpression {code : String} (value : base.Value id)
    (sound : before.Sound job) (grows : base.Grows before.graph)
    (done : lowerExpression job id before = .ok code after) : job.book.CoversFrom base id := by
  obtain ⟨leads, expresses⟩ := (lowerExpression_safe sound language orderly id).ends _ _ done
  exact Expresses.coversFrom extended tame formed (grows.trans leads.evolves.graph) value expresses

theorem covers_of_lowerCondition
    (safe : ∀ id {state : Generator}, state.Sound job →
      Safe job (lower id) state fun _ after => Leads job state after)
    {condition yes : NodeId} {no : Option NodeId} (isValue : base.Value condition)
    (each : ∀ part ∈ yes :: no.toList, Reveals job base lower part)
    (sound : before.Sound job) (grows : base.Grows before.graph)
    (done : lowerCondition job lower condition yes no before = .ok () after) :
    ∀ part ∈ condition :: yes :: no.toList, job.book.CoversFrom base part := by
  obtain ⟨code, first, lowered, branching⟩ := bind_eq_ok.mp done
  obtain ⟨leads, expresses⟩ := (lowerExpression_safe sound language orderly _).ends _ _ lowered
  have covers := covers_of_lowerExpression language orderly extended tame formed isValue sound grows
    lowered
  simp only [language] at branching
  obtain ⟨_, second, written, branching⟩ := bind_eq_ok.mp branching
  obtain ⟨onward, _⟩ := (write_safe leads.sound (.condition expresses)).ends _ _ written
  have grown := (grows.trans leads.evolves.graph).trans onward.evolves.graph
  obtain ⟨_, third, opened, branching⟩ := bind_eq_ok.mp branching
  have inside := onward.sound.openScope opened
  obtain ⟨_, fourth, chosen, branching⟩ := bind_eq_ok.mp branching
  have reached := (safe yes inside.sound).ends _ _ chosen
  obtain ⟨here, other⟩ := forall_mem_cons.mp each
  have first := here _ _ inside.sound (grown.trans inside.graph) chosen
  refine forall_mem_cons.mpr ⟨covers, forall_mem_cons.mpr ⟨first, ?_⟩⟩
  obtain ⟨_, fifth, refused, _⟩ := bind_eq_ok.mp branching
  cases no with
  | none => exact forall_mem_nil _
  | some no =>
    obtain ⟨_, linked, beside, refused⟩ := bind_eq_ok.mp refused
    have within := (inside.trans reached).linkScope beside
    exact forall_mem_singleton.mpr (other no (mem_singleton_self _) _ _ within.sound
      (grown.trans within.graph) refused)

/-- A book has a rule for all values of a statement that was lowered. -/
theorem covers_of_lowerStatement (depth : Nat) (statement : base.Statement branches id) :
    Reveals job base (lowerStatement job depth) id := by
  induction depth generalizing id with
  | zero => exact fun _ _ _ _ done => by cases done
  | succ depth ih =>
    intro before after sound grows done
    have safe := lowerStatement_safe language orderly depth
    have inside := statement.lt_size
    have noValue (covers : ∀ part ∈ (base.node id).operands, job.book.CoversFrom base part) :
        job.book.CoversFrom base id := by
      refine .of_operands (fun role => ?_) covers
      rw [statement.role_eq] at role
      cases role
    obtain ⟨_, _, ⟨⟩, done⟩ := bind_eq_ok.mp done
    rw [grows.operation_eq inside, grows.operands_eq inside] at done
    cases statement with
    | sequence operation _ _ parts =>
      rw [operation] at done
      exact noValue (covers_of_forM safe (fun part member => ih (parts part member)) sound grows
        done)
    | result operation operands isValue =>
      rw [operation, operands] at done
      obtain ⟨_, _, lowered, _⟩ := bind_eq_ok.mp done
      refine noValue ?_
      rw [operands]
      exact forall_mem_singleton.mpr (covers_of_lowerExpression language orderly extended
        tame formed isValue sound grows lowered)
    | condition _ operation operands few isValue _ parts =>
      have conditional (yes : NodeId) (no : Option NodeId)
          (parts : ∀ part ∈ yes :: no.toList, base.Statement branches part)
          (done : lowerCondition job (lowerStatement job depth) _ yes no before = .ok () after) :=
        covers_of_lowerCondition language orderly extended tame formed safe isValue
          (fun part member => ih (parts part member)) sound grows done
      refine noValue ?_
      rw [operands]
      rw [operation, operands] at done
      rcases few with one | two
      · obtain ⟨yes, rfl⟩ := length_eq_one_iff.mp one
        exact conditional yes none parts done
      · obtain ⟨yes, no, rfl⟩ := length_eq_two.mp two
        exact conditional yes (some no) parts done

theorem covers_of_generateC {function : Function} (statement : base.Statement branches function.body)
    (sound : before.Sound job) (grows : base.Grows before.graph)
    (done : generateC job function before = .ok () after) :
    job.book.CoversFrom base function.body := by
  obtain ⟨_, headed, done', done⟩ := bind_eq_ok.mp done
  obtain ⟨leads, _⟩ :=
    (onDocument_safe sound (.header _) (Document.addHeader_advances _)).ends _ _ done'
  obtain ⟨_, named, done', done⟩ := bind_eq_ok.mp done
  obtain ⟨leads₁, _⟩ := (declareEntity_safe leads.sound _ _ _).ends _ _ done'
  obtain ⟨_, begun, done', done⟩ := bind_eq_ok.mp done
  obtain ⟨leads₂, _⟩ := (write_safe leads₁.sound (.head function)).ends _ _ done'
  obtain ⟨_, opened, done', done⟩ := bind_eq_ok.mp done
  have inside := leads₂.sound.openScope done'
  obtain ⟨_, reserved, done', done⟩ := bind_eq_ok.mp done
  have reached := (reserveAll_safe inside.sound function.arguments).ends _ _ done'
  obtain ⟨_, framed, ⟨⟩, done⟩ := bind_eq_ok.mp done
  obtain ⟨_, lowered, body, _⟩ := bind_eq_ok.mp done
  have entered : Leads job reserved { reserved with frame := some ⟨"", function.result⟩ } :=
    reached.sound.advance (.refl _) (.refl _) rfl rfl
  have grown := (leads.trans (leads₁.trans leads₂)).evolves.graph.trans
    (inside.graph.trans (reached.trans entered).evolves.graph)
  exact covers_of_lowerStatement language orderly extended tame formed _ statement _ _
    entered.sound (grows.trans grown) body

/-- Where nothing is promoted, the graph only grows while a function is generated. -/
theorem covers_of_generateFunction (unpromoted : job.options.promoteRegisters = false)
    {function : Function} (statement : base.Statement branches function.body)
    (between : before.Between job) (grows : base.Grows before.graph)
    (done : generateFunction job function before = .ok () after) :
    job.book.CoversFrom base function.body ∧ base.Grows after.graph := by
  obtain ⟨_, started, ⟨⟩, done⟩ := bind_eq_ok.mp done
  obtain ⟨_, promoted, kept, done⟩ := bind_eq_ok.mp done
  simp only [promote, unpromoted] at kept
  cases kept
  obtain ⟨_, counted, ⟨⟩, done⟩ := bind_eq_ok.mp done
  obtain ⟨_, _, ⟨⟩, done⟩ := bind_eq_ok.mp done
  obtain ⟨_, written, wrote, done⟩ := bind_eq_ok.mp done
  obtain ⟨_, _, ⟨⟩, done⟩ := bind_eq_ok.mp done
  obtain ⟨_, _, ⟨⟩, ⟨⟩⟩ := bind_eq_ok.mp done
  simp only [writeFunction, language] at wrote
  have ready : Between job { before with
      session := before.session.startFunction function.name,
      uses := before.graph.uses function.body, memo := OrderedMap.empty, outerMemos := [] } :=
    between.of_document rfl rfl rfl
  have leads := ((generateC_safe language orderly ready.sound function).ends _ _ wrote).1
  exact ⟨covers_of_generateC language orderly extended tame formed statement ready.sound grows wrote,
    grows.trans leads.evolves.graph⟩

/-- A book has a rule for all values of the functions that were generated. -/
theorem covers_of_generate (unpromoted : job.options.promoteRegisters = false)
    {functions : List Function}
    (statements : ∀ function ∈ functions, base.Statement branches function.body)
    (between : before.Between job) (grows : base.Grows before.graph)
    (done : functions.forM (generateFunction job) before = .ok () after) :
    ∀ function ∈ functions, job.book.CoversFrom base function.body := by
  induction functions generalizing before with
  | nil => exact forall_mem_nil _
  | cons function rest ih =>
    obtain ⟨here, others⟩ := forall_mem_cons.mp statements
    obtain ⟨_, middle, first, remaining⟩ := bind_eq_ok.mp done
    obtain ⟨covers, grown⟩ := covers_of_generateFunction language orderly extended tame formed
      unpromoted here between grows first
    have next := (generateFunction_safe language orderly between function).ends _ _ first
    exact forall_mem_cons.mpr ⟨covers, ih others next grown remaining⟩

end

end Generator

end Retarget
