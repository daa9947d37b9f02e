import Retarget.Proofs.Generation.Values

/-!
# Lowering of statements

The statements of a graph are written without a fault in every language, but for values without a
rule and for conditionals in a language that has none. Each statement leaves the drafts in the
blocks that it found them in.
-/

namespace Retarget.Generator

open List

section

variable {job : Job} {graph : Graph} {frame : Frame} {depth : Nat} {depths : List Nat}
  {before : Generator} {expected : Fault → Prop} {branches : Prop}

/-- The result of a function is written where there is a function. -/
theorem lowerResult_ends (ready : before.Ready job graph (some frame) depths) (code : String) :
    Ends expected (lowerResult job.options code) before fun _ after =>
      after.Ready job graph (some frame) depths := by
  refine .get_bind ?_
  rw [ready.framed]
  dsimp only
  split
  · exact write_ends ready _
  · exact write_ends ready _
  · refine (write_ends ready _).bind fun _ written ready => ?_
    exact onDocument_ends ready (ready.balanced.modifyRoot_ends
      (fun draft => draft.scope_modifyObligations _) fun draft => draft.level_modifyObligations _)

/-- A part of a statement is written in whatever block it stands. -/
def Writes (expected : Fault → Prop) (job : Job) (graph : Graph) (frame : Option Frame)
    (action : GeneratorM Unit) : Prop :=
  ∀ depth depths before, Ready job graph frame (depth :: depths) before →
    Ends expected action before fun _ after => after.Ready job graph frame (depth :: depths)

section Branches

variable {lower : NodeId → GeneratorM Unit} {yes : NodeId} {no : Option NodeId}

theorem lowerBranch_ends (writes : Writes expected job graph (some frame) (lower yes)) :
    Writes expected job graph (some frame) (lowerBranch lower yes) := by
  intro depth depths before ready
  refine (indent_ends ready).bind fun _ indented ready => ?_
  refine (pushMemo_ends ready).bind fun _ pushed ready => ?_
  refine (writes _ _ pushed ready).bind fun _ lowered ready => ?_
  exact (popMemo_ends ready).bind fun _ _ ready => dedent_ends ready

section

variable (first : Writes expected job graph (some frame) (lower yes))
  (second : ∀ other ∈ no, Writes expected job graph (some frame) (lower other))

include first second

theorem lowerConditionC_ends (blocks : job.options.language ≠ .gappa) (condition : String) :
    Writes expected job graph (some frame) (lowerConditionC lower condition yes no) := by
  intro depth depths before ready
  refine (write_ends ready _).bind fun _ written ready => ?_
  refine (openScope_ends ready).bind fun _ opened ready => ?_
  refine (first _ _ opened ready).bind fun _ lowered ready => ?_
  have linked : Ends expected (lowerElseC lower no) lowered fun _ after =>
      after.Ready job graph (some frame) (0 :: (depth + 1) :: depths) := by
    cases no with
    | none => exact .pure ready
    | some other =>
      refine (linkScope_ends ready blocks "else").bind fun _ linked ready => ?_
      exact second other rfl _ _ linked ready
  exact linked.bind fun _ _ ready => closeScope_ends ready

/-- The branches of a conditional in hardware, and what follows them. -/
theorem lowerSides_ends {ending : GeneratorM Unit} {others : List Nat}
    (rest : ∀ state : Generator, state.Ready job graph (some frame) (depth :: depths) →
      Ends expected ending state fun _ after => after.Ready job graph (some frame) others)
    (ready : before.Ready job graph (some frame) (depth :: depths)) (condition : String) :
    Ends expected
      (do
        modify fun generator => { generator with conditionals := generator.conditionals + 1 }
        write ("if " ++ condition ++ " = '1' then\n")
        lowerBranch lower yes
        if let some no := no then
          write "else\n"
          lowerBranch lower no
        write "end if;\n"
        modify fun generator => { generator with conditionals := generator.conditionals - 1 }
        ending)
      before fun _ after => after.Ready job graph (some frame) others := by
  have finish (state : Generator) (ready : state.Ready job graph (some frame) (depth :: depths)) :
      Ends expected
        (do
          write "end if;\n"
          modify fun generator => { generator with conditionals := generator.conditionals - 1 }
          ending)
        state fun _ after => after.Ready job graph (some frame) others := by
    refine (write_ends ready _).bind fun _ written ready => .modify_bind ?_
    exact rest _ (ready.congr rfl rfl rfl rfl)
  have counted : Ready job graph (some frame) (depth :: depths)
      { before with conditionals := before.conditionals + 1 } :=
    ready.congr rfl rfl rfl rfl
  refine .modify_bind ((write_ends counted _).bind fun _ headed ready => ?_)
  refine (lowerBranch_ends first _ _ _ ready).bind fun _ lowered ready => ?_
  cases no with
  | none => exact finish lowered ready
  | some other =>
    refine (write_ends ready _).bind fun _ written ready => ?_
    exact (lowerBranch_ends (second other rfl) _ _ _ ready).bind fun _ state => finish state

theorem lowerConditionVhdl_ends (condition : String) :
    Writes expected job graph (some frame) (lowerConditionVhdl lower condition yes no) := by
  intro depth depths before ready
  refine .get_bind ?_
  by_cases outermost : before.conditionals = 0
  · simp only [outermost, ↓reduceIte]
    refine (write_ends ready _).bind fun _ written ready => ?_
    refine (indent_ends ready).bind fun _ indented ready => ?_
    refine lowerSides_ends first second (fun state ready => ?_) ready condition
    exact (dedent_ends ready).bind fun _ _ ready => write_ends ready _
  · simp only [outermost, ↓reduceIte]
    exact lowerSides_ends first second (fun state ready => .pure ready) ready condition

end

end Branches

variable (appends : job.book.Appends) (tame : job.book.Tame)
  (branching : job.options.language = .gappa → branches → expected (.graph .cannotBranch))

include appends tame branching

theorem lowerCondition_ends {lower : NodeId → GeneratorM Unit} {value yes : NodeId}
    {no : Option NodeId} (allowed : branches) (isValue : graph.Value value)
    (refuses : graph.RefusesFrom expected job.book value)
    (first : Writes expected job graph (some frame) (lower yes))
    (second : ∀ other ∈ no, Writes expected job graph (some frame) (lower other)) :
    Writes expected job graph (some frame) (lowerCondition job lower value yes no) := by
  intro depth depths before ready
  refine (lowerExpression_ends appends tame isValue refuses ready).bind ?_
  intro code lowered ready
  cases language : job.options.language with
  | c => exact lowerConditionC_ends first second (by rw [language]; decide) code _ _ _ ready
  | vhdl => exact lowerConditionVhdl_ends first second code _ _ _ ready
  | gappa => exact .of_eq_error rfl (branching language allowed)

/-- A statement is written in fewer steps of nesting than its place in the graph. -/
theorem lowerStatement_ends {limit : Nat} {id : NodeId} (near : id < limit)
    (statement : graph.Statement branches id)
    (refuses : graph.RefusesFrom expected job.book id) :
    Writes expected job graph (some frame) (lowerStatement job limit id) := by
  induction limit generalizing id with
  | zero => exact absurd near (Nat.not_lt_zero id)
  | succ limit ih =>
    intro depth depths before ready
    have inside := statement.lt_size
    have operation := ready.grows.operation_eq inside
    have operands := ready.grows.operands_eq inside
    refine .get_bind ?_
    cases statement with
    | sequence isSequence _ earlier parts =>
      dsimp only
      rw [operation, isSequence, operands]
      refine .forM_of_mem (fun part member state ready => ?_) ready
      have before := Nat.lt_of_lt_of_le (earlier part member) (Nat.le_of_lt_succ near)
      exact ih before (parts part member) (refuses.of_operand member) depth depths state ready
    | result isResult alone isValue =>
      dsimp only
      rw [operation, isResult, operands, alone]
      have value := refuses.of_operand (alone ▸ mem_cons_self)
      refine (lowerExpression_ends appends tame isValue value ready).bind ?_
      exact fun code _ ready => lowerResult_ends ready code
    | @condition _ value sides allowed isCondition listed few isValue earlier parts =>
      have writes (side : NodeId) (member : side ∈ sides) :
          Writes expected job graph (some frame) (lowerStatement job limit side) :=
        ih (Nat.lt_of_lt_of_le (earlier side member) (Nat.le_of_lt_succ near))
          (parts side member) (refuses.of_operand (listed ▸ mem_cons_of_mem _ member))
      have condition := refuses.of_operand (listed ▸ mem_cons_self)
      dsimp only
      rw [operation, isCondition, operands, listed]
      rcases few with one | two
      · obtain ⟨yes, rfl⟩ := length_eq_one_iff.mp one
        exact lowerCondition_ends appends tame branching allowed isValue condition
          (writes yes mem_cons_self) (by simp) _ _ _ ready
      · obtain ⟨yes, no, rfl⟩ := length_eq_two.mp two
        refine lowerCondition_ends appends tame branching allowed isValue condition
          (writes yes mem_cons_self) (fun other same => ?_) _ _ _ ready
        cases same
        exact writes no (mem_cons_of_mem _ mem_cons_self)

theorem lowerBody_ends {body : NodeId} (statement : graph.Statement branches body)
    (refuses : graph.RefusesFrom expected job.book body) :
    Writes expected job graph (some frame) (lowerBody job body) := by
  intro depth depths before ready
  refine .get_bind ?_
  have near := Nat.lt_of_lt_of_le statement.lt_size ready.grows.size
  exact lowerStatement_ends appends tame branching (Nat.lt_succ_of_lt near) statement refuses
    depth depths before ready

end

end Retarget.Generator
